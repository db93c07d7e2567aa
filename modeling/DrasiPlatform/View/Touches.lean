/-
A result event as a list of touches: a row that goes and a row that comes, in the order in which `record_change` (and any
consumer of the results topic that keeps the result set by key) applies them.

`Carries S S' us` says that the touches, as a simultaneous change of multisets, lead from `S` to `S'`. A result set whose
rows have different keys is a map from keys to rows (`Maps`).

- `foldl_touch_eq`: applied one after the other the touches lead to the same set, unless a later touch removes the row of
  an earlier one (`Unchained`).
- `Maps.carry`: then, on the map from keys to rows, the event is its keyed upserts and deletes (`touchWrites`).
- `recordOps_eq`: these are the store operations of `record_change`, with the metadata at the end.
An event that touches no key twice (`TouchedOnce`) is unchained.
-/
import Mathlib.Tactic
import DrasiPlatform.Core.Writes
import DrasiPlatform.View.RecordChange

namespace DrasiPlatform.View

variable {Row Hash : Type}

/-! ## Touches -/

/-- a row that goes and a row that comes -/
abbrev Touch (Row : Type) := Option Row × Option Row

/-- the touches of an event, in order: deleted rows, updates, added rows -/
def ResultChangeEvent.touches (change : ResultChangeEvent Row) : List (Touch Row) :=
  change.deletedResults.map (fun r => (some r, none)) ++
    (change.updatedResults.map (fun u => (u.before, u.after)) ++ change.addedResults.map fun r => (none, some r))

/-- the rows of a touch -/
def touchRows (u : Touch Row) : List Row := u.1.toList ++ u.2.toList

/-- no row key is touched twice, except as before and after of one touch -/
def TouchedOnce (key : Row → Hash) (us : List (Touch Row)) : Prop :=
  us.Pairwise fun u v => ∀ r ∈ touchRows u, ∀ r' ∈ touchRows v, key r ≠ key r'

/-- no touch removes the key of a row that an earlier touch has brought -/
def UnchainedTouches (key : Row → Hash) (us : List (Touch Row)) : Prop :=
  us.Pairwise fun u v => ∀ a ∈ u.2, ∀ b ∈ v.1, key a ≠ key b

theorem TouchedOnce.unchained {key : Row → Hash} {us : List (Touch Row)} (h : TouchedOnce key us) :
    UnchainedTouches key us := by
  refine List.Pairwise.imp ?_ h
  intro u v huv a ha b hb
  exact huv a (by simp [touchRows, Option.mem_def.1 ha]) b (by simp [touchRows, Option.mem_def.1 hb])

/-- the result set after one touch -/
def touch [DecidableEq Row] (S : Finset Row) (u : Touch Row) : Finset Row := u.2.toFinset ∪ (S \ u.1.toFinset)

/-- the touches describe the change from `S` to `S'` -/
structure Carries [DecidableEq Row] (S S' : Finset Row) (us : List (Touch Row)) : Prop where
  removed : (us.filterMap Prod.fst : Multiset Row) ≤ S.val
  result : S'.val = S.val - (us.filterMap Prod.fst : Multiset Row) + (us.filterMap Prod.snd : Multiset Row)

/-- what a touch writes to a map from keys to rows -/
def touchWrite (key : Row → Hash) (u : Touch Row) : List (Hash × Option Row) :=
  (u.1.map fun b => (key b, none)).toList ++ (u.2.map fun a => (key a, some a)).toList

/-- an event as keyed deletes and upserts -/
def touchWrites (key : Row → Hash) (us : List (Touch Row)) : List (Hash × Option Row) := us.flatMap (touchWrite key)

/-- the map from keys to rows of a result set -/
def Maps (key : Row → Hash) (S : Finset Row) (f : Hash → Option Row) : Prop :=
  ∀ hash row, f hash = some row ↔ row ∈ S ∧ key row = hash

section

variable [DecidableEq Row] {key : Row → Hash} {S S' : Finset Row} {us : List (Touch Row)}

@[simp] theorem mem_touch (S : Finset Row) (u : Touch Row) (r : Row) : r ∈ touch S u ↔ u.2 = some r ∨ (r ∈ S ∧ u.1 ≠ some r) := by
  simp [touch, Option.mem_toFinset]

/-- the touches one after the other: a new row stays, unless a later touch removes it -/
theorem mem_foldl_touch (hun : UnchainedTouches key us) (S : Finset Row) (r : Row) :
    r ∈ us.foldl touch S ↔ r ∈ us.filterMap Prod.snd ∨ (r ∈ S ∧ r ∉ us.filterMap Prod.fst) := by
  induction us generalizing S with
  | nil => simp
  | cons u us ih =>
    obtain ⟨hu, hus⟩ := List.pairwise_cons.1 hun
    rw [List.foldl_cons, ih hus, mem_touch]
    have hstays : u.2 = some r → r ∉ us.filterMap Prod.fst := by
      intro ha hr
      obtain ⟨v, hv, hb⟩ := List.mem_filterMap.1 hr
      exact hu v hv r ha r hb rfl
    rcases u with ⟨_ | b, _ | a⟩ <;> simp only [List.filterMap_cons, List.mem_cons] at hstays ⊢
    all_goals simp only [Option.some.injEq, reduceCtorEq, false_or, ne_eq, not_false_eq_true, and_true, eq_comm] at hstays ⊢
    all_goals tauto

theorem Carries.mem_iff (h : Carries S S' us) (r : Row) :
    r ∈ S' ↔ r ∈ us.filterMap Prod.snd ∨ (r ∈ S ∧ r ∉ us.filterMap Prod.fst) := by
  rw [← Finset.mem_val, h.result, Multiset.mem_add, Multiset.mem_sub_of_nodup S.nodup, or_comm]
  rfl

/-- **One after the other** unchained touches lead where the event leads. -/
theorem foldl_touch_eq (h : Carries S S' us) (hun : UnchainedTouches key us) : us.foldl touch S = S' := by
  ext r
  rw [mem_foldl_touch hun, h.mem_iff]

theorem Carries.removed_nodup (h : Carries S S' us) : (us.filterMap Prod.fst).Nodup :=
  Multiset.coe_nodup.1 (Multiset.nodup_of_le h.removed S.nodup)

theorem Carries.removed_mem (h : Carries S S' us) {r : Row} (hr : r ∈ us.filterMap Prod.fst) : r ∈ S :=
  Multiset.mem_of_le h.removed hr

/-! ## Maps -/

variable [DecidableEq Hash]

/-- a touch that removes a row of the set, and brings a row whose key no other row has -/
theorem Maps.touch {f : Hash → Option Row} (hf : Maps key S f) (hS : Set.InjOn key S) {u : Touch Row}
    (hb : ∀ b ∈ u.1, b ∈ S) (hinj : Set.InjOn key (touch S u)) :
    Maps key (View.touch S u) (Writes.apply f (touchWrite key u)) := by
  -- the delete, then the upsert
  have hdel : ∀ hash row, Writes.apply f (u.1.map fun b => (key b, none)).toList hash = some row ↔
      (row ∈ S ∧ u.1 ≠ some row) ∧ key row = hash := by
    intro hash row
    rcases hu : u.1 with _ | b
    · simpa [Writes.apply] using hf hash row
    · have hbS : b ∈ S := hb b hu
      simp only [Option.map_some, Option.toList_some, Writes.apply, List.foldl_cons, List.foldl_nil,
        Function.update_apply, ne_eq, Option.some.injEq]
      split_ifs with hh
      · subst hh
        simp only [false_iff, not_and]
        rintro ⟨hrow, hne⟩ hk
        exact hne (hS hbS hrow hk.symm)
      · rw [hf]
        constructor
        · rintro ⟨hrow, rfl⟩
          exact ⟨⟨hrow, fun he => hh (by rw [he])⟩, rfl⟩
        · rintro ⟨⟨hrow, -⟩, hk⟩; exact ⟨hrow, hk⟩
  intro hash row
  have happend : Writes.apply f (touchWrite key u) =
      Writes.apply (Writes.apply f (u.1.map fun b => (key b, none)).toList) (u.2.map fun a => (key a, some a)).toList := by
    simp [Writes.apply, touchWrite, List.foldl_append]
  rw [happend, mem_touch]
  rcases hu : u.2 with _ | a
  · simpa [Writes.apply, hu] using hdel hash row
  · simp only [Option.map_some, Option.toList_some, Writes.apply, List.foldl_cons, List.foldl_nil, Function.update_apply,
      Option.some.injEq]
    have ha : a ∈ View.touch S u := (mem_touch S u a).2 (.inl hu)
    split_ifs with hh
    · subst hh
      simp only [Option.some.injEq]
      constructor
      · rintro rfl; exact ⟨.inl rfl, rfl⟩
      · rintro ⟨hrow, hk⟩
        exact hinj ha ((mem_touch S u row).2 (by rwa [hu, Option.some.injEq])) hk.symm
    · have := hdel hash row
      simp only [Writes.apply] at this
      rw [this]
      constructor
      · rintro ⟨hrow, hk⟩; exact ⟨.inr hrow, hk⟩
      · rintro ⟨rfl | hrow, hk⟩
        · exact absurd hk.symm hh
        · exact ⟨hrow, hk⟩

/-- what the touches of an event may rely on, from the result set they start with to the one they lead to -/
structure Legal (key : Row → Hash) (S : Finset Row) (us : List (Touch Row)) : Prop where
  start : Set.InjOn key S
  finish : Set.InjOn key (us.foldl View.touch S : Finset Row)
  unchained : UnchainedTouches key us
  removed_mem : ∀ b ∈ us.filterMap Prod.fst, b ∈ S
  removed_nodup : (us.filterMap Prod.fst).Nodup
  new_nodup : (us.filterMap Prod.snd).Nodup
  /-- a row that comes and is there already also goes -/
  new_removed : ∀ a ∈ us.filterMap Prod.snd, a ∈ S → a ∈ us.filterMap Prod.fst

omit [DecidableEq Hash] in
theorem Carries.legal (h : Carries S S' us) (hS : Set.InjOn key S) (hS' : Set.InjOn key S')
    (hun : UnchainedTouches key us) : Legal key S us := by
  have hnodup := S'.nodup
  rw [h.result, Multiset.nodup_add] at hnodup
  refine ⟨hS, ?_, hun, fun b hb => h.removed_mem hb, h.removed_nodup, Multiset.coe_nodup.1 hnodup.2.1, ?_⟩
  · rw [foldl_touch_eq h hun]; exact hS'
  · intro a ha haS
    by_contra hrem
    exact Multiset.disjoint_left.1 hnodup.2.2 ((Multiset.mem_sub_of_nodup S.nodup).2 ⟨haS, hrem⟩) ha

namespace Legal

variable {u : Touch Row}

omit [DecidableEq Hash]

/-- a row of the set that the first touch leaves alone and no later one removes is there at the end -/
theorem mem_finish (h : Legal key S (u :: us)) {y : Row} (hy : y ∈ S) (hne : u.1 ≠ some y)
    (hrem : y ∉ us.filterMap Prod.fst) : y ∈ (u :: us).foldl View.touch S := by
  refine (mem_foldl_touch h.unchained S y).2 (.inr ⟨hy, ?_⟩)
  rcases hu : u.1 with _ | b
  · simpa [hu] using hrem
  · simp only [List.filterMap_cons, hu, List.mem_cons, not_or]
    exact ⟨fun he => hne (by rw [hu, he]), hrem⟩

/-- the row that the first touch brings has the key of no row that stays: the key is free -/
theorem key_free (h : Legal key S (u :: us)) {a y : Row} (ha : u.2 = some a) (hy : y ∈ S) (hne : u.1 ≠ some y) :
    key y ≠ key a := by
  intro hk
  by_cases hrem : y ∈ us.filterMap Prod.fst
  · -- a later touch removes `y`, whose key is the one of the new row
    obtain ⟨v, hv, hb⟩ := List.mem_filterMap.1 hrem
    exact (List.pairwise_cons.1 h.unchained).1 v hv a ha y hb hk.symm
  · have haend : a ∈ (u :: us).foldl View.touch S := (mem_foldl_touch h.unchained S a).2 (.inl (by simp [ha]))
    obtain rfl : y = a := h.finish (h.mem_finish hy hne hrem) haend hk
    have hgone := h.new_removed y (by simp [ha]) hy
    rcases hu : u.1 with _ | b
    · simp only [List.filterMap_cons, hu] at hgone
      exact hrem hgone
    · simp only [List.filterMap_cons, hu, List.mem_cons] at hgone
      rcases hgone with he | hgone
      · exact hne (by rw [hu, he])
      · exact hrem hgone

theorem injOn_touch (h : Legal key S (u :: us)) : Set.InjOn key (View.touch S u) := by
  intro x hx y hy hk
  simp only [Finset.mem_coe, mem_touch] at hx hy
  rcases hx with hx | ⟨hx, hxb⟩ <;> rcases hy with hy | ⟨hy, hyb⟩
  · exact Option.some.inj (hx.symm.trans hy)
  · exact absurd hk.symm (h.key_free hx hy hyb)
  · exact absurd hk (h.key_free hy hx hxb)
  · exact h.start hx hy hk

theorem head_mem (h : Legal key S (u :: us)) : ∀ b ∈ u.1, b ∈ S := by
  intro b hb
  exact h.removed_mem b (by simp [Option.mem_def.1 hb])

theorem tail (h : Legal key S (u :: us)) : Legal key (View.touch S u) us := by
  refine ⟨h.injOn_touch, h.finish, (List.pairwise_cons.1 h.unchained).2, ?_, ?_, ?_, ?_⟩
  · -- the rows the later touches remove are not the one that has gone
    intro b hb
    rw [mem_touch]
    refine .inr ⟨h.removed_mem b ?_, ?_⟩
    · rcases hu : u.1 with _ | b' <;> simp [hu, hb]
    · intro hu
      have hnodup := h.removed_nodup
      simp only [List.filterMap_cons, hu, List.nodup_cons] at hnodup
      exact hnodup.1 hb
  · have hnodup := h.removed_nodup
    rcases hu : u.1 with _ | b <;> simp only [List.filterMap_cons, hu, List.nodup_cons] at hnodup
    · exact hnodup
    · exact hnodup.2
  · have hnodup := h.new_nodup
    rcases hu : u.2 with _ | a <;> simp only [List.filterMap_cons, hu, List.nodup_cons] at hnodup
    · exact hnodup
    · exact hnodup.2
  · intro a ha haS
    rw [mem_touch] at haS
    rcases haS with hu | ⟨haS, hne⟩
    · have hnodup := h.new_nodup
      simp only [List.filterMap_cons, hu, List.nodup_cons] at hnodup
      exact absurd ha hnodup.1
    · have hgone := h.new_removed a (by rcases hu : u.2 with _ | a' <;> simp [hu, ha]) haS
      rcases hu : u.1 with _ | b <;> simp only [List.filterMap_cons, hu, List.mem_cons] at hgone
      · exact hgone
      · rcases hgone with he | hgone
        · exact absurd (by rw [hu, he]) hne
        · exact hgone

end Legal

theorem Maps.foldl_touch {f : Hash → Option Row} (hf : Maps key S f) (h : Legal key S us) :
    Maps key (us.foldl View.touch S) (Writes.apply f (touchWrites key us)) := by
  induction us generalizing S f with
  | nil => exact hf
  | cons u us ih =>
    have happend : Writes.apply f (touchWrites key (u :: us)) =
        Writes.apply (Writes.apply f (touchWrite key u)) (touchWrites key us) := by
      simp [Writes.apply, touchWrites, List.foldl_append]
    rw [List.foldl_cons, happend]
    exact ih (hf.touch h.start h.head_mem h.injOn_touch) h.tail

/-- **A result event is its keyed deletes and upserts.** Between result sets with different keys, and with no touch that
removes what an earlier one has brought, the writes carry the map of `S` to the map of `S'`. -/
theorem Maps.carry {f : Hash → Option Row} (hf : Maps key S f) (hS : Set.InjOn key S) (hS' : Set.InjOn key S')
    (h : Carries S S' us) (hun : UnchainedTouches key us) : Maps key S' (Writes.apply f (touchWrites key us)) := by
  have hmaps := hf.foldl_touch (h.legal hS hS' hun)
  rwa [foldl_touch_eq h hun] at hmaps

end

theorem Maps.ext {key : Row → Hash} {S : Finset Row} {f g : Hash → Option Row} (hf : Maps key S f) (hg : Maps key S g) :
    f = g := by
  funext hash
  exact Option.ext fun row => (hf hash row).trans (hg hash row).symm

/-! ## The store operations -/

/-- the store operations of a touch -/
def touchOps (key : Row → Hash) (u : Touch Row) : List (StoreOp Row Hash) :=
  (u.1.map fun b => .close (key b)).toList ++ (u.2.map fun a => .upsert (key a) a).toList

/-- **`record_change` applies the touches**, and writes the metadata at the end. -/
theorem recordOps_eq {H : Hashing Row Hash} {key : Row → Hash} {change : ResultChangeEvent Row} (hk : KeyedBy H key change) :
    recordOps H change = change.touches.flatMap (touchOps key) ++ [.metadata change.sequence] := by
  have hdel : change.deletedResults.map (fun r => (StoreOp.close (H.hashValues r) : StoreOp Row Hash)) =
      (change.deletedResults.map fun r => (some r, none)).flatMap (touchOps key) := by
    rw [List.flatMap_map, List.map_eq_flatMap]
    refine List.flatMap_congr fun r hr => ?_
    simp [touchOps, hk.deleted r hr]
  have hupd : change.updatedResults.flatMap (updateOps H) =
      (change.updatedResults.map fun u => (u.before, u.after)).flatMap (touchOps key) := by
    rw [List.flatMap_map]
    refine List.flatMap_congr fun u hu => ?_
    unfold updateOps touchOps
    congr 1
    · rcases hb : u.before with _ | b
      · rfl
      · simp [hk.updated u hu b (.inl hb)]
    · rcases ha : u.after with _ | a
      · rfl
      · simp [hk.updated u hu a (.inr ha)]
  have hadd : change.addedResults.map (fun r => (StoreOp.upsert (H.hashValues r) r : StoreOp Row Hash)) =
      (change.addedResults.map fun r => (none, some r)).flatMap (touchOps key) := by
    rw [List.flatMap_map, List.map_eq_flatMap]
    refine List.flatMap_congr fun r hr => ?_
    simp [touchOps, hk.added r hr]
  rw [recordOps, hdel, hupd, hadd, ResultChangeEvent.touches, List.flatMap_append, List.flatMap_append,
    List.append_assoc, List.append_assoc]

theorem filterMap_touchOps (key : Row → Hash) (us : List (Touch Row)) :
    (us.flatMap (touchOps key)).filterMap (StoreOp.write true) = touchWrites key us := by
  induction us with
  | nil => rfl
  | cons u us ih =>
    have hcons : touchWrites key (u :: us) = touchWrite key u ++ touchWrites key us := List.flatMap_cons
    rw [List.flatMap_cons, List.filterMap_append, ih, hcons]
    rcases u with ⟨_ | b, _ | a⟩ <;> rfl

end DrasiPlatform.View
