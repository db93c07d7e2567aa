/-
View refinement: does `record_change` carry the open documents from the rows of `S` to the rows of `S'`?

A result event describes a SIMULTANEOUS change (`Describes`): as multisets, `S'` is `S` less the deleted rows and the
`before`s, plus the `after`s and the added rows. `record_change` applies it as a sequence of writes, so what an earlier
update wrote can be taken away by a later one.

- `openRow_recordOps`: on the map from hashes to open rows, the operations of an event are `eventWrites`.
- `record_change_refines_iff`: the open documents after `record_change` are exactly the rows of `S'` if and only if
  closing takes effect and no update's `after` has the key of a LATER update's `before`; or closing takes no effect
  (a policy other than `Latest`, and a source time one past `MAX_TIMESTAMP`) and every removed row is overwritten by a new
  row with its key.
Witness: `chained_update_loses_row` (the rows 1, 2 become 2, 3; the view shows only 3).

The row key is injective on `S` and on `S'`; a view of an aggregation, whose rows are keyed by their grouping values, has
such a key as well.
-/
import Mathlib.Tactic
import DrasiPlatform.Core.Writes
import DrasiPlatform.View.MongoViewStore

namespace DrasiPlatform.View

variable {Row Hash : Type} [DecidableEq Hash]

/-! ## The operations as writes -/

/-- what an operation writes to the map from hashes to open rows -/
def StoreOp.write (closes : Bool) : StoreOp Row Hash → Option (Hash × Option Row)
  | .close hash => if closes then some (hash, none) else none
  | .upsert hash row => some (hash, some row)
  | .metadata _ => none

theorem openRow_exec (policy : RetentionPolicy) (ts : Int64) (op : StoreOp Row Hash) (c : Collection Row Hash)
    (hu : OpenUnique c.docs) :
    openRow (op.exec policy ts c).docs =
        Writes.apply (openRow c.docs) (op.write (decide (Closes policy ts))).toList ∧
      OpenUnique (op.exec policy ts c).docs := by
  cases op with
  | close hash =>
    by_cases hc : Closes policy ts
    · simpa [StoreOp.exec, StoreOp.write, hc, Writes.apply] using openRow_closeOne hc hash hu
    · simpa [StoreOp.exec, StoreOp.write, hc, Writes.apply, closeOne_of_not_closes hc] using hu
  | upsert hash row => simpa [StoreOp.exec, StoreOp.write, Writes.apply] using openRow_upsertOne ts hash row hu
  | metadata seq => exact ⟨rfl, hu⟩

/-- **A sequence of store operations** is a sequence of writes to the map from hashes to open rows. -/
theorem openRow_foldl_exec (policy : RetentionPolicy) (ts : Int64) (ops : List (StoreOp Row Hash))
    (c : Collection Row Hash) (hu : OpenUnique c.docs) :
    openRow (ops.foldl (StoreOp.exec policy ts) c).docs =
        Writes.apply (openRow c.docs) (ops.filterMap (StoreOp.write (decide (Closes policy ts)))) ∧
      OpenUnique (ops.foldl (StoreOp.exec policy ts) c).docs := by
  induction ops generalizing c with
  | nil => exact ⟨rfl, hu⟩
  | cons op ops ih =>
    obtain ⟨hrow, hu'⟩ := openRow_exec policy ts op c hu
    obtain ⟨ihrow, ihu⟩ := ih _ hu'
    refine ⟨?_, ihu⟩
    rw [List.foldl_cons, ihrow, hrow, List.filterMap_cons]
    cases op.write (decide (Closes policy ts)) <;> rfl

/-! ## Events -/

/-- the rows of the event are hashed to their keys -/
structure KeyedBy (H : Hashing Row Hash) (key : Row → Hash) (change : ResultChangeEvent Row) : Prop where
  deleted : ∀ r ∈ change.deletedResults, H.hashValues r = key r
  added : ∀ r ∈ change.addedResults, H.hashValues r = key r
  updated : ∀ u ∈ change.updatedResults, ∀ r, u.before = some r ∨ u.after = some r → updateKey H u r = key r

/-- the event describes the change from `S` to `S'`, with the before/after pairs of its updates -/
structure Describes [DecidableEq Row] (S S' : Finset Row) (change : ResultChangeEvent Row) (pairs : List (Row × Row)) :
    Prop where
  updates : change.updatedResults.map (fun u => (u.before, u.after)) = pairs.map fun p => (some p.1, some p.2)
  removed : ((change.deletedResults ++ pairs.map Prod.fst : List Row) : Multiset Row) ≤ S.val
  result : S'.val = S.val - ((change.deletedResults ++ pairs.map Prod.fst : List Row) : Multiset Row) +
    ((pairs.map Prod.snd ++ change.addedResults : List Row) : Multiset Row)

/-- the writes of one update -/
def pairWrites (key : Row → Hash) (p : Row × Row) : List (Hash × Option Row) := [(key p.1, none), (key p.2, some p.2)]

/-- the writes of an event when closing takes effect -/
def eventWrites (key : Row → Hash) (deleted : List Row) (pairs : List (Row × Row)) (added : List Row) :
    List (Hash × Option Row) :=
  deleted.map (fun r => (key r, none)) ++ (pairs.flatMap (pairWrites key) ++ added.map fun r => (key r, some r))

omit [DecidableEq Hash] in
theorem filterMap_updateOps {H : Hashing Row Hash} {key : Row → Hash} (closes : Bool) (us : List (UpdatePayload Row))
    (pairs : List (Row × Row)) (hus : us.map (fun u => (u.before, u.after)) = pairs.map fun p => (some p.1, some p.2))
    (hkey : ∀ u ∈ us, ∀ r, u.before = some r ∨ u.after = some r → updateKey H u r = key r) :
    (us.flatMap (updateOps H)).filterMap (StoreOp.write closes) =
      if closes then pairs.flatMap (pairWrites key) else pairs.map fun p => (key p.2, some p.2) := by
  induction us generalizing pairs with
  | nil => cases pairs <;> simp_all
  | cons u us ih =>
    cases pairs with
    | nil => simp at hus
    | cons p pairs =>
      simp only [List.map_cons, List.cons.injEq, Prod.mk.injEq] at hus
      obtain ⟨⟨hb, ha⟩, hus⟩ := hus
      have hkb := hkey u List.mem_cons_self p.1 (.inl hb)
      have hka := hkey u List.mem_cons_self p.2 (.inr ha)
      have ih := ih pairs hus fun u' hu' => hkey u' (List.mem_cons_of_mem u hu')
      cases closes <;> simp_all [updateOps, StoreOp.write, pairWrites]

omit [DecidableEq Hash] in
/-- what an event writes: with closing, its writes in order; without, only the upserts -/
theorem filterMap_recordOps {H : Hashing Row Hash} {key : Row → Hash} {change : ResultChangeEvent Row}
    {pairs : List (Row × Row)} (hk : KeyedBy H key change)
    (hus : change.updatedResults.map (fun u => (u.before, u.after)) = pairs.map fun p => (some p.1, some p.2))
    (closes : Bool) :
    (recordOps H change).filterMap (StoreOp.write closes) =
      if closes then eventWrites key change.deletedResults pairs change.addedResults
      else (pairs.map Prod.snd ++ change.addedResults).map fun r => (key r, some r) := by
  have hdel : (change.deletedResults.map fun r => (StoreOp.close (H.hashValues r) : StoreOp Row Hash)) =
      change.deletedResults.map fun r => .close (key r) := List.map_congr_left fun r hr => by rw [hk.deleted r hr]
  have hadd : (change.addedResults.map fun r => StoreOp.upsert (H.hashValues r) r) =
      change.addedResults.map fun r => .upsert (key r) r := List.map_congr_left fun r hr => by rw [hk.added r hr]
  have hupd := filterMap_updateOps closes change.updatedResults pairs hus hk.updated
  unfold recordOps
  rw [hdel, hadd, List.filterMap_append, List.filterMap_append, List.filterMap_append, hupd]
  cases closes <;> simp [StoreOp.write, eventWrites, Function.comp_def, List.filterMap_map]

/-! ## What is left after an event -/

/-- updates none of whose `after`s has the key: it is closed if a `before` has it -/
theorem last_pairs_of_no_after {key : Row → Hash} {hash : Hash} {pairs : List (Row × Row)}
    (h : ∀ p ∈ pairs, key p.2 ≠ hash) :
    Writes.last hash (pairs.flatMap (pairWrites key)) = if ∃ p ∈ pairs, key p.1 = hash then some none else none := by
  induction pairs with
  | nil => simp [Writes.last]
  | cons p pairs ih =>
    have ha : key p.2 ≠ hash := h p List.mem_cons_self
    rw [List.flatMap_cons, Writes.last_append, ih fun p' hp' => h p' (List.mem_cons_of_mem p hp')]
    by_cases hb : key p.1 = hash <;> by_cases hbs : ∃ p ∈ pairs, key p.1 = hash <;>
      simp [pairWrites, Writes.last, ha, hb, hbs]

/-- the update whose `after` has the key: its row stays unless the `before` of a later update has the key as well -/
theorem last_pairs_of_after {key : Row → Hash} {hash : Hash} {l1 l2 : List (Row × Row)} {p : Row × Row}
    (hp : key p.2 = hash) (h : ∀ q ∈ l2, key q.2 ≠ hash) :
    Writes.last hash ((l1 ++ p :: l2).flatMap (pairWrites key)) =
      if ∃ q ∈ l2, key q.1 = hash then some none else some (some p.2) := by
  rw [List.flatMap_append, List.flatMap_cons, Writes.last_append, Writes.last_append, last_pairs_of_no_after h]
  by_cases hbs : ∃ q ∈ l2, key q.1 = hash <;> simp [pairWrites, Writes.last, hp, hbs]

section Event

variable [DecidableEq Row] {key : Row → Hash} {S S' : Finset Row} {change : ResultChangeEvent Row}
  {pairs : List (Row × Row)}

namespace Describes

theorem removed_mem (h : Describes S S' change pairs) {r : Row} (hr : r ∈ change.deletedResults ++ pairs.map Prod.fst) :
    r ∈ S :=
  Multiset.mem_of_le h.removed hr

theorem mem_result (h : Describes S S' change pairs) (r : Row) :
    r ∈ S' ↔ (r ∈ S ∧ r ∉ change.deletedResults ++ pairs.map Prod.fst) ∨
      r ∈ pairs.map Prod.snd ++ change.addedResults := by
  rw [← Finset.mem_val, h.result, Multiset.mem_add, Multiset.mem_sub_of_nodup S.nodup]
  rfl

/-- the new rows are pairwise different, and none of them is a row that stays -/
theorem new_nodup (h : Describes S S' change pairs) :
    (pairs.map Prod.snd ++ change.addedResults).Nodup ∧
      ∀ r ∈ S, r ∉ change.deletedResults ++ pairs.map Prod.fst → r ∉ pairs.map Prod.snd ++ change.addedResults := by
  have hnodup := S'.nodup
  rw [h.result, Multiset.nodup_add] at hnodup
  refine ⟨Multiset.coe_nodup.1 hnodup.2.1, fun r hr hrem hnew => ?_⟩
  exact Multiset.disjoint_left.1 hnodup.2.2 ((Multiset.mem_sub_of_nodup S.nodup).2 ⟨hr, hrem⟩) hnew

/-- a removed row that is a row of `S'` is a new row -/
theorem new_of_removed (h : Describes S S' change pairs) {r : Row}
    (hr : r ∈ change.deletedResults ++ pairs.map Prod.fst) (hS' : r ∈ S') :
    r ∈ pairs.map Prod.snd ++ change.addedResults := by
  rcases (h.mem_result r).1 hS' with ⟨-, hn⟩ | hnew
  · exact absurd hr hn
  · exact hnew

omit [DecidableEq Hash] in
/-- a key that no removed and no new row has: its row stays -/
theorem mem_iff_of_untouched (h : Describes S S' change pairs) {hash : Hash}
    (hrem : ∀ r ∈ change.deletedResults ++ pairs.map Prod.fst, key r ≠ hash)
    (hnew : ∀ r ∈ pairs.map Prod.snd ++ change.addedResults, key r ≠ hash) (row : Row) :
    row ∈ S ∧ key row = hash ↔ row ∈ S' ∧ key row = hash := by
  rw [h.mem_result]
  constructor
  · rintro ⟨hS, hk⟩; exact ⟨.inl ⟨hS, fun hr => hrem row hr hk⟩, hk⟩
  · rintro ⟨⟨hS, -⟩ | hn, hk⟩
    · exact ⟨hS, hk⟩
    · exact absurd hk (hnew row hn)

end Describes

/-- no update's `after` has the key of a later update's `before` -/
def Unchained (key : Row → Hash) (pairs : List (Row × Row)) : Prop := pairs.Pairwise fun p q => key p.2 ≠ key q.1

/-- every removed row is overwritten by a new row with its key -/
def Overwritten (key : Row → Hash) (change : ResultChangeEvent Row) (pairs : List (Row × Row)) : Prop :=
  ∀ r ∈ change.deletedResults ++ pairs.map Prod.fst, ∃ r' ∈ pairs.map Prod.snd ++ change.addedResults, key r' = key r

/-- the writes leave exactly the rows of `S'` -/
def LeavesRows (key : Row → Hash) (f : Hash → Option Row) (ws : List (Hash × Option Row)) (S' : Finset Row) : Prop :=
  ∀ hash row, Writes.apply f ws hash = some row ↔ row ∈ S' ∧ key row = hash

variable {f : Hash → Option Row}

/-- a row that is left under its key is, with an injective key, the only one -/
theorem leaves_of_new (h : Describes S S' change pairs) (hinj : Set.InjOn key S') {r : Row}
    (hr : r ∈ pairs.map Prod.snd ++ change.addedResults) {ws : List (Hash × Option Row)}
    (hlast : Writes.last (key r) ws = some (some r)) (row : Row) :
    Writes.apply f ws (key r) = some row ↔ row ∈ S' ∧ key row = key r := by
  have hS' : r ∈ S' := (h.mem_result r).2 (.inr hr)
  rw [Writes.apply_eq, hlast, Option.getD_some, Option.some.injEq]
  constructor
  · rintro rfl; exact ⟨hS', rfl⟩
  · rintro ⟨hrow, hk⟩; exact (hinj hrow hS' hk).symm

omit [DecidableEq Hash] in
/-- new rows have different keys -/
theorem new_key_unique (h : Describes S S' change pairs) (hinj : Set.InjOn key S') {r r' : Row}
    (hr : r ∈ pairs.map Prod.snd ++ change.addedResults) (hr' : r' ∈ pairs.map Prod.snd ++ change.addedResults)
    (hk : key r' = key r) : r' = r :=
  hinj ((h.mem_result r').2 (.inr hr')) ((h.mem_result r).2 (.inr hr)) hk

/-- **Without closing** the writes leave the rows of `S'` iff every removed row is overwritten. -/
theorem leavesRows_upserts_iff (h : Describes S S' change pairs) (hinj : Set.InjOn key S')
    (hf : ∀ hash row, f hash = some row ↔ row ∈ S ∧ key row = hash) :
    LeavesRows key f ((pairs.map Prod.snd ++ change.addedResults).map fun r => (key r, some r)) S' ↔
      Overwritten key change pairs := by
  constructor
  · intro hl r hr
    by_contra hno
    push Not at hno
    have hS := h.removed_mem hr
    have hstays : Writes.apply f ((pairs.map Prod.snd ++ change.addedResults).map fun r => (key r, some r)) (key r) =
        some r := by
      rw [Writes.apply_eq, Writes.last_map_of_notMem hno, Option.getD_none]
      exact (hf _ _).2 ⟨hS, rfl⟩
    exact hno r (h.new_of_removed hr ((hl _ _).1 hstays).1) rfl
  · intro hov hash row
    by_cases hnew : ∃ r ∈ pairs.map Prod.snd ++ change.addedResults, key r = hash
    · obtain ⟨r, hr, rfl⟩ := hnew
      exact leaves_of_new h hinj hr (Writes.last_map_of_mem hr rfl fun r' hr' hk => new_key_unique h hinj hr hr' hk) row
    · push Not at hnew
      rw [Writes.apply_eq, Writes.last_map_of_notMem hnew, Option.getD_none, hf]
      refine h.mem_iff_of_untouched (fun r hr hk => ?_) hnew row
      obtain ⟨r', hr', hk'⟩ := hov r hr
      exact hnew r' hr' (hk'.trans hk)

/-- an update in the list, seen from its place in it -/
theorem pairwise_of_splits {α : Type} {R : α → α → Prop} {l : List α}
    (h : ∀ l1 a l2, l = l1 ++ a :: l2 → ∀ b ∈ l2, R a b) : l.Pairwise R := by
  induction l with
  | nil => exact List.Pairwise.nil
  | cons a l ih =>
    refine List.pairwise_cons.2 ⟨h [] a l rfl, ih fun l1 b l2 hl => h (a :: l1) b l2 ?_⟩
    rw [hl, List.cons_append]

/-- the last write to the key of an `after`: none of the added rows and of the other `after`s has that key -/
theorem last_eventWrites_after (h : Describes S S' change pairs) (hinj : Set.InjOn key S') {l1 l2 : List (Row × Row)}
    {p : Row × Row} (hp : pairs = l1 ++ p :: l2) :
    Writes.last (key p.2) (eventWrites key change.deletedResults pairs change.addedResults) =
      if ∃ q ∈ l2, key q.1 = key p.2 then some none else some (some p.2) := by
  have hnodup := h.new_nodup.1
  have hmem : p.2 ∈ pairs.map Prod.snd ++ change.addedResults := by simp [hp]
  have hsplit : pairs.map Prod.snd ++ change.addedResults =
      l1.map Prod.snd ++ p.2 :: (l2.map Prod.snd ++ change.addedResults) := by simp [hp]
  have hrest : ∀ r ∈ l2.map Prod.snd ++ change.addedResults, key r ≠ key p.2 := by
    intro r hr hk
    have hr' : r ∈ pairs.map Prod.snd ++ change.addedResults := by
      rw [hsplit]
      exact List.mem_append_right _ (List.mem_cons_of_mem _ hr)
    have hrp : r = p.2 := new_key_unique h hinj hmem hr' hk
    rw [hsplit, List.nodup_append] at hnodup
    exact (List.nodup_cons.1 hnodup.2.1).1 (hrp ▸ hr)
  have hadded : Writes.last (key p.2) (change.addedResults.map fun r => (key r, some r)) = none :=
    Writes.last_map_of_notMem fun r hr => hrest r (List.mem_append_right _ hr)
  have hafter : ∀ q ∈ l2, key q.2 ≠ key p.2 := fun q hq =>
    hrest q.2 (List.mem_append_left _ (List.mem_map_of_mem hq))
  rw [eventWrites, Writes.last_append, Writes.last_append, hadded, Option.none_or, hp, last_pairs_of_after rfl hafter]
  by_cases hbs : ∃ q ∈ l2, key q.1 = key p.2 <;> simp [hbs]

omit [DecidableEq Row] in
/-- the last write to a key no new row has -/
theorem last_eventWrites_of_no_new {hash : Hash} (hnew : ∀ r ∈ pairs.map Prod.snd ++ change.addedResults, key r ≠ hash) :
    Writes.last hash (eventWrites key change.deletedResults pairs change.addedResults) =
      if ∃ r ∈ change.deletedResults ++ pairs.map Prod.fst, key r = hash then some none else none := by
  have hadded : Writes.last hash (change.addedResults.map fun r => (key r, some r)) = none :=
    Writes.last_map_of_notMem fun r hr => hnew r (List.mem_append_right _ hr)
  have hafter : ∀ p ∈ pairs, key p.2 ≠ hash := fun p hp => hnew p.2 (List.mem_append_left _ (List.mem_map_of_mem hp))
  rw [eventWrites, Writes.last_append, Writes.last_append, hadded, Option.none_or, last_pairs_of_no_after hafter,
    Writes.last_const]
  by_cases hd : ∃ r ∈ change.deletedResults, key r = hash
  · have hrem : ∃ r ∈ change.deletedResults ++ pairs.map Prod.fst, key r = hash := by
      obtain ⟨r, hr, hk⟩ := hd; exact ⟨r, List.mem_append_left _ hr, hk⟩
    rw [if_pos hd, if_pos hrem]
    split_ifs <;> rfl
  · have hiff : (∃ r ∈ change.deletedResults ++ pairs.map Prod.fst, key r = hash) ↔ ∃ p ∈ pairs, key p.1 = hash := by
      constructor
      · rintro ⟨r, hr, hk⟩
        rcases List.mem_append.1 hr with hr | hr
        · exact absurd ⟨r, hr, hk⟩ hd
        · obtain ⟨p, hp, rfl⟩ := List.mem_map.1 hr; exact ⟨p, hp, hk⟩
      · rintro ⟨p, hp, hk⟩; exact ⟨p.1, List.mem_append_right _ (List.mem_map_of_mem hp), hk⟩
    rw [if_neg hd, Option.or_none]
    simp only [hiff]

/-- **With closing** the writes leave the rows of `S'` iff the updates are not chained in their order. -/
theorem leavesRows_eventWrites_iff (h : Describes S S' change pairs) (hinjS : Set.InjOn key S) (hinj : Set.InjOn key S')
    (hf : ∀ hash row, f hash = some row ↔ row ∈ S ∧ key row = hash) :
    LeavesRows key f (eventWrites key change.deletedResults pairs change.addedResults) S' ↔ Unchained key pairs := by
  constructor
  · intro hl
    refine pairwise_of_splits fun l1 p l2 hp q hq hk => ?_
    -- the later update closes the row that the earlier one has written
    have hlast := last_eventWrites_after h hinj hp
    rw [if_pos ⟨q, hq, hk.symm⟩] at hlast
    have hS' : p.2 ∈ S' := (h.mem_result p.2).2 (.inr (by simp [hp]))
    have hrow := (hl (key p.2) p.2).2 ⟨hS', rfl⟩
    rw [Writes.apply_eq, hlast] at hrow
    cases hrow
  · intro hun hash row
    by_cases hnew : ∃ r ∈ pairs.map Prod.snd ++ change.addedResults, key r = hash
    · obtain ⟨r, hr, rfl⟩ := hnew
      refine leaves_of_new h hinj hr ?_ row
      rcases List.mem_append.1 hr with hr' | hr'
      · obtain ⟨p, hp, rfl⟩ := List.mem_map.1 hr'
        obtain ⟨l1, l2, hpairs⟩ := List.append_of_mem hp
        rw [last_eventWrites_after h hinj hpairs, if_neg]
        rintro ⟨q, hq, hk⟩
        rw [Unchained, hpairs, List.pairwise_append] at hun
        exact (List.pairwise_cons.1 hun.2.1).1 q hq hk.symm
      · rw [eventWrites, Writes.last_append, Writes.last_append, Writes.last_map_of_mem hr' rfl fun r' hr'' hk =>
          new_key_unique h hinj hr (List.mem_append_right _ hr'') hk]
        rfl
    · push Not at hnew
      rw [Writes.apply_eq, last_eventWrites_of_no_new hnew]
      split_ifs with hrem
      · -- a removed row had the key: it is closed, and no row of `S'` has the key
        obtain ⟨r, hr, hk⟩ := hrem
        simp only [Option.getD_some, reduceCtorEq, false_iff, not_and]
        intro hS' hrow
        rcases (h.mem_result row).1 hS' with ⟨hS, hn⟩ | hn
        · exact hn (hinjS (h.removed_mem hr) hS (hk.trans hrow.symm) ▸ hr)
        · exact hnew row hn hrow
      · push Not at hrem
        rw [Option.getD_none, hf]
        exact h.mem_iff_of_untouched hrem hnew row

/-! ## Refinement -/

/-- **View refinement.** For every retention policy, every store whose open documents for the query are the rows of `S`
and every event that describes the change from `S` to `S'`, the open documents after `record_change` are exactly the rows
of `S'` if and only if closing takes effect and no update's `after` has the key of a later update's `before`, or closing
takes no effect and every removed row is overwritten by a new row with its key. -/
theorem record_change_refines_iff (H : Hashing Row Hash) (key : Row → Hash) (st : MongoViewStore Row Hash)
    (queryId : String) (policy : RetentionPolicy) (S S' : Finset Row) (change : ResultChangeEvent Row)
    (pairs : List (Row × Row)) (hinjS : Set.InjOn key S) (hinj : Set.InjOn key S')
    (hpolicy : st.retentionPolicy queryId = some policy) (hk : KeyedBy H key change)
    (hshows : Shows key (st.collection queryId).docs S) (h : Describes S S' change pairs) :
    Shows key ((recordChange H st queryId change).2.collection queryId).docs S' ↔
      if Closes policy change.sourceTimeMs.toInt64 then Unchained key pairs else Overwritten key change pairs := by
  obtain ⟨hu, hf⟩ := (shows_iff hinjS).1 hshows
  obtain ⟨hrow, hu'⟩ := openRow_foldl_exec policy change.sourceTimeMs.toInt64 (recordOps H change) _ hu
  have hdocs : (recordChange H st queryId change).2.collection queryId =
      (recordOps H change).foldl (StoreOp.exec policy change.sourceTimeMs.toInt64) (st.collection queryId) := by
    simp [recordChange, hpolicy]
  rw [hdocs, shows_iff hinj, and_iff_right hu', hrow, filterMap_recordOps hk h.updates]
  by_cases hc : Closes policy change.sourceTimeMs.toInt64
  · simp only [hc, decide_true, if_true]
    exact leavesRows_eventWrites_iff h hinjS hinj hf
  · simp only [hc, decide_false, if_false]
    exact leavesRows_upserts_iff h hinj hf

end Event

/-! ## Rows that are numbers, hashed to themselves -/

def numberHashing : Hashing ℕ ℕ := ⟨id, fun row _ => row⟩

def openDocument (row : ℕ) : ViewDocument ℕ ℕ := ⟨row, row, 0, maxTimestamp⟩

/-- a view of the query `q`, which shows 1 and 2 -/
def numberView (policy : RetentionPolicy) : MongoViewStore ℕ ℕ where
  retentionPolicy queryId := if queryId = "q" then some policy else none
  collection queryId := if queryId = "q" then ⟨[openDocument 1, openDocument 2], none⟩ else ⟨[], none⟩

/-- the updates, in their order -/
def numberEvent (pairs : List (ℕ × ℕ)) : ResultChangeEvent ℕ where
  sequence := 7
  sourceTimeMs := 1000
  addedResults := []
  updatedResults := pairs.map fun p => ⟨some p.1, some p.2, none⟩
  deletedResults := []

theorem numberEvent_keyed (pairs : List (ℕ × ℕ)) : KeyedBy numberHashing id (numberEvent pairs) where
  deleted _ _ := rfl
  added _ _ := rfl
  updated u hu r _ := by
    obtain ⟨p, -, rfl⟩ := List.mem_map.1 hu
    rfl

/-- the same two updates with the chained one first: the view follows -/
theorem record_change_refines_unchained :
    Shows id ((recordChange numberHashing (numberView .all) "q" (numberEvent [(2, 3), (1, 2)])).2.collection "q").docs
      {2, 3} :=
  (record_change_refines_iff numberHashing id (numberView .all) "q" .all {1, 2} {2, 3} (numberEvent [(2, 3), (1, 2)])
    [(2, 3), (1, 2)] (Set.injOn_id _) (Set.injOn_id _) rfl (numberEvent_keyed _) ⟨by decide, by decide⟩
    ⟨by decide, by decide, by decide⟩).2 (by rw [if_pos (by decide)]; unfold Unchained; decide)

/-- 1 becomes 2 and 2 becomes 3: the second update closes the row the first one has written, and the view shows only 3 -/
theorem chained_update_loses_row :
    KeyedBy numberHashing id (numberEvent [(1, 2), (2, 3)]) ∧
      Shows id ((numberView .latest).collection "q").docs {1, 2} ∧
      Describes {1, 2} {2, 3} (numberEvent [(1, 2), (2, 3)]) [(1, 2), (2, 3)] ∧
      ¬ Shows id
        ((recordChange numberHashing (numberView .latest) "q" (numberEvent [(1, 2), (2, 3)])).2.collection "q").docs
        {2, 3} ∧
      (openDocuments
          ((recordChange numberHashing (numberView .latest) "q" (numberEvent [(1, 2), (2, 3)])).2.collection "q").docs).map
        (·.result) = [3] := by
  refine ⟨numberEvent_keyed _, ⟨by decide, by decide⟩, ⟨by decide, by decide, by decide⟩, fun h => ?_, by decide⟩
  exact absurd h.rows (by decide)

end DrasiPlatform.View
