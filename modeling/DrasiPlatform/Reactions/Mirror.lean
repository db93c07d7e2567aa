/-
The sync-statestore reaction as a mirror of the result set of a query.

A result set is a list of rows with pairwise different, non-empty texts in the key field; an event describes the step from
one to the next. Events are delivered in order: a delivery that fails is repeated before the next event.

- `handled_mirrors_iff`: a handled event takes a mirrored result set to a mirrored one exactly when the event is `Safe`.
- `mirrored_iff_safe`: along every run, the store mirrors the result set after each successfully handled event exactly when
  each of these events is safe.
Witnesses: `renamed_row_stays` (an update that changes the key leaves the row under the old key) and `replaced_row_is_lost`
(a row deleted and one added under the same key in one event: the store has neither).
-/
import Mathlib.Tactic
import DrasiPlatform.Core.Run
import DrasiPlatform.Reactions.ChangeEventHandler

namespace DrasiPlatform.SyncStateStore

open Run

variable {Obj : Type} [ToString Obj]

/-! ## Result sets -/

/-- the text of the key field, where the row has one -/
def keyText (field : String) (row : Row Obj) : String :=
  match keyOf field row with
  | .ok key => key
  | .error _ => ""

/-- a configuration that the validation accepts -/
structure ValidConfig where
  keyField : String
  stateStoreName : String
  keyField_ne : keyField ≠ ""

def ValidConfig.toQueryConfig (c : ValidConfig) : QueryConfig := ⟨some c.keyField, some c.stateStoreName⟩

structure ResultSet (Obj : Type) [ToString Obj] (field : String) where
  rows : List (Row Obj)
  keyed : ∀ r ∈ rows, keyOf field r = .ok (keyText field r) ∧ keyText field r ≠ ""
  nodup : (rows.map (keyText field)).Nodup

/-- the parts of two successive result sets -/
structure Difference (Obj : Type) where
  kept : List (Row Obj)
  added : List (Row Obj)
  updated : List (Row Obj × Row Obj)
  deleted : List (Row Obj)

/-- the event names the parts, and the parts make up the two result sets -/
structure Difference.Describes {field : String} (d : Difference Obj) (evt : ChangeEvent Obj) (S S' : ResultSet Obj field) :
    Prop where
  added : evt.addedResults.getD [] = d.added.map some
  updated : evt.updatedResults.getD [] = d.updated.map fun u => ⟨some u.1, some u.2⟩
  deleted : evt.deletedResults.getD [] = d.deleted.map some
  from_rows : S.rows.Perm (d.kept ++ d.deleted ++ d.updated.map Prod.fst)
  to_rows : S'.rows.Perm (d.kept ++ d.added ++ d.updated.map Prod.snd)

def Describes {field : String} (evt : ChangeEvent Obj) (S S' : ResultSet Obj field) : Prop :=
  ∃ d : Difference Obj, d.Describes evt S S'

/-- the entries of the query are exactly the rows, each under its key -/
structure Mirrors {field : String} (queryId : String) (store : Store Obj) (S : ResultSet Obj field) : Prop where
  holds : ∀ r ∈ S.rows, store (keyText field r) = some (.row r)
  only : ∀ k, k ≠ getSyncPointKeyForQuery queryId → store k ≠ none → ∃ r ∈ S.rows, keyText field r = k

/-- no row comes to stand under the key of a deleted row, none is left behind under the key it had before an update, and
none stands under the key of the sync point -/
structure Safe {field : String} (evt : ChangeEvent Obj) (S' : ResultSet Obj field) : Prop where
  deleted : ∀ x ∈ (evt.deletedResults.getD []).reduceOption, ∀ r ∈ S'.rows, keyText field r ≠ keyText field x
  updated : ∀ u ∈ evt.updatedResults.getD [], ∀ x ∈ u.before, ∃ r ∈ S'.rows, keyText field r = keyText field x
  syncPoint : ∀ r ∈ S'.rows, keyText field r ≠ getSyncPointKeyForQuery evt.queryId

/-! ## The batch of an event between result sets -/

omit [ToString Obj] in
theorem eachRow_ok {α : Type} {field : String} (hfield : field ≠ "")
    {f : String → Row Obj → Except HandlerError (List α)} {p : Row Obj → Bool} {g : Row Obj → α} {rows : List (Row Obj)}
    (h : ∀ r ∈ rows, f field r = .ok (if p r then [g r] else [])) :
    eachRow (some field) f (rows.map some) = .ok ((rows.filter p).map g) := by
  induction rows with
  | nil => rfl
  | cons r rows ih =>
    have hrow : ofRow (some field) f (some r) = .ok (if p r then [g r] else []) := by
      have hkey : (some field).filter (· ≠ "") = some field := Option.filter_eq_some_iff.2 ⟨rfl, decide_eq_true hfield⟩
      unfold ofRow
      rw [hkey]
      exact h r List.mem_cons_self
    rw [List.map_cons, eachRow, hrow, ih fun r' hr' => h r' (List.mem_cons_of_mem r hr')]
    cases hp : p r <;> simp [hp, bind, Except.bind, pure, Except.pure]

/-- the batch of an event with these parts -/
def Difference.batch (d : Difference Obj) (field queryId : String) : Batch Obj where
  items := ((d.added ++ d.updated.map Prod.snd).filter fun r => keyText field r ≠ getSyncPointKeyForQuery queryId).map
    fun r => (keyText field r, r)
  keys := d.deleted.map (keyText field)

theorem prepare_eq {field : String} (hfield : field ≠ "") {evt : ChangeEvent Obj} {S S' : ResultSet Obj field}
    {d : Difference Obj} (hd : d.Describes evt S S') :
    prepare (some field) evt = .ok (d.batch field evt.queryId) := by
  have hupserts : allUpserts evt = (d.added ++ d.updated.map Prod.snd).map some := by
    rw [allUpserts, hd.added, hd.updated, List.map_append, List.map_map, List.map_map]
    rfl
  have hitems : itemsToSave (some field) evt = .ok (d.batch field evt.queryId).items := by
    rw [itemsToSave, hupserts]
    refine eachRow_ok hfield fun r hr => ?_
    have hS' : r ∈ S'.rows := hd.to_rows.mem_iff.2 (by simp only [List.mem_append] at hr ⊢; tauto)
    rw [(S'.keyed r hS').1]
    by_cases hkey : keyText field r = getSyncPointKeyForQuery evt.queryId <;> simp [hkey, bind, Except.bind, pure, Except.pure]
  have hkeys : keysToDelete (some field) evt = .ok ((d.deleted.filter fun _ => true).map (keyText field)) := by
    rw [keysToDelete, hd.deleted]
    refine eachRow_ok hfield fun r hr => ?_
    have hS : r ∈ S.rows := hd.from_rows.mem_iff.2 (by simp only [List.mem_append]; tauto)
    rw [(S.keyed r hS).1]
    rfl
  rw [prepare, hitems, hkeys, List.filter_true]
  rfl

/-! ## What the store holds after an event -/

section Written

variable {field queryId : String} {d : Difference Obj} {store : Store Obj} {k : String}

theorem written_of_deleted {x : Row Obj} (hx : x ∈ d.deleted) (hk : keyText field x = k) :
    Writes.apply store (d.batch field queryId).writes k = none := by
  have hkeys : ∃ k' ∈ (d.batch field queryId).keys, k' = k := ⟨k, hk ▸ List.mem_map_of_mem hx, rfl⟩
  have hlast := Writes.last_const k (none : Option (Entry Obj)) id (d.batch field queryId).keys
  rw [Writes.apply_eq, Batch.writes, Writes.last_append]
  simp only [id] at hlast
  rw [hlast, if_pos hkeys]
  rfl

theorem written_of_not_deleted (hx : ∀ x ∈ d.deleted, keyText field x ≠ k) :
    Writes.apply store (d.batch field queryId).writes k =
      (Writes.last k ((d.batch field queryId).items.map fun i => (i.1, some (.row i.2)))).getD (store k) := by
  have hlast : Writes.last k ((d.batch field queryId).keys.map fun k => (k, (none : Option (Entry Obj)))) = none := by
    refine Writes.last_map_of_notMem fun k' hk' => ?_
    obtain ⟨x, hmem, rfl⟩ := List.mem_map.1 hk'
    exact hx x hmem
  rw [Writes.apply_eq, Batch.writes, Writes.last_append, hlast, Option.none_or]

theorem written_of_upsert (hk : k ≠ getSyncPointKeyForQuery queryId) (hx : ∀ x ∈ d.deleted, keyText field x ≠ k)
    {r : Row Obj} (hr : r ∈ d.added ++ d.updated.map Prod.snd) (hkey : keyText field r = k)
    (huniq : ∀ r' ∈ d.added ++ d.updated.map Prod.snd, keyText field r' = k → r' = r) :
    Writes.apply store (d.batch field queryId).writes k = some (.row r) := by
  have hitem : (keyText field r, r) ∈ (d.batch field queryId).items :=
    List.mem_map_of_mem (List.mem_filter.2 ⟨hr, decide_eq_true (hkey ▸ hk)⟩)
  rw [written_of_not_deleted hx, Writes.last_map_of_mem (i := (keyText field r, r)) hitem hkey]
  · rfl
  · rintro i hi hik
    obtain ⟨r', hr', rfl⟩ := List.mem_map.1 hi
    rw [huniq r' (List.mem_filter.1 hr').1 hik]

theorem written_of_untouched (hx : ∀ x ∈ d.deleted, keyText field x ≠ k)
    (hr : ∀ r ∈ d.added ++ d.updated.map Prod.snd, keyText field r ≠ k) :
    Writes.apply store (d.batch field queryId).writes k = store k := by
  rw [written_of_not_deleted hx, Writes.last_map_of_notMem]
  · rfl
  · rintro i hi
    obtain ⟨r, hmem, rfl⟩ := List.mem_map.1 hi
    exact hr r (List.mem_filter.1 hmem).1

end Written

/-! ## One event -/

section Event

variable {field : String} {s : State Obj} {evt : ChangeEvent Obj} {S S' : ResultSet Obj field} {d : Difference Obj} {n : Int}

theorem ResultSet.eq_of_key {r r' : Row Obj} (hr : r ∈ S.rows) (hr' : r' ∈ S.rows)
    (hkey : keyText field r = keyText field r') : r = r' :=
  List.inj_on_of_nodup_map S.nodup hr hr' hkey

namespace Difference.Describes

variable (hd : d.Describes evt S S')

include hd

theorem mem_from {r : Row Obj} : r ∈ S.rows ↔ r ∈ d.kept ∨ r ∈ d.deleted ∨ r ∈ d.updated.map Prod.fst := by
  rw [hd.from_rows.mem_iff, List.mem_append, List.mem_append, or_assoc]

theorem mem_to {r : Row Obj} : r ∈ S'.rows ↔ r ∈ d.kept ∨ r ∈ d.added ++ d.updated.map Prod.snd := by
  rw [hd.to_rows.mem_iff, List.append_assoc, List.mem_append]

/-- a deleted row and an updated one had different keys -/
theorem key_deleted_ne_before {x y : Row Obj} (hx : x ∈ d.deleted) (hy : y ∈ d.updated.map Prod.fst) :
    keyText field x ≠ keyText field y := by
  have hnodup : ((d.kept ++ d.deleted ++ d.updated.map Prod.fst).map (keyText field)).Nodup :=
    (hd.from_rows.map _).nodup_iff.1 S.nodup
  rw [List.map_append, List.nodup_append] at hnodup
  exact hnodup.2.2 _ (List.mem_map_of_mem (List.mem_append_right _ hx)) _ (List.mem_map_of_mem hy)

theorem safe_iff : Safe evt S' ↔ (∀ x ∈ d.deleted, ∀ r ∈ S'.rows, keyText field r ≠ keyText field x) ∧
    (∀ x ∈ d.updated.map Prod.fst, ∃ r ∈ S'.rows, keyText field r = keyText field x) ∧
    ∀ r ∈ S'.rows, keyText field r ≠ getSyncPointKeyForQuery evt.queryId := by
  have hdeleted : (evt.deletedResults.getD []).reduceOption = d.deleted := by
    rw [hd.deleted]
    change (d.deleted.map some).filterMap id = d.deleted
    rw [List.filterMap_map, Function.id_comp, List.filterMap_some]
  constructor
  · rintro ⟨hx, hu, hsync⟩
    rw [hdeleted] at hx
    refine ⟨hx, fun x hxu => ?_, hsync⟩
    obtain ⟨u, hu', rfl⟩ := List.mem_map.1 hxu
    refine hu ⟨some u.1, some u.2⟩ ?_ u.1 rfl
    rw [hd.updated]
    exact List.mem_map_of_mem hu'
  · rintro ⟨hx, hu, hsync⟩
    refine ⟨by rw [hdeleted]; exact hx, fun u hu' x hxu => ?_, hsync⟩
    rw [hd.updated] at hu'
    obtain ⟨v, hv, rfl⟩ := List.mem_map.1 hu'
    obtain rfl : v.1 = x := Option.some.inj hxu
    exact hu v.1 (List.mem_map_of_mem hv)

end Difference.Describes

/-- an unsafe event leaves a row where there is none, or none where there is one -/
theorem safe_of_mirrors (hd : d.Describes evt S S') (hm : Mirrors evt.queryId s.store S)
    (hsync : s.store (getSyncPointKeyForQuery evt.queryId) = some (.syncPoint n))
    (hm' : Mirrors evt.queryId (handled s evt (d.batch field evt.queryId)).store S') : Safe evt S' := by
  have hsyncKey : ∀ r ∈ S'.rows, keyText field r ≠ getSyncPointKeyForQuery evt.queryId := by
    intro r hr hk
    have hrow := hm'.holds r hr
    rw [hk, handled_store_syncPoint] at hrow
    cases hrow
  have hdeleted : ∀ x ∈ d.deleted, ∀ r ∈ S'.rows, keyText field r ≠ keyText field x := by
    intro x hx r hr hk
    have hrow := hm'.holds r hr
    rw [handled_store_of_ne (hsyncKey r hr), written_of_deleted hx hk.symm] at hrow
    cases hrow
  refine hd.safe_iff.2 ⟨hdeleted, fun x hx => ?_, hsyncKey⟩
  have hrow : s.store (keyText field x) = some (.row x) := hm.holds x (hd.mem_from.2 (.inr (.inr hx)))
  have hk : keyText field x ≠ getSyncPointKeyForQuery evt.queryId := by
    intro hk
    rw [hk, hsync] at hrow
    cases hrow
  by_contra hnone
  refine hnone (hm'.only _ hk ?_)
  rw [handled_store_of_ne hk, written_of_untouched, hrow]
  · exact Option.some_ne_none _
  · exact fun y hy => hd.key_deleted_ne_before hy hx
  · exact fun r hr hkey => hnone ⟨r, hd.mem_to.2 (.inr hr), hkey⟩

theorem mirrors_of_safe (hd : d.Describes evt S S') (hm : Mirrors evt.queryId s.store S) (hsafe : Safe evt S') :
    Mirrors evt.queryId (handled s evt (d.batch field evt.queryId)).store S' := by
  obtain ⟨hdeleted, hupdated, hsyncKey⟩ := hd.safe_iff.1 hsafe
  constructor
  · intro r hr
    have hx : ∀ x ∈ d.deleted, keyText field x ≠ keyText field r := fun x hx hk => hdeleted x hx r hr hk.symm
    rw [handled_store_of_ne (hsyncKey r hr)]
    by_cases hupsert : ∃ r' ∈ d.added ++ d.updated.map Prod.snd, keyText field r' = keyText field r
    · obtain ⟨r', hr', hk⟩ := hupsert
      obtain rfl : r' = r := ResultSet.eq_of_key (hd.mem_to.2 (.inr hr')) hr hk
      refine written_of_upsert (hsyncKey r' hr) hx hr' rfl fun r'' hr'' hk' => ?_
      exact ResultSet.eq_of_key (hd.mem_to.2 (.inr hr'')) hr hk'
    · have hkept : r ∈ d.kept := (hd.mem_to.1 hr).resolve_right fun h => hupsert ⟨r, h, rfl⟩
      rw [written_of_untouched hx fun r' hr' hk => hupsert ⟨r', hr', hk⟩]
      exact hm.holds r (hd.mem_from.2 (.inl hkept))
  · intro k hk hne
    rw [handled_store_of_ne hk] at hne
    have hx : ∀ x ∈ d.deleted, keyText field x ≠ k := fun x hx hkey => hne (written_of_deleted hx hkey)
    by_cases hupsert : ∃ r' ∈ d.added ++ d.updated.map Prod.snd, keyText field r' = k
    · obtain ⟨r', hr', hkey⟩ := hupsert
      exact ⟨r', hd.mem_to.2 (.inr hr'), hkey⟩
    · rw [written_of_untouched hx fun r' hr' hkey => hupsert ⟨r', hr', hkey⟩] at hne
      obtain ⟨r, hr, hkey⟩ := hm.only k hk hne
      rcases hd.mem_from.1 hr with hkept | hgone | hbefore
      · exact ⟨r, hd.mem_to.2 (.inl hkept), hkey⟩
      · exact absurd hkey (hx r hgone)
      · obtain ⟨r', hr', hkey'⟩ := hupdated r hbefore
        exact ⟨r', hr', hkey'.trans hkey⟩

/-- **One event.** The store mirrors the new result set exactly when the event is safe. -/
theorem handled_mirrors_iff (hd : d.Describes evt S S') (hm : Mirrors evt.queryId s.store S)
    (hsync : s.store (getSyncPointKeyForQuery evt.queryId) = some (.syncPoint n)) :
    Mirrors evt.queryId (handled s evt (d.batch field evt.queryId)).store S' ↔ Safe evt S' :=
  ⟨safe_of_mirrors hd hm hsync, mirrors_of_safe hd hm⟩

end Event

/-! ## Deliveries in order -/

/-- the reaction at work: the result set after the last handled event, and the events to come, each with the result set
after it -/
structure Consumer (Obj : Type) [ToString Obj] (field : String) where
  state : State Obj
  results : ResultSet Obj field
  pending : List (ChangeEvent Obj × ResultSet Obj field)

section Deliveries

variable (config : ValidConfig) (queryId : String)

/-- the next event is delivered; it is delivered again when its handling throws -/
def deliver (c : Consumer Obj config.keyField) (o : Outcome) : Consumer Obj config.keyField :=
  match c.pending with
  | [] => c
  | p :: pending =>
    match handleChange (some config.toQueryConfig) c.state p.1 o with
    | (s, .ok ()) => ⟨s, p.2, pending⟩
    | (s, .error _) => { c with state := s }

/-- the delivery succeeds, of the event `p` -/
def Succeeds (c : Consumer Obj config.keyField) (o : Outcome) (p : ChangeEvent Obj × ResultSet Obj config.keyField) : Prop :=
  c.pending.head? = some p ∧ (handleChange (some config.toQueryConfig) c.state p.1 o).2 = .ok ()

def MirroredAfter (c : Consumer Obj config.keyField) (o : Outcome) : Prop :=
  ∀ p, Succeeds config c o p → Mirrors queryId (deliver config c o).state.store (deliver config c o).results

def SafeWhenHandled (c : Consumer Obj config.keyField) (o : Outcome) : Prop := ∀ p, Succeeds config c o p → Safe p.1 p.2

/-- the events of the query, in sequence order from the sync point `n` on, from the result set `S` on -/
def InOrder {field : String} (queryId : String) : Int → ResultSet Obj field →
    List (ChangeEvent Obj × ResultSet Obj field) → Prop
  | _, _, [] => True
  | n, S, p :: pending =>
    p.1.queryId = queryId ∧ n ≤ p.1.sequence ∧ Describes p.1 S p.2 ∧ InOrder queryId p.1.sequence p.2 pending

/-- the query is initialised: both sync points are `n`, and the store mirrors the result set -/
structure Initialised {field : String} (queryId : String) (n : Int) (s : State Obj) (S : ResultSet Obj field) : Prop where
  cached : s.syncPoints queryId = some n
  stored : s.store (getSyncPointKeyForQuery queryId) = some (.syncPoint n)
  mirrors : Mirrors queryId s.store S

/-- the batch of the next event, and nothing else, may be written in part: `s` is the state after the last success -/
structure Attempted (c : Consumer Obj config.keyField) (n : Int) (s : State Obj) : Prop where
  initialised : Initialised queryId n s c.results
  inOrder : InOrder queryId n c.results c.pending
  syncPoints : c.state.syncPoints = s.syncPoints
  store : ∀ p ∈ c.pending.head?, ∀ b, prepare (some config.keyField) p.1 = .ok b →
    ∀ k, (∀ w ∈ b.writes, w.1 ≠ k) → c.state.store k = s.store k

variable {config queryId} {c : Consumer Obj config.keyField} {n : Int} {s : State Obj} {o : Outcome}
  {p : ChangeEvent Obj × ResultSet Obj config.keyField} {pending : List (ChangeEvent Obj × ResultSet Obj config.keyField)}

/-- an event in order is executed, and its batch is that of its parts -/
theorem Attempted.executes (h : Attempted config queryId c n s) (hp : c.pending = p :: pending) (o : Outcome) :
    ∃ d : Difference Obj, d.Describes p.1 c.results p.2 ∧
      prepare (some config.keyField) p.1 = .ok (d.batch config.keyField p.1.queryId) ∧
      handleChange (some config.toQueryConfig) c.state p.1 o =
        execute c.state p.1 (d.batch config.keyField p.1.queryId) o := by
  have hord := h.inOrder
  rw [hp] at hord
  obtain ⟨hquery, hle, ⟨d, hd⟩, -⟩ := hord
  have hprepare := prepare_eq config.keyField_ne hd
  have hcached : c.state.syncPoints p.1.queryId = some n := by
    rw [h.syncPoints, hquery]
    exact h.initialised.cached
  exact ⟨d, hd, hprepare, handleChange_run hcached hle o hprepare⟩

/-- what a failed attempt wrote, the successful one writes over -/
theorem Attempted.handled_eq (h : Attempted config queryId c n s) (hp : c.pending = p :: pending) {b : Batch Obj}
    (hb : prepare (some config.keyField) p.1 = .ok b) : handled c.state p.1 b = handled s p.1 b := by
  have hhead : p ∈ c.pending.head? := by rw [hp]; rfl
  have hstore : Writes.apply c.state.store b.writes = Writes.apply s.store b.writes :=
    Writes.apply_congr (h.store p hhead b hb)
  rw [handled, handled, hstore, h.syncPoints]

/-- after a success the next event starts from the handled state -/
theorem Attempted.success (h : Attempted config queryId c n s) (hs : Succeeds config c o p) :
    ∃ d : Difference Obj, d.Describes p.1 c.results p.2 ∧ p.1.queryId = queryId ∧
      deliver config c o = ⟨handled s p.1 (d.batch config.keyField p.1.queryId), p.2, c.pending.tail⟩ ∧
      InOrder queryId p.1.sequence p.2 c.pending.tail := by
  obtain ⟨hhead, hok⟩ := hs
  obtain ⟨pending, hp⟩ : ∃ pending, c.pending = p :: pending := ⟨c.pending.tail, (List.cons_head?_tail hhead).symm⟩
  obtain ⟨d, hd, hprepare, hrun⟩ := h.executes hp o
  have hord := h.inOrder
  rw [hp] at hord
  have hstate : handleChange (some config.toQueryConfig) c.state p.1 o =
      (handled s p.1 (d.batch config.keyField p.1.queryId), .ok ()) := by
    rw [hrun] at hok ⊢
    rw [← h.handled_eq hp hprepare, ← execute_ok hok, ← hok]
  refine ⟨d, hd, hord.1, ?_, ?_⟩
  · rw [deliver, hp]
    simp only [hstate]
    rfl
  · rw [hp]
    exact hord.2.2.2

/-- after a failure some of the batch is written -/
theorem Attempted.failure (h : Attempted config queryId c n s) (hs : ∀ p, ¬ Succeeds config c o p) :
    Attempted config queryId (deliver config c o) n s := by
  cases hp : c.pending with
  | nil =>
    have hsame : deliver config c o = c := by rw [deliver, hp]
    rw [hsame]
    exact h
  | cons p pending =>
    obtain ⟨d, hd, hprepare, hrun⟩ := h.executes hp o
    have herr : (execute c.state p.1 (d.batch config.keyField p.1.queryId) o).2 ≠ .ok () := by
      intro hok
      refine hs p ⟨by rw [hp]; rfl, ?_⟩
      rw [hrun]
      exact hok
    have hsame : deliver config c o = { c with state := { c.state with
        store := Writes.apply c.state.store (o.applied (d.batch config.keyField p.1.queryId)).writes } } := by
      rw [deliver, hp]
      simp only [hrun]
      rw [← execute_error herr]
      split
      · rename_i heq
        exact absurd (congrArg Prod.snd heq) herr
      · rename_i heq
        rw [heq]
    rw [hsame]
    refine ⟨h.initialised, h.inOrder, h.syncPoints, fun p' hp' b hb k hk => ?_⟩
    obtain rfl : p' = p := by
      rw [hp] at hp'
      exact (Option.some.inj hp').symm
    obtain rfl : b = d.batch config.keyField p'.1.queryId := Except.ok.inj (hb.symm.trans hprepare)
    have hlast : Writes.last k (o.applied (d.batch config.keyField p'.1.queryId)).writes = none :=
      (Writes.last_eq_none_iff k _).2 fun w hw => hk w (mem_of_mem_applied hw)
    have hunwritten : Writes.apply c.state.store (o.applied (d.batch config.keyField p'.1.queryId)).writes k =
        c.state.store k := by
      rw [Writes.apply_eq, hlast]
      rfl
    exact hunwritten.trans (h.store p' hp' _ hb k hk)

theorem mirroredAfter_iff (h : Attempted config queryId c n s) (o : Outcome) :
    MirroredAfter config queryId c o ↔ SafeWhenHandled config c o := by
  refine forall₂_congr fun p hs => ?_
  obtain ⟨d, hd, rfl, hdeliver, -⟩ := h.success hs
  rw [hdeliver]
  exact handled_mirrors_iff hd h.initialised.mirrors h.initialised.stored

theorem attempted_deliver (h : Attempted config queryId c n s) (hm : MirroredAfter config queryId c o) :
    ∃ n s, Attempted config queryId (deliver config c o) n s := by
  by_cases hs : ∃ p, Succeeds config c o p
  · obtain ⟨p, hs⟩ := hs
    have hmirrors := hm p hs
    obtain ⟨d, hd, rfl, hdeliver, hord⟩ := h.success hs
    rw [hdeliver] at hmirrors ⊢
    refine ⟨p.1.sequence, _, ⟨?_, handled_store_syncPoint _ _ _, hmirrors⟩, hord, rfl, fun _ _ _ _ _ _ => rfl⟩
    exact Function.update_self _ _ _
  · exact ⟨n, s, h.failure fun p hp => hs ⟨p, hp⟩⟩

/-- **The mirror.** Along every run of deliveries in order, with any failures, the store mirrors the result set after
each successfully handled event exactly when each of these events is safe. -/
theorem mirrored_iff_safe (hinit : Initialised queryId n c.state c.results) (hord : InOrder queryId n c.results c.pending)
    (outcomes : List Outcome) :
    Meets (deliver config) (MirroredAfter config queryId) c outcomes ↔
      Meets (deliver config) (SafeWhenHandled config) c outcomes := by
  have hstart : ∃ n s, Attempted config queryId c n s := ⟨n, c.state, hinit, hord, rfl, fun _ _ _ _ _ _ => rfl⟩
  refine meets_congr (fun c => ∃ n s, Attempted config queryId c n s) ?_ ?_ hstart outcomes
  · rintro c o ⟨n, s, h⟩
    exact mirroredAfter_iff h o
  · rintro c o ⟨n, s, h⟩ hm
    exact attempted_deliver h hm

end Deliveries

/-! ### Witnesses -/

def people : ValidConfig := ⟨"id", "people", by decide⟩

def person (id name : String) : Row String := [("id", some id), ("name", some name)]

/-- the result set of one person -/
def only (id name : String) (h : id ≠ "") : ResultSet String people.keyField where
  rows := [person id name]
  keyed := fun r hr => by
    obtain rfl := List.mem_singleton.1 hr
    exact ⟨rfl, h⟩
  nodup := List.nodup_singleton _

def ann : ResultSet String people.keyField := only "1" "Ann" (by decide)

def storeOfAnn : Store String := fun k =>
  if k = "1" then some (.row (person "1" "Ann"))
  else if k = getSyncPointKeyForQuery "q" then some (.syncPoint 5)
  else none

/-- Ann is mirrored at the sync point 5, and one event follows -/
def start (evt : ChangeEvent String) (S' : ResultSet String people.keyField) : Consumer String people.keyField where
  state := ⟨storeOfAnn, fun q => if q = "q" then some 5 else none⟩
  results := ann
  pending := [(evt, S')]

theorem initialised_start (evt : ChangeEvent String) (S' : ResultSet String people.keyField) :
    Initialised "q" 5 (start evt S').state (start evt S').results where
  cached := rfl
  stored := by
    have hstored : storeOfAnn (getSyncPointKeyForQuery "q") = some (.syncPoint 5) := by rfl
    exact hstored
  mirrors :=
    { holds := fun r hr => by
        obtain rfl := List.mem_singleton.1 hr
        rfl
      only := fun k hk hne => by
        have hstore : storeOfAnn k ≠ none := hne
        by_cases h : k = "1"
        · exact ⟨person "1" "Ann", List.mem_singleton_self _, h.symm⟩
        · rw [storeOfAnn, if_neg h, if_neg hk] at hstore
          exact absurd rfl hstore }

def fine : Outcome := ⟨none, fun _ => .done, true⟩

/-- the row of Ann becomes that of another person -/
def updateTo (id name : String) : ChangeEvent String :=
  ⟨"q", 6, none, some [⟨some (person "1" "Ann"), some (person id name)⟩], none⟩

theorem inOrder_updateTo (id name : String) (h : id ≠ "") : InOrder "q" 5 ann [(updateTo id name, only id name h)] :=
  ⟨rfl, Int.le_add_one (Int.le_refl 5), ⟨⟨[], [], [(person "1" "Ann", person id name)], []⟩, rfl, rfl, rfl, .refl _, .refl _⟩, trivial⟩

/-- Ann is deleted and another person added under the same key -/
def replaceBy (name : String) : ChangeEvent String :=
  ⟨"q", 6, some [some (person "1" name)], none, some [some (person "1" "Ann")]⟩

theorem inOrder_replaceBy (name : String) : InOrder "q" 5 ann [(replaceBy name, only "1" name (by decide))] :=
  ⟨rfl, Int.le_add_one (Int.le_refl 5), ⟨⟨[], [person "1" name], [], [person "1" "Ann"]⟩, rfl, rfl, rfl, .refl _, .refl _⟩, trivial⟩

/-- an update of a name, whose first delivery fails after the save, is mirrored -/
theorem renamed_person_mirrored :
    Meets (deliver people) (MirroredAfter people "q") (start (updateTo "1" "Anna") (only "1" "Anna" (by decide)))
      [{ fine with saveSyncPoint := false }, fine] := by
  have hsafe : Safe (updateTo "1" "Anna") (only "1" "Anna" (by decide)) := by
    refine ⟨fun x hx => ?_, fun u hu x hx => ?_, fun r hr => ?_⟩
    · cases hx
    · obtain rfl := List.mem_singleton.1 hu
      obtain rfl := Option.some.inj hx
      exact ⟨person "1" "Anna", List.mem_singleton_self _, rfl⟩
    · obtain rfl := List.mem_singleton.1 hr
      decide
  refine (mirrored_iff_safe (initialised_start _ _) (inOrder_updateTo _ _ _) _).2 ⟨?_, ?_, trivial⟩
  · rintro p ⟨hp, -⟩
    obtain rfl := Option.some.inj hp
    exact hsafe
  · rintro p ⟨hp, -⟩
    have hhead : (deliver people (start (updateTo "1" "Anna") (only "1" "Anna" (by decide)))
        { fine with saveSyncPoint := false }).pending.head? = some (updateTo "1" "Anna", only "1" "Anna" (by decide)) := rfl
    obtain rfl := Option.some.inj (hhead.symm.trans hp)
    exact hsafe

/-- a key changes, and the row stays under the old key as well -/
theorem renamed_row_stays :
    ¬ Meets (deliver people) (MirroredAfter people "q") (start (updateTo "2" "Ann") (only "2" "Ann" (by decide))) [fine] := by
  rintro ⟨h, -⟩
  have hmirrors := h (updateTo "2" "Ann", only "2" "Ann" (by decide)) ⟨rfl, rfl⟩
  obtain ⟨r, hr, hk⟩ := hmirrors.only "1" (by decide) (by decide)
  obtain rfl := List.mem_singleton.1 hr
  revert hk
  decide

/-- a row is deleted and one added under the same key: the store has none -/
theorem replaced_row_is_lost :
    ¬ ∀ (c : Consumer String people.keyField) (outcomes : List Outcome), Initialised "q" 5 c.state c.results →
      InOrder "q" 5 c.results c.pending → Meets (deliver people) (MirroredAfter people "q") c outcomes := by
  intro h
  have hrun := h (start (replaceBy "Bob") (only "1" "Bob" (by decide))) [fine] (initialised_start _ _) (inOrder_replaceBy _)
  have hmirrors := hrun.1 (replaceBy "Bob", only "1" "Bob" (by decide)) ⟨rfl, rfl⟩
  have hrow : (deliver people (start (replaceBy "Bob") (only "1" "Bob" (by decide))) fine).state.store "1" =
      some (.row (person "1" "Bob")) := hmirrors.holds (person "1" "Bob") (List.mem_singleton_self _)
  have hnone : (deliver people (start (replaceBy "Bob") (only "1" "Bob" (by decide))) fine).state.store "1" = none := by
    rfl
  cases hnone.symm.trans hrow

end DrasiPlatform.SyncStateStore
