/-
The change handler of the sync-statestore reaction (`HandleChange` in `ChangeEventHandler.cs`, `TryUpdateSyncPointAsync`
and `GetSyncPointForQuery` in `QuerySyncPointManager.cs`).

A change event of a query is turned into a batch: rows to save under the text of their key field (rows added, then rows
after an update), and keys to delete. The batch is saved, the keys are deleted, and the event's sequence number is saved
as the query's sync point, in the store and in a cache. An event below the cached sync point is skipped. Every call to the
Dapr store may fail; a call that fails may have had its effect, a bulk save on some of its items only.

- `handleChange_skip`, `handleChange_run`: when an event is skipped, and what is executed otherwise.
- `execute_ok`, `execute_error`: after a successful event the whole batch is written and both sync points are moved; after
  a failure some of the batch is written and neither is.
-/
import Mathlib.Tactic
import DrasiPlatform.Core.Writes

namespace DrasiPlatform.SyncStateStore

/-! ## Events and the store -/

/-- `Dictionary<string, object>`, a row of a result set -/
abbrev Row (Obj : Type) := List (String × Option Obj)

structure QueryConfig where
  keyField : Option String
  stateStoreName : Option String

structure UpdatedResult (Obj : Type) where
  before : Option (Row Obj)
  after : Option (Row Obj)

structure ChangeEvent (Obj : Type) where
  queryId : String
  sequence : Int
  addedResults : Option (List (Option (Row Obj)))
  updatedResults : Option (List (UpdatedResult Obj))
  deletedResults : Option (List (Option (Row Obj)))

inductive Entry (Obj : Type) where
  | row (r : Row Obj)
  | syncPoint (n : Int)

/-- the Dapr store that the query's configuration names -/
abbrev Store (Obj : Type) := String → Option (Entry Obj)

inductive HandlerError where
  | argumentNull (paramName : String)
  | invalidOperation (message : String)
  | keyNotFound (key : String)
  | aggregate (message : String) (innerExceptions : Nat)
deriving DecidableEq, Repr

/-- the store, and the sync points in memory -/
structure State (Obj : Type) where
  store : Store Obj
  syncPoints : String → Option Int

/-- how a call for one key ends -/
inductive CallResult where
  | done
  | failed (applied : Bool)
deriving DecidableEq, Repr

/-- how the calls of one delivery end -/
structure Outcome where
  /-- nothing when the bulk save returns, the keys it has saved when it throws -/
  saveBulk : Option (String → Bool)
  delete : String → CallResult
  saveSyncPoint : Bool

def getSyncPointKeyForQuery (queryId : String) : String := "_drasi-sync-statestore-reaction_sync_point__" ++ queryId

/-! ## The batch of an event -/

section Handler

variable {Obj : Type} [ToString Obj]

/-- `row[keyField]?.ToString()` -/
def keyOf (keyField : String) (row : Row Obj) : Except HandlerError String :=
  match row.lookup keyField with
  | none => .error (.keyNotFound keyField)
  | some none => .error (.argumentNull ("Key field '" ++ keyField ++ "' is null."))
  | some (some value) => .ok (toString value)

/-- one turn of a loop over rows: a null row is passed over, and every row when there is no key field -/
def ofRow {α : Type} (keyField : Option String) (f : String → Row Obj → Except HandlerError (List α))
    (item : Option (Row Obj)) : Except HandlerError (List α) :=
  match item, keyField.filter (· ≠ "") with
  | some row, some field => f field row
  | _, _ => .ok []

def eachRow {α : Type} (keyField : Option String) (f : String → Row Obj → Except HandlerError (List α)) :
    List (Option (Row Obj)) → Except HandlerError (List α)
  | [] => .ok []
  | item :: items => do
    let xs ← ofRow keyField f item
    let ys ← eachRow keyField f items
    return xs ++ ys

omit [ToString Obj] in
def allUpserts (evt : ChangeEvent Obj) : List (Option (Row Obj)) :=
  evt.addedResults.getD [] ++ (evt.updatedResults.getD []).map UpdatedResult.after

def itemsToSave (keyField : Option String) (evt : ChangeEvent Obj) : Except HandlerError (List (String × Row Obj)) :=
  eachRow keyField (fun field row => do
    let itemKey ← keyOf field row
    return if itemKey = getSyncPointKeyForQuery evt.queryId then [] else [(itemKey, row)]) (allUpserts evt)

def keysToDelete (keyField : Option String) (evt : ChangeEvent Obj) : Except HandlerError (List String) :=
  eachRow keyField (fun field row => do
    let keyToDelete ← keyOf field row
    return [keyToDelete]) (evt.deletedResults.getD [])

structure Batch (Obj : Type) where
  items : List (String × Row Obj)
  keys : List String

def prepare (keyField : Option String) (evt : ChangeEvent Obj) : Except HandlerError (Batch Obj) := do
  let items ← itemsToSave keyField evt
  let keys ← keysToDelete keyField evt
  return ⟨items, keys⟩

/-- the saves, and after them the deletes -/
def Batch.writes (b : Batch Obj) : List (String × Option (Entry Obj)) :=
  b.items.map (fun i => (i.1, some (.row i.2))) ++ b.keys.map (fun k => (k, none))

/-! ## Handling -/

/-- the part of the batch that takes effect -/
def Outcome.applied (o : Outcome) (b : Batch Obj) : Batch Obj where
  items := b.items.filter fun i => (o.saveBulk.map fun saved => saved i.1).getD true
  keys := b.keys.filter fun k => o.delete k ≠ .failed false

def Outcome.exceptions (o : Outcome) (b : Batch Obj) : Nat :=
  (if b.items ≠ [] ∧ o.saveBulk.isSome then 1 else 0) + (b.keys.filter fun k => o.delete k ≠ .done).length

def tryUpdateSyncPoint (s : State Obj) (queryId : String) (sequenceNumber : Int) (saved : Bool) : State Obj × Bool :=
  if saved then
    ({ store := Function.update s.store (getSyncPointKeyForQuery queryId) (some (.syncPoint sequenceNumber))
       syncPoints := Function.update s.syncPoints queryId (some sequenceNumber) }, true)
  else (s, false)

def execute (s : State Obj) (evt : ChangeEvent Obj) (b : Batch Obj) (o : Outcome) : State Obj × Except HandlerError Unit :=
  let written := { s with store := Writes.apply s.store (o.applied b).writes }
  if o.exceptions b ≠ 0 then
    (written, .error (.aggregate ("Failed to fully process change event " ++ toString evt.sequence ++ " for query " ++
      evt.queryId ++ ". See inner exceptions for details.") (o.exceptions b)))
  else
    match tryUpdateSyncPoint written evt.queryId evt.sequence o.saveSyncPoint with
    | (s', true) => (s', .ok ())
    | (s', false) => (s', .error (.invalidOperation "Failed to update sync point after processing change event."))

def handleChange (queryConfig : Option QueryConfig) (s : State Obj) (evt : ChangeEvent Obj) (o : Outcome) :
    State Obj × Except HandlerError Unit :=
  match queryConfig with
  | some ⟨keyField, some _⟩ =>
    match s.syncPoints evt.queryId with
    | none => (s, .error (.invalidOperation ("Received Change Event for Query " ++ evt.queryId ++
        " which was not yet initialized.")))
    | some syncPoint =>
      if evt.sequence < syncPoint then (s, .ok ())
      else
        match prepare keyField evt with
        | .error err => (s, .error err)
        | .ok b => execute s evt b o
  | _ => (s, .error (.argumentNull ("State store name is null for query " ++ evt.queryId ++
      ". Cannot process change event.")))

/-! ## What a delivery does -/

omit [ToString Obj] in
theorem applied_eq_self {o : Outcome} {b : Batch Obj} (h : o.exceptions b = 0) : o.applied b = b := by
  obtain ⟨hsave, hdelete⟩ := Nat.add_eq_zero_iff.1 h
  have hitems : b.items.filter (fun i => (o.saveBulk.map fun saved => saved i.1).getD true) = b.items := by
    rw [List.filter_eq_self]
    intro i hi
    have hnone : o.saveBulk = none := by
      by_contra hsome
      rw [if_pos ⟨List.ne_nil_of_mem hi, Option.isSome_iff_ne_none.2 hsome⟩] at hsave
      exact Nat.one_ne_zero hsave
    rw [hnone]
    rfl
  have hkeys : b.keys.filter (fun k => o.delete k ≠ .failed false) = b.keys := by
    rw [List.filter_eq_self]
    intro k hk
    have hdone : o.delete k = .done := by
      by_contra hne
      exact List.ne_nil_of_mem (List.mem_filter.2 ⟨hk, decide_eq_true hne⟩) (List.length_eq_zero_iff.1 hdelete)
    rw [hdone]
    rfl
  rw [Outcome.applied, hitems, hkeys]

omit [ToString Obj] in
/-- a failed delivery writes nothing that the batch does not write -/
theorem mem_of_mem_applied {o : Outcome} {b : Batch Obj} {w : String × Option (Entry Obj)}
    (h : w ∈ (o.applied b).writes) : w ∈ b.writes := by
  rw [Batch.writes, List.mem_append] at h ⊢
  exact h.imp (List.map_subset _ (List.filter_subset_self _) ·) (List.map_subset _ (List.filter_subset_self _) ·)

/-- the state after an event whose batch is written and whose sync point is saved -/
def handled (s : State Obj) (evt : ChangeEvent Obj) (b : Batch Obj) : State Obj where
  store := Function.update (Writes.apply s.store b.writes) (getSyncPointKeyForQuery evt.queryId)
    (some (.syncPoint evt.sequence))
  syncPoints := Function.update s.syncPoints evt.queryId (some evt.sequence)

omit [ToString Obj] in
theorem handled_store_of_ne {s : State Obj} {evt : ChangeEvent Obj} {b : Batch Obj} {k : String}
    (hk : k ≠ getSyncPointKeyForQuery evt.queryId) : (handled s evt b).store k = Writes.apply s.store b.writes k :=
  Function.update_of_ne hk _ _

omit [ToString Obj] in
theorem handled_store_syncPoint (s : State Obj) (evt : ChangeEvent Obj) (b : Batch Obj) :
    (handled s evt b).store (getSyncPointKeyForQuery evt.queryId) = some (.syncPoint evt.sequence) :=
  Function.update_self _ _ _

omit [ToString Obj] in
theorem execute_ok {s : State Obj} {evt : ChangeEvent Obj} {b : Batch Obj} {o : Outcome}
    (h : (execute s evt b o).2 = .ok ()) : (execute s evt b o).1 = handled s evt b := by
  by_cases hexc : o.exceptions b ≠ 0
  · rw [execute, if_pos hexc] at h
    cases h
  · rw [execute, if_neg hexc, applied_eq_self (not_not.1 hexc)] at h ⊢
    cases hsync : o.saveSyncPoint with
    | false =>
      rw [hsync] at h
      cases h
    | true => rfl

omit [ToString Obj] in
theorem execute_error {s : State Obj} {evt : ChangeEvent Obj} {b : Batch Obj} {o : Outcome}
    (h : (execute s evt b o).2 ≠ .ok ()) :
    (execute s evt b o).1 = { s with store := Writes.apply s.store (o.applied b).writes } := by
  by_cases hexc : o.exceptions b ≠ 0
  · rw [execute, if_pos hexc]
  · rw [execute, if_neg hexc] at h ⊢
    cases hsync : o.saveSyncPoint with
    | false => rfl
    | true =>
      rw [hsync] at h
      exact absurd rfl h

section Deliver

variable {keyField : Option String} {stateStoreName : String} {s : State Obj} {evt : ChangeEvent Obj} {n : Int}

theorem handleChange_skip (hsync : s.syncPoints evt.queryId = some n) (hlt : evt.sequence < n) (o : Outcome) :
    handleChange (some ⟨keyField, some stateStoreName⟩) s evt o = (s, .ok ()) := by
  simp [handleChange, hsync, hlt]

theorem handleChange_run (hsync : s.syncPoints evt.queryId = some n) (hle : n ≤ evt.sequence) (o : Outcome) {b : Batch Obj}
    (hb : prepare keyField evt = .ok b) :
    handleChange (some ⟨keyField, some stateStoreName⟩) s evt o = execute s evt b o := by
  simp [handleChange, hsync, not_lt.2 hle, hb]

theorem handleChange_unprepared (hsync : s.syncPoints evt.queryId = some n) (hle : n ≤ evt.sequence) (o : Outcome)
    {err : HandlerError} (hb : prepare keyField evt = .error err) :
    handleChange (some ⟨keyField, some stateStoreName⟩) s evt o = (s, .error err) := by
  simp [handleChange, hsync, not_lt.2 hle, hb]

end Deliver

end Handler

end DrasiPlatform.SyncStateStore
