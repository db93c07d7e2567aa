/-
The sync point records of the sync-statestore reaction: `QueryInitializationService.cs`, and the writes of
`ChangeEventHandler.cs` and `QuerySyncPointManager.cs` to the stores of the configured queries.

The rows of a query and its sync point are kept in one store, the sync point under a key of its own. Rows reach the store
on three ways: the bulk save of the initial sync, the bulk save of a change event, and its deletes. Only the bulk save of an
event passes over a row whose key is that of the sync point, and only of its own query.

- `step_stores`: the stores after a step are what the writes of its rows and of the manager make of them.
- `mem_items`, `mem_keys`: which rows of an event are saved, and which keys are deleted.
- `step_record`: where no row is written to a record, the record is as it was or as the manager has written it.
- `records_kept_iff`: along every run no row is written to, or deleted from, a sync point record exactly when no deleted
  and no initially loaded row has the key of one, and no added or updated row that of another query.
Witness: `deleted_row_removes_record`, a deleted row whose key is that of its query's sync point.
-/
import Mathlib.Tactic
import DrasiPlatform.Core.Run
import DrasiPlatform.Reactions.ChangeEventHandler

namespace DrasiPlatform.SyncStateStore

open Run

/-! ## Initial sync -/

structure ViewItem (Obj : Type) where
  /-- the sequence number of a header -/
  header : Option Int
  data : Option (Row Obj)

inductive InitError where
  | invalidProgram (message : String)
  | argumentNull
  | keyNotFound (key : String)
  /-- an exception of a call -/
  | failed (message : String)
deriving DecidableEq, Repr

/-- how the calls of the initialization of one query end -/
structure InitOutcome (Obj : Type) where
  connected : Bool
  /-- the read of the sync point returns -/
  read : Bool
  ready : Bool
  view : List (ViewItem Obj)
  /-- the stream of the view ends without an exception -/
  streamEnds : Bool
  /-- nothing when the bulk save returns, the keys it has saved when it throws -/
  saveBulk : Option (String → Bool)
  saveSyncPoint : Bool

inductive Caller where
  | rows
  | syncPointManager
deriving DecidableEq, Repr

/-- a write to a store that takes effect: a save, or a delete -/
structure StoreWrite (Obj : Type) where
  caller : Caller
  key : String
  value : Option (Entry Obj)

def applyWrites {Obj : Type} (store : Store Obj) (ws : List (StoreWrite Obj)) : Store Obj :=
  Writes.apply store (ws.map fun w => (w.key, w.value))

section Initialization

variable {Obj : Type} [ToString Obj]

omit [ToString Obj] in
def getQuerySyncPointFromHeader (queryName : String) : List (ViewItem Obj) → Except InitError (Int × List (ViewItem Obj))
  | ⟨some sequence, _⟩ :: items => .ok (sequence, items)
  | ⟨none, _⟩ :: _ => .error (.invalidProgram ("Header in result stream is null for query " ++ queryName ++
      ". Aborting initial sync."))
  | [] => .error (.invalidProgram ("No header returned in result stream for query " ++ queryName ++
      ". Aborting initial sync."))

/-- `viewItem.Data[keyFieldName]?.ToString()`, which may be null -/
def itemKey (keyFieldName : Option String) (row : Row Obj) : Except InitError (Option String) :=
  match keyFieldName with
  | none => .error .argumentNull
  | some field =>
    match row.lookup field with
    | none => .error (.keyNotFound field)
    | some value => .ok (value.map toString)

def buildListOfItemsToSave (keyFieldName : Option String) :
    List (ViewItem Obj) → Except InitError (List (Option String × Row Obj))
  | [] => .ok []
  | ⟨_, none⟩ :: items => buildListOfItemsToSave keyFieldName items
  | ⟨_, some row⟩ :: items => do
    let key ← itemKey keyFieldName row
    let rest ← buildListOfItemsToSave keyFieldName items
    return (key, row) :: rest

/-- the header and the items that are read of the stream of the view -/
def readView (queryName : String) (keyFieldName : Option String) (o : InitOutcome Obj) :
    Except InitError (Int × List (Option String × Row Obj)) := do
  let (querySyncPoint, stream) ← getQuerySyncPointFromHeader queryName o.view
  let items ← buildListOfItemsToSave keyFieldName stream
  if o.streamEnds then return (querySyncPoint, items)
  else .error (.failed ("Unexpected error while parsing result stream for query " ++ queryName ++ "."))

omit [ToString Obj] in
/-- the items that the bulk save has saved -/
def savedItems (saveBulk : Option (String → Bool)) (items : List (Option String × Row Obj)) : List (String × Row Obj) :=
  (items.filterMap fun i => i.1.map (·, i.2)).filter fun i => (saveBulk.map fun saved => saved i.1).getD true

/-- the writes of `PerformInitialSyncForQueryAsync`, and the sync point or the exception; an item without a key makes the
bulk save throw -/
def performInitialSyncForQuery (queryName : String) (keyFieldName : Option String) (o : InitOutcome Obj) :
    List (StoreWrite Obj) × Except InitError Int :=
  match readView queryName keyFieldName o with
  | .error err => ([], .error err)
  | .ok (querySyncPoint, items) =>
    let writes := (savedItems o.saveBulk items).map fun i => ⟨.rows, i.1, some (.row i.2)⟩
    if items ≠ [] ∧ (o.saveBulk.isSome ∨ none ∈ items.map Prod.fst) then
      (writes, .error (.failed ("Unexpected Error while saving result data to Dapr state store for query " ++
        queryName ++ ".")))
    else (writes, .ok querySyncPoint)

/-- what `TryUpdateSyncPointAsync` writes -/
def syncPointWrite (queryId : String) (sequenceNumber : Int) : StoreWrite Obj :=
  ⟨.syncPointManager, getSyncPointKeyForQuery queryId, some (.syncPoint sequenceNumber)⟩

/-- `TryLoadSyncPointAsync`: a record that is no number makes the read throw, which counts as no record -/
def tryLoadSyncPoint (s : State Obj) (queryId : String) (read : Bool) : Option Int :=
  match s.store (getSyncPointKeyForQuery queryId), read with
  | some (.syncPoint n), true => some n
  | _, _ => none

omit [ToString Obj] in
/-- what comes before the initial sync: the sync point that is loaded, or nothing when the query is ready to be synced -/
def beforeSync (queryConfig : QueryConfig) (s : State Obj) (queryName : String) (o : InitOutcome Obj) :
    Except InitError (Option Int) :=
  if (queryConfig.stateStoreName.getD "").toList.all Char.isWhitespace then
    .error (.invalidProgram ("StateStoreName is not configured for query " ++ queryName ++ "."))
  else if o.connected = false then
    .error (.failed ("Error while trying to connect to Dapr state store for query " ++ queryName ++ "."))
  else
    match tryLoadSyncPoint s queryName o.read with
    | some n => .ok (some n)
    | none =>
      if o.ready then .ok none
      else .error (.invalidProgram ("Query " ++ queryName ++ " did not become ready within the timeout period."))

/-- one turn of the loop of `InitializeQueriesAsync`, in the store that the query names: its writes, the sync point it
leaves in memory, or the exception that ends the reaction -/
def initializeQuery (queryConfig : QueryConfig) (s : State Obj) (queryName : String) (o : InitOutcome Obj) :
    List (StoreWrite Obj) × Except InitError Int :=
  match beforeSync queryConfig s queryName o with
  | .error err => ([], .error err)
  | .ok (some n) => ([], .ok n)
  | .ok none =>
    match performInitialSyncForQuery queryName queryConfig.keyField o with
    | (writes, .error err) => (writes, .error err)
    | (writes, .ok querySyncPoint) =>
      if o.saveSyncPoint then (writes ++ [syncPointWrite queryName querySyncPoint], .ok querySyncPoint)
      else (writes, .error (.invalidProgram ("Failed to update sync point for query " ++ queryName ++
        " in Dapr state store.")))

end Initialization

/-! ## Rows and keys -/

section Keys

variable {Obj : Type} [ToString Obj] {keyField : Option String} {evt : ChangeEvent Obj}

/-- the row has the key `key` in the field of the configuration -/
def HasKey (keyField : Option String) (row : Row Obj) (key : String) : Prop :=
  ∃ field, keyField = some field ∧ field ≠ "" ∧ keyOf field row = .ok key

omit [ToString Obj] in
theorem mem_eachRow {α : Type} {f : String → Row Obj → Except HandlerError (List α)} {items : List (Option (Row Obj))}
    {xs : List α} (h : eachRow keyField f items = .ok xs) (x : α) :
    x ∈ xs ↔ ∃ row field ys, some row ∈ items ∧ keyField = some field ∧ field ≠ "" ∧ f field row = .ok ys ∧ x ∈ ys := by
  induction items generalizing xs with
  | nil =>
    cases h
    simp
  | cons item items ih =>
    cases hrow : ofRow keyField f item with
    | error err =>
      rw [eachRow, hrow] at h
      cases h
    | ok ys =>
      cases hrest : eachRow keyField f items with
      | error err =>
        rw [eachRow, hrow, hrest] at h
        cases h
      | ok zs =>
        have hxs : xs = ys ++ zs := by
          rw [eachRow, hrow, hrest] at h
          exact (Except.ok.inj h).symm
        have hhead : x ∈ ys ↔ ∃ row field ws, item = some row ∧ keyField = some field ∧ field ≠ "" ∧
            f field row = .ok ws ∧ x ∈ ws := by
          cases item with
          | none =>
            cases hrow
            simp
          | some row =>
            cases keyField with
            | none =>
              cases hrow
              simp
            | some field =>
              by_cases hfield : field = ""
              · subst hfield
                cases hrow
                simp
              · have hf : f field row = .ok ys := by simpa [ofRow, Option.filter, hfield] using hrow
                simp [hfield, hf]
        rw [hxs, List.mem_append, hhead, ih hrest]
        constructor
        · rintro (⟨row, field, ws, rfl, hx⟩ | ⟨row, field, ws, hmem, hx⟩)
          · exact ⟨row, field, ws, List.mem_cons_self, hx⟩
          · exact ⟨row, field, ws, List.mem_cons_of_mem _ hmem, hx⟩
        · rintro ⟨row, field, ws, hmem, hx⟩
          rcases List.mem_cons.1 hmem with heq | hmem
          · exact Or.inl ⟨row, field, ws, heq.symm, hx⟩
          · exact Or.inr ⟨row, field, ws, hmem, hx⟩

theorem prepare_eq_ok {b : Batch Obj} (h : prepare keyField evt = .ok b) :
    itemsToSave keyField evt = .ok b.items ∧ keysToDelete keyField evt = .ok b.keys := by
  cases hitems : itemsToSave keyField evt with
  | error err =>
    rw [prepare, hitems] at h
    cases h
  | ok items =>
    cases hkeys : keysToDelete keyField evt with
    | error err =>
      rw [prepare, hitems, hkeys] at h
      cases h
    | ok keys =>
      rw [prepare, hitems, hkeys] at h
      cases h
      exact ⟨rfl, rfl⟩

/-- every deleted row is deleted, whatever its key -/
theorem mem_keys {b : Batch Obj} (h : prepare keyField evt = .ok b) (key : String) :
    key ∈ b.keys ↔ ∃ row, some row ∈ evt.deletedResults.getD [] ∧ HasKey keyField row key := by
  rw [mem_eachRow (prepare_eq_ok h).2]
  constructor
  · rintro ⟨row, field, ys, hmem, hfield, hne, hf, hkey⟩
    cases hk : keyOf field row with
    | error err =>
      rw [hk] at hf
      cases hf
    | ok k =>
      rw [hk] at hf
      cases hf
      exact ⟨row, hmem, field, hfield, hne, hk.trans (congrArg _ (List.mem_singleton.1 hkey).symm)⟩
  · rintro ⟨row, hmem, field, hfield, hne, hk⟩
    exact ⟨row, field, [key], hmem, hfield, hne, by rw [hk]; rfl, List.mem_singleton_self key⟩

/-- a row is saved unless its key is that of the sync point of its query -/
theorem mem_items {b : Batch Obj} (h : prepare keyField evt = .ok b) (key : String) (row : Row Obj) :
    (key, row) ∈ b.items ↔
      some row ∈ allUpserts evt ∧ HasKey keyField row key ∧ key ≠ getSyncPointKeyForQuery evt.queryId := by
  rw [mem_eachRow (prepare_eq_ok h).1]
  constructor
  · rintro ⟨row', field, ys, hmem, hfield, hne, hf, hkey⟩
    cases hk : keyOf field row' with
    | error err =>
      rw [hk] at hf
      cases hf
    | ok k =>
      rw [hk] at hf
      cases hf
      split at hkey
      · cases hkey
      · rename_i hsync
        cases List.mem_singleton.1 hkey
        exact ⟨hmem, ⟨field, hfield, hne, hk⟩, hsync⟩
  · rintro ⟨hmem, ⟨field, hfield, hne, hk⟩, hsync⟩
    refine ⟨row, field, [(key, row)], hmem, hfield, hne, ?_, List.mem_singleton_self _⟩
    rw [hk]
    exact congrArg Except.ok (if_neg hsync)

theorem mem_buildList {items : List (ViewItem Obj)} {l : List (Option String × Row Obj)}
    (h : buildListOfItemsToSave keyField items = .ok l) (key : String) (row : Row Obj) :
    (some key, row) ∈ l ↔ ∃ item ∈ items, item.data = some row ∧ itemKey keyField row = .ok (some key) := by
  induction items generalizing l with
  | nil =>
    cases h
    simp
  | cons item items ih =>
    obtain ⟨header, data⟩ := item
    cases data with
    | none =>
      rw [ih h]
      simp
    | some row' =>
      cases hkey : itemKey keyField row' with
      | error err =>
        rw [buildListOfItemsToSave, hkey] at h
        cases h
      | ok k =>
        cases hrest : buildListOfItemsToSave keyField items with
        | error err =>
          rw [buildListOfItemsToSave, hkey, hrest] at h
          cases h
        | ok rest =>
          have hl : l = (k, row') :: rest := by
            rw [buildListOfItemsToSave, hkey, hrest] at h
            exact (Except.ok.inj h).symm
          rw [hl, List.mem_cons, ih hrest, List.exists_mem_cons_iff, Prod.mk.injEq, Option.some.injEq]
          refine or_congr ?_ Iff.rfl
          constructor
          · rintro ⟨rfl, rfl⟩
            exact ⟨rfl, hkey⟩
          · rintro ⟨rfl, hk⟩
            exact ⟨Except.ok.inj (hk.symm.trans hkey), rfl⟩

end Keys

/-! ## Runs -/

/-- the stores, and the sync points in memory -/
structure Reaction (Obj : Type) where
  stores : String → Store Obj
  syncPoints : String → Option Int

/-- an event of any query is delivered, a query is initialized, the process is started again -/
inductive ReactionOp (Obj : Type) where
  | deliver (evt : ChangeEvent Obj) (o : Outcome)
  | initializeQuery (queryName : String) (o : InitOutcome Obj)
  | restart

namespace Reaction

variable {Obj : Type}

/-- what a handler of a query sees, whose configuration names the store -/
def view (r : Reaction Obj) (storeName : String) : State Obj := ⟨r.stores storeName, r.syncPoints⟩

def put (r : Reaction Obj) (storeName : String) (s : State Obj) : Reaction Obj :=
  ⟨Function.update r.stores storeName s.store, s.syncPoints⟩

variable [ToString Obj] (config : String → Option QueryConfig)

def deliver (r : Reaction Obj) (evt : ChangeEvent Obj) (o : Outcome) : Reaction Obj :=
  match config evt.queryId with
  | some ⟨keyField, some storeName⟩ =>
    r.put storeName (handleChange (some ⟨keyField, some storeName⟩) (r.view storeName) evt o).1
  | _ => r

def initializeQuery (r : Reaction Obj) (queryName : String) (o : InitOutcome Obj) : Reaction Obj :=
  match config queryName with
  | some ⟨keyField, some storeName⟩ =>
    let (writes, result) := SyncStateStore.initializeQuery ⟨keyField, some storeName⟩ (r.view storeName) queryName o
    let syncPoints :=
      match result with
      | .ok n => Function.update r.syncPoints queryName (some n)
      | .error _ => r.syncPoints
    r.put storeName ⟨applyWrites (r.stores storeName) writes, syncPoints⟩
  | _ => r

def step (r : Reaction Obj) : ReactionOp Obj → Reaction Obj
  | .deliver evt o => r.deliver config evt o
  | .initializeQuery queryName o => r.initializeQuery config queryName o
  | .restart => { r with syncPoints := fun _ => none }

/-! ## Writes -/

/-- the batch of an event that is handled -/
def handledBatch (s : State Obj) (keyField : Option String) (evt : ChangeEvent Obj) : Option (Batch Obj) :=
  match s.syncPoints evt.queryId, prepare keyField evt with
  | some n, .ok b => if evt.sequence < n then none else some b
  | _, _ => none

/-- the writes of one step, with the store they go to -/
def writes (r : Reaction Obj) : ReactionOp Obj → Option (String × List (StoreWrite Obj))
  | .deliver evt o =>
    match config evt.queryId with
    | some ⟨keyField, some storeName⟩ =>
      (handledBatch (r.view storeName) keyField evt).map fun b =>
        (storeName, (o.applied b).writes.map (fun w => ⟨.rows, w.1, w.2⟩) ++
          if o.exceptions b = 0 ∧ o.saveSyncPoint = true then [syncPointWrite evt.queryId evt.sequence] else [])
    | _ => none
  | .initializeQuery queryName o =>
    match config queryName with
    | some ⟨keyField, some storeName⟩ =>
      some (storeName, (SyncStateStore.initializeQuery ⟨keyField, some storeName⟩ (r.view storeName) queryName o).1)
    | _ => none
  | .restart => none

variable {config}

omit [ToString Obj] in
theorem execute_store (s : State Obj) (evt : ChangeEvent Obj) (b : Batch Obj) (o : Outcome) :
    (execute s evt b o).1.store = applyWrites s.store ((o.applied b).writes.map (fun w => ⟨.rows, w.1, w.2⟩) ++
      if o.exceptions b = 0 ∧ o.saveSyncPoint = true then [syncPointWrite evt.queryId evt.sequence] else []) := by
  have hrows : ∀ ws : List (String × Option (Entry Obj)),
      (ws.map fun w => (⟨.rows, w.1, w.2⟩ : StoreWrite Obj)).map (fun w => (w.key, w.value)) = ws := by
    intro ws
    simp [Function.comp_def]
  rw [applyWrites, List.map_append, hrows, Writes.apply_append]
  by_cases hexc : o.exceptions b = 0
  · cases hsave : o.saveSyncPoint with
    | true => simp [execute, hexc, hsave, tryUpdateSyncPoint, syncPointWrite, Writes.apply]
    | false => simp [execute, hexc, hsave, tryUpdateSyncPoint, Writes.apply]
  · simp [execute, hexc, Writes.apply]

theorem handleChange_store (s : State Obj) (keyField : Option String) (storeName : String) (evt : ChangeEvent Obj)
    (o : Outcome) : (handleChange (some ⟨keyField, some storeName⟩) s evt o).1.store =
      match handledBatch s keyField evt with
      | some b => (execute s evt b o).1.store
      | none => s.store := by
  cases hsync : s.syncPoints evt.queryId with
  | none => simp [handleChange, handledBatch, hsync]
  | some n =>
    by_cases hlt : evt.sequence < n
    · rw [handleChange_skip hsync hlt o]
      cases hb : prepare keyField evt <;> simp [handledBatch, hsync, hb, hlt]
    · cases hb : prepare keyField evt with
      | error err =>
        rw [handleChange_unprepared hsync (not_lt.1 hlt) o hb]
        simp [handledBatch, hsync, hb]
      | ok b =>
        rw [handleChange_run hsync (not_lt.1 hlt) o hb]
        simp [handledBatch, hsync, hb, hlt]

/-- **The writes of a step are all it does to the stores.** -/
theorem step_stores (r : Reaction Obj) (op : ReactionOp Obj) :
    (r.step config op).stores =
      match r.writes config op with
      | some (storeName, ws) => Function.update r.stores storeName (applyWrites (r.stores storeName) ws)
      | none => r.stores := by
  cases op with
  | restart => rfl
  | initializeQuery queryName o =>
    simp only [step, initializeQuery, writes]
    split <;> simp_all [put]
  | deliver evt o =>
    simp only [step, deliver, writes]
    split
    · rename_i keyField storeName hconfig
      simp only [put, handleChange_store]
      cases hb : handledBatch (r.view storeName) keyField evt with
      | none => exact Function.update_eq_self storeName r.stores
      | some b =>
        simp only [execute_store, Option.map_some]
        rfl
    · rename_i hconfig
      cases hc : config evt.queryId with
      | none => rfl
      | some c =>
        obtain ⟨keyField, storeName⟩ := c
        cases storeName with
        | none => rfl
        | some storeName => exact absurd hc (hconfig keyField storeName)

/-! ## Sync point records -/

section Records

variable (config) (storeName : String)

/-- the key of the sync point record of a query that is kept in the store -/
def IsRecord (key : String) : Prop :=
  ∃ queryName keyField, config queryName = some ⟨keyField, some storeName⟩ ∧ key = getSyncPointKeyForQuery queryName

/-- no row is written to a record, or deleted from one, by the step -/
def RowsSpareRecords (r : Reaction Obj) (op : ReactionOp Obj) : Prop :=
  ∀ storeName ws, r.writes config op = some (storeName, ws) →
    ∀ w ∈ ws, w.caller = .rows → ¬IsRecord config storeName w.key

/-- of the rows of an event that is handled: none that is deleted has the key of a record, none that is saved that of
another query. Of an initial sync that is made: no row that is saved has the key of a record. -/
def Spared (r : Reaction Obj) : ReactionOp Obj → Prop
  | .deliver evt o => ∀ keyField storeName, config evt.queryId = some ⟨keyField, some storeName⟩ →
      (handledBatch (r.view storeName) keyField evt).isSome → ∀ row key, HasKey keyField row key →
        (some row ∈ evt.deletedResults.getD [] → o.delete key ≠ .failed false → ¬IsRecord config storeName key) ∧
        (some row ∈ allUpserts evt → (o.saveBulk.map fun saved => saved key).getD true = true →
          key ≠ getSyncPointKeyForQuery evt.queryId → ¬IsRecord config storeName key)
  | .initializeQuery queryName o => ∀ keyField storeName, config queryName = some ⟨keyField, some storeName⟩ →
      beforeSync ⟨keyField, some storeName⟩ (r.view storeName) queryName o = .ok none →
        (readView queryName keyField o).isOk → ∀ item ∈ o.view.tail, ∀ row ∈ item.data, ∀ key,
          itemKey keyField row = .ok (some key) → (o.saveBulk.map fun saved => saved key).getD true = true →
            ¬IsRecord config storeName key
  | .restart => True

end Records

section Spared

variable {config : String → Option QueryConfig} {r : Reaction Obj}

/-- what the rows of a handled event write -/
theorem mem_applied {keyField : Option String} {evt : ChangeEvent Obj} {b : Batch Obj} (hb : prepare keyField evt = .ok b)
    (o : Outcome) (key : String) :
    (∃ value, (key, value) ∈ (o.applied b).writes) ↔
      ∃ row, HasKey keyField row key ∧
        ((some row ∈ evt.deletedResults.getD [] ∧ o.delete key ≠ .failed false) ∨
          (some row ∈ allUpserts evt ∧ (o.saveBulk.map fun saved => saved key).getD true = true ∧
            key ≠ getSyncPointKeyForQuery evt.queryId)) := by
  constructor
  · rintro ⟨value, hmem⟩
    rcases List.mem_append.1 hmem with hitem | hkey
    · obtain ⟨⟨key', row⟩, hrow, heq⟩ := List.mem_map.1 hitem
      cases heq
      obtain ⟨hrow, hsaved⟩ := List.mem_filter.1 hrow
      obtain ⟨hmem, hkey, hne⟩ := (mem_items hb _ row).1 hrow
      exact ⟨row, hkey, Or.inr ⟨hmem, hsaved, hne⟩⟩
    · obtain ⟨key', hk, heq⟩ := List.mem_map.1 hkey
      cases heq
      obtain ⟨hk, hdeleted⟩ := List.mem_filter.1 hk
      obtain ⟨row, hmem, hkey⟩ := (mem_keys hb _).1 hk
      exact ⟨row, hkey, Or.inl ⟨hmem, of_decide_eq_true hdeleted⟩⟩
  · rintro ⟨row, hkey, ⟨hmem, hdeleted⟩ | ⟨hmem, hsaved, hne⟩⟩
    · refine ⟨none, List.mem_append_right _ (List.mem_map.2 ⟨key, ?_, rfl⟩)⟩
      exact List.mem_filter.2 ⟨(mem_keys hb key).2 ⟨row, hmem, hkey⟩, decide_eq_true hdeleted⟩
    · refine ⟨some (.row row), List.mem_append_left _ (List.mem_map.2 ⟨(key, row), ?_, rfl⟩)⟩
      exact List.mem_filter.2 ⟨(mem_items hb key row).2 ⟨hmem, hkey, hne⟩, hsaved⟩

theorem handledBatch_prepared {s : State Obj} {keyField : Option String} {evt : ChangeEvent Obj} {b : Batch Obj}
    (h : handledBatch s keyField evt = some b) : prepare keyField evt = .ok b := by
  unfold handledBatch at h
  split at h
  · rename_i n b' hsync hb
    split at h
    · cases h
    · cases h
      exact hb
  · cases h

theorem deliver_spares_iff (evt : ChangeEvent Obj) (o : Outcome) :
    RowsSpareRecords config r (.deliver evt o) ↔ Spared config r (.deliver evt o) := by
  constructor
  · intro h keyField storeName hconfig hhandled row key hkey
    obtain ⟨b, hb⟩ := Option.isSome_iff_exists.1 hhandled
    have hwrites : r.writes config (.deliver evt o) = some (storeName, (o.applied b).writes.map (fun w => ⟨.rows, w.1, w.2⟩) ++
        if o.exceptions b = 0 ∧ o.saveSyncPoint = true then [syncPointWrite evt.queryId evt.sequence] else []) := by
      simp [writes, hconfig, hb]
    have hspare : ∀ value, (key, value) ∈ (o.applied b).writes → ¬IsRecord config storeName key := by
      intro value hmem
      exact h storeName _ hwrites ⟨.rows, key, value⟩
        (List.mem_append_left _ (List.mem_map.2 ⟨(key, value), hmem, rfl⟩)) rfl
    constructor
    · intro hmem hdeleted
      obtain ⟨value, hw⟩ := (mem_applied (handledBatch_prepared hb) o key).2 ⟨row, hkey, Or.inl ⟨hmem, hdeleted⟩⟩
      exact hspare value hw
    · intro hmem hsaved hne
      obtain ⟨value, hw⟩ := (mem_applied (handledBatch_prepared hb) o key).2 ⟨row, hkey, Or.inr ⟨hmem, hsaved, hne⟩⟩
      exact hspare value hw
  · intro h storeName ws hws w hw hcaller
    simp only [writes] at hws
    split at hws
    · rename_i keyField storeName' hconfig
      obtain ⟨b, hb, heq⟩ := Option.map_eq_some_iff.1 hws
      cases heq
      rcases List.mem_append.1 hw with hw | hw
      · obtain ⟨⟨key, value⟩, hmem, rfl⟩ := List.mem_map.1 hw
        obtain ⟨row, hkey, ⟨hrow, hdeleted⟩ | ⟨hrow, hsaved, hne⟩⟩ :=
          (mem_applied (handledBatch_prepared hb) o key).1 ⟨value, hmem⟩
        · exact (h keyField _ hconfig (by rw [hb]; rfl) row key hkey).1 hrow hdeleted
        · exact (h keyField _ hconfig (by rw [hb]; rfl) row key hkey).2 hrow hsaved hne
      · split at hw
        · cases List.mem_singleton.1 hw
          cases hcaller
        · cases hw
    · cases hws

omit [ToString Obj] in
theorem mem_savedItems {saveBulk : Option (String → Bool)} {items : List (Option String × Row Obj)} {key : String}
    {row : Row Obj} : (key, row) ∈ savedItems saveBulk items ↔
      (some key, row) ∈ items ∧ (saveBulk.map fun saved => saved key).getD true = true := by
  rw [savedItems, List.mem_filter, List.mem_filterMap]
  refine and_congr_left' ?_
  constructor
  · rintro ⟨⟨key', row'⟩, hmem, heq⟩
    obtain ⟨k, rfl, heq⟩ := Option.map_eq_some_iff.1 heq
    cases heq
    exact hmem
  · intro hmem
    exact ⟨_, hmem, rfl⟩

/-- the items that are read are those of the rows behind the header -/
theorem mem_readView {queryName : String} {keyField : Option String} {o : InitOutcome Obj} {n : Int}
    {items : List (Option String × Row Obj)} (h : readView queryName keyField o = .ok (n, items)) (key : String)
    (row : Row Obj) : (some key, row) ∈ items ↔
      ∃ item ∈ o.view.tail, item.data = some row ∧ itemKey keyField row = .ok (some key) := by
  rw [readView] at h
  cases hview : o.view with
  | nil =>
    rw [hview] at h
    cases h
  | cons first stream =>
    obtain ⟨header, data⟩ := first
    rw [hview] at h
    cases header with
    | none => cases h
    | some sequence =>
      cases hbuild : buildListOfItemsToSave keyField stream with
      | error err =>
        simp only [getQuerySyncPointFromHeader, bind, Except.bind, hbuild] at h
        cases h
      | ok built =>
        simp only [getQuerySyncPointFromHeader, bind, Except.bind, hbuild] at h
        split at h
        · cases h
          exact mem_buildList hbuild key row
        · cases h

theorem rowWrites_of_sync (queryName : String) (keyField : Option String) (o : InitOutcome Obj) {n : Int}
    {items : List (Option String × Row Obj)} (h : readView queryName keyField o = .ok (n, items)) :
    (performInitialSyncForQuery queryName keyField o).1 =
      (savedItems o.saveBulk items).map fun i => ⟨.rows, i.1, some (.row i.2)⟩ := by
  rw [performInitialSyncForQuery, h]
  dsimp only
  split <;> rfl

/-- the rows that an initialization writes are those of its initial sync -/
theorem mem_initializeQuery {queryConfig : QueryConfig} {s : State Obj} {queryName : String} {o : InitOutcome Obj}
    {w : StoreWrite Obj} (hcaller : w.caller = .rows) :
    w ∈ (SyncStateStore.initializeQuery queryConfig s queryName o).1 ↔
      beforeSync queryConfig s queryName o = .ok none ∧
        w ∈ (performInitialSyncForQuery queryName queryConfig.keyField o).1 := by
  rw [SyncStateStore.initializeQuery]
  cases hbefore : beforeSync queryConfig s queryName o with
  | error err => simp
  | ok loaded =>
    cases loaded with
    | some n => simp
    | none =>
      obtain ⟨ws, result⟩ := performInitialSyncForQuery queryName queryConfig.keyField o
      cases result with
      | error err => simp
      | ok n =>
        cases hsave : o.saveSyncPoint with
        | false => simp
        | true =>
          have hne : w ≠ syncPointWrite queryName n := by
            rintro rfl
            cases hcaller
          simp [hne]

theorem initialize_spares_iff (queryName : String) (o : InitOutcome Obj) :
    RowsSpareRecords config r (.initializeQuery queryName o) ↔ Spared config r (.initializeQuery queryName o) := by
  constructor
  · intro h keyField storeName hconfig hbefore hread item hitem row hrow key hkey hsaved
    cases hview : readView queryName keyField o with
    | error err =>
      rw [hview] at hread
      cases hread
    | ok synced =>
      obtain ⟨n, items⟩ := synced
      have hmem : (some key, row) ∈ items := (mem_readView hview key row).2 ⟨item, hitem, hrow, hkey⟩
      have hwrite : (⟨.rows, key, some (.row row)⟩ : StoreWrite Obj) ∈
          (performInitialSyncForQuery queryName keyField o).1 := by
        rw [rowWrites_of_sync queryName keyField o hview]
        exact List.mem_map.2 ⟨(key, row), mem_savedItems.2 ⟨hmem, hsaved⟩, rfl⟩
      refine h storeName (SyncStateStore.initializeQuery ⟨keyField, some storeName⟩ (r.view storeName) queryName o).1 ?_
        ⟨.rows, key, some (.row row)⟩ ((mem_initializeQuery rfl).2 ⟨hbefore, hwrite⟩) rfl
      simp [writes, hconfig]
  · intro h storeName ws hws w hw hcaller
    simp only [writes] at hws
    split at hws
    · rename_i keyField storeName' hconfig
      cases hws
      obtain ⟨hbefore, hw⟩ := (mem_initializeQuery hcaller).1 hw
      cases hview : readView queryName keyField o with
      | error err =>
        rw [performInitialSyncForQuery, hview] at hw
        cases hw
      | ok synced =>
        obtain ⟨n, items⟩ := synced
        rw [rowWrites_of_sync queryName keyField o hview] at hw
        obtain ⟨⟨key, row⟩, hsaved, rfl⟩ := List.mem_map.1 hw
        obtain ⟨hmem, hsaved⟩ := mem_savedItems.1 hsaved
        obtain ⟨item, hitem, hrow, hkey⟩ := (mem_readView hview key row).1 hmem
        exact h keyField _ hconfig hbefore (by rw [hview]; rfl) item hitem row hrow key hkey hsaved
    · cases hws

theorem spares_iff (r : Reaction Obj) (op : ReactionOp Obj) : RowsSpareRecords config r op ↔ Spared config r op := by
  cases op with
  | deliver evt o => exact deliver_spares_iff evt o
  | initializeQuery queryName o => exact initialize_spares_iff queryName o
  | restart => exact iff_of_true (fun _ _ h => by cases h) trivial

end Spared

/-! ## Runs of the reaction -/

/-- where the rows spare the records, a record is as it was, or as the manager has written it -/
theorem step_record {r : Reaction Obj} {op : ReactionOp Obj} (h : RowsSpareRecords config r op) {storeName key : String}
    (hrecord : IsRecord config storeName key) :
    (r.step config op).stores storeName key = r.stores storeName key ∨
      ∃ ws, r.writes config op = some (storeName, ws) ∧
        ⟨.syncPointManager, key, (r.step config op).stores storeName key⟩ ∈ ws := by
  rw [step_stores]
  cases hwrites : r.writes config op with
  | none => exact Or.inl rfl
  | some storeWrites =>
    obtain ⟨storeName', ws⟩ := storeWrites
    by_cases hstore : storeName = storeName'
    · subst hstore
      dsimp only
      rw [Function.update_self, applyWrites, Writes.apply_eq]
      cases hlast : Writes.last key (ws.map fun w => (w.key, w.value)) with
      | none => exact Or.inl rfl
      | some value =>
        right
        obtain ⟨⟨caller, key', value'⟩, hw, heq⟩ := List.mem_map.1 (Writes.mem_of_last hlast)
        cases heq
        cases caller with
        | rows => exact absurd hrecord (h storeName ws hwrites _ hw rfl)
        | syncPointManager => exact ⟨ws, rfl, hw⟩
    · left
      dsimp only
      rw [Function.update_of_ne hstore]

variable (config) in
/-- **The records belong to the manager.** In every run of the reaction, from any contents of the stores, no row is written
to or deleted from a sync point record in any step if and only if all steps spare the records. -/
theorem records_kept_iff (r : Reaction Obj) (ops : List (ReactionOp Obj)) :
    Meets (step config) (RowsSpareRecords config) r ops ↔ Meets (step config) (Spared config) r ops :=
  meets_congr (fun _ => True) (fun r op _ => spares_iff r op) (fun _ _ _ _ => trivial) trivial ops

/-- a query whose sync point is at 5, and an event that deletes a row under the key of the sync point -/
def deletedRecord : List (ReactionOp String) :=
  [.initializeQuery "q" ⟨true, true, true, [⟨some 5, none⟩], true, none, true⟩,
    .deliver ⟨"q", 6, none, none, some [some [("id", some (getSyncPointKeyForQuery "q"))]]⟩ ⟨none, fun _ => .done, true⟩]

/-- the deletion of the row removes the record -/
theorem deleted_row_removes_record :
    ¬Meets (step fun q => if q = "q" then some ⟨some "id", some "store"⟩ else none)
      (RowsSpareRecords fun q => if q = "q" then some ⟨some "id", some "store"⟩ else none)
      ⟨fun _ _ => none, fun _ => none⟩ deletedRecord := by
  rintro ⟨-, h, -⟩
  refine h "store" _ rfl ⟨.rows, getSyncPointKeyForQuery "q", none⟩ List.mem_cons_self rfl ?_
  exact ⟨"q", some "id", rfl, rfl⟩

end Reaction

end DrasiPlatform.SyncStateStore
