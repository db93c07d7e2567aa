/-
A published result event in the three reaction SDKs: `ResultEvent` of `query-host/src/api.rs` as `serde` writes it, and what
`ProcessEvent` of the .NET SDK (`Reaction.cs`, `Models.generated.cs`), `handler` of the Python SDK (`sdk.py` and its models)
and `onMessage` of the JavaScript SDK (`index.ts`) call the handlers of a reaction with.

The event is the JSON value of the message; an object holds one value for each of its names. The generated classes say
which properties are read; what `System.Text.Json` and `pydantic` do with a property of a type is written out, but for `coerce`,
what `pydantic` makes of a value that is no integer where it wants one.

- `dotNet_published`: the .NET SDK reads an event exactly when its two numbers fit a `long`, and then has its rows and its
  metadata; of an event without results no handler hears.
- `python_published`: the Python SDK reads every event.
- `handlers_called`: the three together, with the configuration of the query.
The keys of a grouping are `grouping_keys` on the wire and `groupingKeys` in the models, so they reach no handler that goes by
the models (`groupingKeys_lost`).
-/
import Mathlib.Tactic
import DrasiPlatform.Cli.WatchStream
import DrasiPlatform.Reactions.QueryHub

namespace DrasiPlatform.EventWire

open Json
open Cli.WatchStream (Fields ResultEvent ResultChangeEvent ResultControlEvent UpdatePayload ControlSignal rowsJson number)
open SignalR (ControlSignalKind)

variable {α C : Type}

/-- a property that may be absent -/
def readField (o : Fields) (name : String) (absent : Except String α) (read : Value → Except String α) : Except String α :=
  match o.lookup name with
  | none => absent
  | some v => read v

def readAll (read : Value → Except String α) : List Value → Except String (List α)
  | [] => .ok []
  | v :: a => do
    let x ← read v
    let xs ← readAll read a
    return x :: xs

theorem readAll_map {β : Type} {read : Value → Except String α} {json : β → Value} {f : β → α}
    (h : ∀ b, read (json b) = .ok (f b)) (l : List β) : readAll read (l.map json) = .ok (l.map f) := by
  induction l with
  | nil => rfl
  | cons b l ih =>
    rw [List.map_cons, readAll, h, ih]
    rfl

/-! ## The results of a query (`ResultEvent::from_query_results`) -/

section

variable {V : Type}

/-- the variables of a row, in the order of their names -/
abbrev QueryVariables (V : Type) := List (String × V)

/-- `drasi_core`'s evaluation of a part of a query -/
inductive QueryPartEvaluationContext (V : Type) where
  | adding (after : QueryVariables V)
  | updating (before after : QueryVariables V)
  | removing (before : QueryVariables V)
  | aggregation (before : Option (QueryVariables V)) (after : QueryVariables V) (groupingKeys : List String)
  | noop

variable (json : V → Value)

def variablesToJson (source : QueryVariables V) : Fields := source.map fun v => (v.1, json v.2)

/-- one turn of the loop over the contexts -/
def pushContext (event : ResultChangeEvent) : QueryPartEvaluationContext V → ResultChangeEvent
  | .adding after => { event with addedResults := event.addedResults ++ [variablesToJson json after] }
  | .updating before after =>
    { event with
      updatedResults := event.updatedResults ++
        [⟨some (variablesToJson json before), some (variablesToJson json after), none⟩] }
  | .removing before => { event with deletedResults := event.deletedResults ++ [variablesToJson json before] }
  | .aggregation before after groupingKeys =>
    { event with
      updatedResults := event.updatedResults ++
        [⟨before.map (variablesToJson json), some (variablesToJson json after), some groupingKeys⟩] }
  | .noop => event

def fromQueryResults (queryId : String) (data : List (QueryPartEvaluationContext V)) (sequence sourceTimeMs : UInt64)
    (metadata : Option Fields) : ResultChangeEvent :=
  data.foldl (pushContext json) ⟨queryId, sequence, sourceTimeMs, [], [], [], metadata⟩

namespace QueryPartEvaluationContext

def added : QueryPartEvaluationContext V → List Fields
  | .adding after => [variablesToJson json after]
  | _ => []

def updated : QueryPartEvaluationContext V → List UpdatePayload
  | .updating before after => [⟨some (variablesToJson json before), some (variablesToJson json after), none⟩]
  | .aggregation before after groupingKeys =>
    [⟨before.map (variablesToJson json), some (variablesToJson json after), some groupingKeys⟩]
  | _ => []

def removed : QueryPartEvaluationContext V → List Fields
  | .removing before => [variablesToJson json before]
  | _ => []

end QueryPartEvaluationContext

/-- the event has the results of every kind, in the order of the contexts -/
theorem fromQueryResults_eq (queryId : String) (data : List (QueryPartEvaluationContext V)) (sequence sourceTimeMs : UInt64)
    (metadata : Option Fields) : fromQueryResults json queryId data sequence sourceTimeMs metadata =
      ⟨queryId, sequence, sourceTimeMs, data.flatMap (·.added json), data.flatMap (·.updated json),
        data.flatMap (·.removed json), metadata⟩ := by
  have hfold : ∀ (data : List (QueryPartEvaluationContext V)) (event : ResultChangeEvent),
      data.foldl (pushContext json) event =
        { event with
          addedResults := event.addedResults ++ data.flatMap (·.added json)
          updatedResults := event.updatedResults ++ data.flatMap (·.updated json)
          deletedResults := event.deletedResults ++ data.flatMap (·.removed json) } := by
    intro data
    induction data with
    | nil => exact fun event => by simp
    | cons context data ih =>
      intro event
      rw [List.foldl_cons, ih]
      cases context <;> simp [pushContext, QueryPartEvaluationContext.added, QueryPartEvaluationContext.updated,
        QueryPartEvaluationContext.removed]
  exact hfold data _

end

/-! ## .NET -/

namespace DotNet

/-- what is absent or null is `none` -/
structure UpdatedResultElement where
  before : Option Fields
  after : Option Fields
  groupingKeys : Option (List (Option String))

structure ChangeEvent where
  queryId : Option String
  sequence : Int
  sourceTimeMs : Int
  addedResults : Option (List (Option Fields))
  updatedResults : Option (List (Option UpdatedResultElement))
  deletedResults : Option (List (Option Fields))
  metadata : Option Fields

structure ControlEvent where
  queryId : Option String
  sequence : Int
  sourceTimeMs : Int
  metadata : Option Fields
  controlSignal : Option ControlSignalKind

/-! ### The converters -/

def readLong : Value → Except String Int
  | .number (.posInt n) => if n.toNat < 2 ^ 63 then .ok n.toNat else .error "JsonException"
  | .number (.negInt n) => .ok n.toInt
  | _ => .error "JsonException"

def readString : Value → Except String (Option String)
  | .null => .ok none
  | .string s => .ok (some s)
  | _ => .error "JsonException"

/-- a class or a dictionary -/
def readObject (read : Fields → Except String α) : Value → Except String (Option α)
  | .null => .ok none
  | .object o => (read o).map some
  | _ => .error "JsonException"

def readArray (read : Value → Except String α) : Value → Except String (Option (List α))
  | .null => .ok none
  | .array a => (readAll read a).map some
  | _ => .error "JsonException"

/-- `ChangeEventKindConverter` and `ControlEventKindConverter`, for the only text they know -/
def readKind (text : String) (v : Value) : Except String Unit :=
  if v.eqStr text then .ok () else .error "Cannot unmarshal type"

/-- `ControlSignalKindConverter` -/
def readSignalKind : Value → Except String ControlSignalKind
  | .string "bootstrapCompleted" => .ok .bootstrapCompleted
  | .string "bootstrapStarted" => .ok .bootstrapStarted
  | .string "deleted" => .ok .deleted
  | .string "running" => .ok .running
  | .string "stopped" => .ok .stopped
  | _ => .error "Cannot unmarshal type ControlSignalKind"

/-! ### The classes -/

def readRows : Value → Except String (Option (List (Option Fields))) := readArray (readObject .ok)

def readUpdated (o : Fields) : Except String UpdatedResultElement := do
  let before ← readField o "before" (.ok none) (readObject .ok)
  let after ← readField o "after" (.ok none) (readObject .ok)
  let groupingKeys ← readField o "groupingKeys" (.ok none) (readArray readString)
  return ⟨before, after, groupingKeys⟩

def readChangeEvent (o : Fields) : Except String ChangeEvent := do
  let _ ← readField o "kind" (.ok ()) (readKind "change")
  let queryId ← readField o "queryId" (.ok none) readString
  let sequence ← readField o "sequence" (.ok 0) readLong
  let sourceTimeMs ← readField o "sourceTimeMs" (.ok 0) readLong
  let addedResults ← readField o "addedResults" (.ok none) readRows
  let updatedResults ← readField o "updatedResults" (.ok none) (readArray (readObject readUpdated))
  let deletedResults ← readField o "deletedResults" (.ok none) readRows
  let metadata ← readField o "metadata" (.ok none) (readObject .ok)
  return ⟨queryId, sequence, sourceTimeMs, addedResults, updatedResults, deletedResults, metadata⟩

/-- the first kind of the enumeration where none is given -/
def readSignal (o : Fields) : Except String ControlSignalKind :=
  readField o "kind" (.ok .bootstrapCompleted) readSignalKind

def readControlEvent (o : Fields) : Except String ControlEvent := do
  let _ ← readField o "kind" (.ok ()) (readKind "control")
  let queryId ← readField o "queryId" (.ok none) readString
  let sequence ← readField o "sequence" (.ok 0) readLong
  let sourceTimeMs ← readField o "sourceTimeMs" (.ok 0) readLong
  let metadata ← readField o "metadata" (.ok none) (readObject .ok)
  let controlSignal ← readField o "controlSignal" (.ok none) (readObject readSignal)
  return ⟨queryId, sequence, sourceTimeMs, metadata, controlSignal⟩

/-! ### `ProcessEvent` -/

/-- a call of a handler of the reaction -/
inductive Call (C : Type) where
  | change (evt : ChangeEvent) (queryConfig : Option C)
  | control (evt : ControlEvent) (queryConfig : Option C)

/-- `Length` of an array, which may be null -/
def length {β : Type} : Option (List β) → Except String ℕ
  | none => .error "NullReferenceException"
  | some a => .ok a.length

def hasResults (evt : ChangeEvent) : Except String Bool := do
  let added ← length evt.addedResults
  if added ≠ 0 then return true
  let deleted ← length evt.deletedResults
  if deleted ≠ 0 then return true
  let updated ← length evt.updatedResults
  return updated ≠ 0

/-- `GetValueOrDefault` -/
def queryConfig (queriesConfig : String → Option C) : Option String → Except String (Option C)
  | none => .error "ArgumentNullException"
  | some queryId => .ok (queriesConfig queryId)

/-- the handler that is called, if any -/
def processEvent (queriesConfig : String → Option C) : Value → Except String (Option (Call C))
  | .object evt =>
    match evt.lookup "kind" with
    | some (.string "change") => do
      let changeEvt ← readChangeEvent evt
      let queryCfg ← queryConfig queriesConfig changeEvt.queryId
      return if ← hasResults changeEvt then some (.change changeEvt queryCfg) else none
    | some (.string "control") => do
      let controlEvt ← readControlEvent evt
      let queryCfg ← queryConfig queriesConfig controlEvt.queryId
      return some (.control controlEvt queryCfg)
    | some (.string _) => .ok none
    | some .null => .ok none
    | some _ => .error "InvalidOperationException"
    | none => .error "KeyNotFoundException"
  | _ => .error "InvalidOperationException"

end DotNet

/-! ## Python -/

namespace Python

/-- `RecordUnknown` -/
abbrev RecordUnknown := Option Fields

structure Update where
  before : RecordUnknown
  after : RecordUnknown

structure ChangeEvent where
  queryId : String
  sequence : Int
  sourceTimeMs : Int
  metadata : Option Fields
  addedResults : List RecordUnknown
  updatedResults : List Update
  deletedResults : List RecordUnknown

structure ControlEvent where
  queryId : String
  sequence : Int
  sourceTimeMs : Int
  metadata : Option Fields
  controlSignal : String

def required : Except String α := .error "Field required"

def readInt (coerce : Value → Option Int) : Value → Except String Int
  | .number (.posInt n) => .ok n.toNat
  | .number (.negInt n) => .ok n.toInt
  | v => match coerce v with
    | some n => .ok n
    | none => .error "Input should be a valid integer"

def readStr : Value → Except String String
  | .string s => .ok s
  | _ => .error "Input should be a valid string"

def readLiteral (text : String) (v : Value) : Except String Unit :=
  if v.eqStr text then .ok () else .error "Input should be the literal"

def readRecord : Value → Except String RecordUnknown
  | .null => .ok none
  | .object o => .ok (some o)
  | _ => .error "Input should be a valid dictionary"

def readList (read : Value → Except String α) : Value → Except String (List α)
  | .array a => readAll read a
  | _ => .error "Input should be a valid list"

def readUpdate : Value → Except String Update
  | .object o => do
    let before ← readField o "before" required readRecord
    let after ← readField o "after" required readRecord
    return ⟨before, after⟩
  | _ => .error "Input should be a valid dictionary"

/-- `ChangeEvent.model_validate` -/
def readChangeEvent (coerce : Value → Option Int) (o : Fields) : Except String ChangeEvent := do
  let _ ← readField o "kind" required (readLiteral "change")
  let queryId ← readField o "queryId" required readStr
  let sequence ← readField o "sequence" required (readInt coerce)
  let sourceTimeMs ← readField o "sourceTimeMs" required (readInt coerce)
  let metadata ← readField o "metadata" (.ok none) readRecord
  let addedResults ← readField o "addedResults" required (readList readRecord)
  let updatedResults ← readField o "updatedResults" required (readList readUpdate)
  let deletedResults ← readField o "deletedResults" required (readList readRecord)
  return ⟨queryId, sequence, sourceTimeMs, metadata, addedResults, updatedResults, deletedResults⟩

def readSignal : Value → Except String String
  | .object o => readField o "kind" required readStr
  | _ => .error "Input should be a valid dictionary"

/-- `ControlEvent.model_validate` -/
def readControlEvent (coerce : Value → Option Int) (o : Fields) : Except String ControlEvent := do
  let _ ← readField o "kind" required (readLiteral "control")
  let queryId ← readField o "queryId" required readStr
  let sequence ← readField o "sequence" required (readInt coerce)
  let sourceTimeMs ← readField o "sourceTimeMs" required (readInt coerce)
  let metadata ← readField o "metadata" (.ok none) readRecord
  let controlSignal ← readField o "controlSignal" required readSignal
  return ⟨queryId, sequence, sourceTimeMs, metadata, controlSignal⟩

inductive Call (C : Type) where
  | change (data : ChangeEvent) (queryConfig : Option C)
  | control (data : ControlEvent) (queryConfig : Option C)

/-- `dict.get`, which hashes the key -/
def queryConfig (queryConfigs : String → Option C) : Option Value → Except String (Option C)
  | some (.string queryId) => .ok (queryConfigs queryId)
  | some (.array _) => .error "TypeError"
  | some (.object _) => .error "TypeError"
  | _ => .ok none

/-- `handler`, in a reaction with or without `on_control_event` -/
def handler (coerce : Value → Option Int) (onControlEvent : Bool) (queryConfigs : String → Option C) :
    Value → Except String (Option (Call C))
  | .object data => do
    let config ← queryConfig queryConfigs (data.lookup "queryId")
    match data.lookup "kind" with
    | some (.string "change") =>
      let changeData ← readChangeEvent coerce data
      return some (.change changeData config)
    | some (.string "control") =>
      if onControlEvent then
        let controlData ← readControlEvent coerce data
        return some (.control controlData config)
      else return none
    | _ => return none
  | _ => .error "AttributeError"

end Python

/-! ## JavaScript -/

namespace JavaScript

inductive Call (C : Type) where
  | change (event : Value) (queryConfig : Option C)
  | control (event : Value) (queryConfig : Option C)

/-- `onMessage`: the message is handed on as it is -/
def onMessage (onControlEvent : Bool) (queryConfig : String → Option C) : Value → Except String (Option (Call C))
  | .null => .error "TypeError"
  | data =>
    let config := (data.get "queryId").asStr.bind queryConfig
    if (data.get "kind").eqStr "change" then .ok (some (.change data config))
    else if (data.get "kind").eqStr "control" && onControlEvent then .ok (some (.control data config))
    else .ok none

end JavaScript

/-! ## What is made of a published event -/

def queryIdOf : ResultEvent → String
  | .change e => e.queryId
  | .control e => e.queryId

def sequenceOf : ResultEvent → UInt64
  | .change e => e.sequence
  | .control e => e.sequence

def sourceTimeOf : ResultEvent → UInt64
  | .change e => e.sourceTimeMs
  | .control e => e.sourceTimeMs

def ofSignal : ControlSignal → ControlSignalKind
  | .bootstrapStarted => .bootstrapStarted
  | .bootstrapCompleted => .bootstrapCompleted
  | .running => .running
  | .stopped => .stopped
  | .queryDeleted => .deleted

theorem readField_eq {o : Fields} {name : String} {v : Value} (h : o.lookup name = some v) (absent : Except String α)
    (read : Value → Except String α) : readField o name absent read = read v := by
  rw [readField, h]

namespace DotNet

def ofChange (e : ResultChangeEvent) : ChangeEvent where
  queryId := some e.queryId
  sequence := e.sequence.toNat
  sourceTimeMs := e.sourceTimeMs.toNat
  addedResults := some (e.addedResults.map some)
  updatedResults := some (e.updatedResults.map fun p => some ⟨p.before, p.after, none⟩)
  deletedResults := some (e.deletedResults.map some)
  metadata := e.metadata

def ofControl (e : ResultControlEvent) : ControlEvent where
  queryId := some e.queryId
  sequence := e.sequence.toNat
  sourceTimeMs := e.sourceTimeMs.toNat
  metadata := e.metadata
  controlSignal := some (ofSignal e.controlSignal)

/-- both numbers are within a `long` -/
def Fits (sequence sourceTimeMs : UInt64) : Prop := sequence.toNat < 2 ^ 63 ∧ sourceTimeMs.toNat < 2 ^ 63

instance (sequence sourceTimeMs : UInt64) : Decidable (Fits sequence sourceTimeMs) := by unfold Fits; infer_instance

theorem readRows_json (rows : List Fields) : readRows (rowsJson rows) = .ok (some (rows.map some)) := by
  rw [readRows, rowsJson, readArray, readAll_map (f := some) fun _ => rfl]
  rfl

theorem readDictionary_json (row : Option Fields) : readObject .ok (optionJson .object row) = .ok row := by
  cases row <;> rfl

theorem readUpdated_json (p : UpdatePayload) : readObject readUpdated p.json = .ok (some ⟨p.before, p.after, none⟩) := by
  rw [UpdatePayload.json, readObject, readUpdated, readField_eq rfl, readField_eq rfl, readDictionary_json,
    readDictionary_json]
  rfl

theorem readUpdates_json (updates : List UpdatePayload) :
    readArray (readObject readUpdated) (.array (updates.map UpdatePayload.json)) =
      .ok (some (updates.map fun p => some ⟨p.before, p.after, none⟩)) := by
  rw [readArray, readAll_map readUpdated_json]
  rfl

theorem readLong_ok {n : UInt64} (h : n.toNat < 2 ^ 63) : readLong (number n) = .ok (n.toNat : Int) := if_pos h

theorem readLong_error {n : UInt64} (h : ¬ n.toNat < 2 ^ 63) : readLong (number n) = .error "JsonException" := if_neg h

theorem readChangeEvent_published (e : ResultChangeEvent) : readChangeEvent (ResultEvent.change e).fields =
    if Fits e.sequence e.sourceTimeMs then .ok (ofChange e) else .error "JsonException" := by
  rw [readChangeEvent, readField_eq rfl, readField_eq rfl, readField_eq rfl, readField_eq rfl, readField_eq rfl,
    readField_eq rfl, readField_eq rfl, readField_eq rfl, readRows_json, readUpdates_json, readRows_json,
    readDictionary_json]
  by_cases hsequence : e.sequence.toNat < 2 ^ 63
  · by_cases htime : e.sourceTimeMs.toNat < 2 ^ 63
    · rw [readLong_ok hsequence, readLong_ok htime, if_pos ⟨hsequence, htime⟩]
      rfl
    · rw [readLong_ok hsequence, readLong_error htime, if_neg fun h => htime h.2]
      rfl
  · rw [readLong_error hsequence, if_neg fun h => hsequence h.1]
    rfl

theorem readSignal_published (signal : ControlSignal) :
    readObject readSignal (.object [("kind", .string signal.kind)]) = .ok (some (ofSignal signal)) := by
  cases signal <;> rfl

theorem readControlEvent_published (e : ResultControlEvent) : readControlEvent (ResultEvent.control e).fields =
    if Fits e.sequence e.sourceTimeMs then .ok (ofControl e) else .error "JsonException" := by
  rw [readControlEvent, readField_eq rfl, readField_eq rfl, readField_eq rfl, readField_eq rfl, readField_eq rfl,
    readField_eq rfl, readDictionary_json, readSignal_published]
  by_cases hsequence : e.sequence.toNat < 2 ^ 63
  · by_cases htime : e.sourceTimeMs.toNat < 2 ^ 63
    · rw [readLong_ok hsequence, readLong_ok htime, if_pos ⟨hsequence, htime⟩]
      rfl
    · rw [readLong_ok hsequence, readLong_error htime, if_neg fun h => htime h.2]
      rfl
  · rw [readLong_error hsequence, if_neg fun h => hsequence h.1]
    rfl

/-- the keys of a grouping are under another name, and not read -/
theorem groupingKeys_lost {e : ResultChangeEvent} {evt : ChangeEvent}
    (h : readChangeEvent (ResultEvent.change e).fields = .ok evt) :
    ∀ u ∈ evt.updatedResults.getD [], ∀ updated, u = some updated → updated.groupingKeys = none := by
  rw [readChangeEvent_published] at h
  split_ifs at h
  rw [← Except.ok.inj h]
  intro u hu updated hupdated
  obtain ⟨p, -, rfl⟩ := List.mem_map.1 hu
  rw [← Option.some.inj hupdated]

/-! ### `ProcessEvent` of a published event -/

/-- an event with results -/
def hasRows (e : ResultChangeEvent) : Prop := e.addedResults ≠ [] ∨ e.deletedResults ≠ [] ∨ e.updatedResults ≠ []

instance (e : ResultChangeEvent) : Decidable (hasRows e) := by unfold hasRows; infer_instance

/-- an event has results exactly when some part of the query has changed -/
theorem hasRows_fromQueryResults_iff {V : Type} (json : V → Value) (queryId : String)
    (data : List (QueryPartEvaluationContext V)) (sequence sourceTimeMs : UInt64) (metadata : Option Fields) :
    hasRows (fromQueryResults json queryId data sequence sourceTimeMs metadata) ↔ ∃ context ∈ data, context ≠ .noop := by
  rw [fromQueryResults_eq, hasRows]
  simp only [ne_eq, List.flatMap_eq_nil_iff, not_forall, ← exists_or, exists_prop, ← and_or_left]
  refine exists_congr fun context => and_congr_right fun _ => ?_
  cases context <;> simp [QueryPartEvaluationContext.added, QueryPartEvaluationContext.updated,
    QueryPartEvaluationContext.removed]

theorem hasResults_ofChange (e : ResultChangeEvent) : hasResults (ofChange e) = .ok (decide (hasRows e)) := by
  obtain ⟨queryId, sequence, sourceTimeMs, added, updated, deleted, metadata⟩ := e
  cases added with
  | cons => rfl
  | nil =>
    cases deleted with
    | cons => rfl
    | nil => cases updated <;> rfl

def call (queriesConfig : String → Option C) : ResultEvent → Option (Call C)
  | .change e => if hasRows e then some (.change (ofChange e) (queriesConfig e.queryId)) else none
  | .control e => some (.control (ofControl e) (queriesConfig e.queryId))

/-- **What .NET makes of a published event.** -/
theorem processEvent_published (queriesConfig : String → Option C) (e : ResultEvent) :
    processEvent queriesConfig (.object e.fields) =
      if Fits (sequenceOf e) (sourceTimeOf e) then .ok (call queriesConfig e) else .error "JsonException" := by
  cases e with
  | change e =>
    have hkind : (ResultEvent.change e).fields.lookup "kind" = some (.string "change") := rfl
    have hread := readChangeEvent_published e
    by_cases hfits : Fits e.sequence e.sourceTimeMs
    · rw [if_pos hfits] at hread
      have hresults : hasResults (ofChange e) = .ok (decide (hasRows e)) := hasResults_ofChange e
      have hconfig : queryConfig queriesConfig (ofChange e).queryId = .ok (queriesConfig e.queryId) := rfl
      rw [sequenceOf, sourceTimeOf, if_pos hfits, call]
      simp only [processEvent, hkind, hread, hresults, hconfig, bind, Except.bind, pure, Except.pure, decide_eq_true_eq]
    · rw [if_neg hfits] at hread
      rw [sequenceOf, sourceTimeOf, if_neg hfits]
      simp only [processEvent, hkind, hread]
      rfl
  | control e =>
    have hkind : (ResultEvent.control e).fields.lookup "kind" = some (.string "control") := rfl
    have hread := readControlEvent_published e
    by_cases hfits : Fits e.sequence e.sourceTimeMs
    · rw [if_pos hfits] at hread
      rw [sequenceOf, sourceTimeOf, if_pos hfits]
      simp only [processEvent, hkind, hread]
      rfl
    · rw [if_neg hfits] at hread
      rw [sequenceOf, sourceTimeOf, if_neg hfits]
      simp only [processEvent, hkind, hread]
      rfl

end DotNet

namespace Python

def ofChange (e : ResultChangeEvent) : ChangeEvent where
  queryId := e.queryId
  sequence := e.sequence.toNat
  sourceTimeMs := e.sourceTimeMs.toNat
  metadata := e.metadata
  addedResults := e.addedResults.map some
  updatedResults := e.updatedResults.map fun p => ⟨p.before, p.after⟩
  deletedResults := e.deletedResults.map some

def ofControl (e : ResultControlEvent) : ControlEvent where
  queryId := e.queryId
  sequence := e.sequence.toNat
  sourceTimeMs := e.sourceTimeMs.toNat
  metadata := e.metadata
  controlSignal := e.controlSignal.kind

theorem readRecord_json (row : Option Fields) : readRecord (optionJson .object row) = .ok row := by
  cases row <;> rfl

theorem readRows_json (rows : List Fields) : readList readRecord (rowsJson rows) = .ok (rows.map some) := by
  rw [rowsJson, readList, readAll_map (f := some) fun _ => rfl]

theorem readUpdate_json (p : UpdatePayload) : readUpdate p.json = .ok ⟨p.before, p.after⟩ := by
  rw [UpdatePayload.json, readUpdate, readField_eq rfl, readField_eq rfl, readRecord_json, readRecord_json]
  rfl

theorem readUpdates_json (updates : List UpdatePayload) :
    readList readUpdate (.array (updates.map UpdatePayload.json)) = .ok (updates.map fun p => ⟨p.before, p.after⟩) := by
  rw [readList, readAll_map readUpdate_json]

theorem readChangeEvent_published (coerce : Value → Option Int) (e : ResultChangeEvent) :
    readChangeEvent coerce (ResultEvent.change e).fields = .ok (ofChange e) := by
  rw [readChangeEvent, readField_eq rfl, readField_eq rfl, readField_eq rfl, readField_eq rfl, readField_eq rfl,
    readField_eq rfl, readField_eq rfl, readField_eq rfl, readRows_json, readUpdates_json, readRows_json, readRecord_json]
  rfl

theorem readControlEvent_published (coerce : Value → Option Int) (e : ResultControlEvent) :
    readControlEvent coerce (ResultEvent.control e).fields = .ok (ofControl e) := by
  rw [readControlEvent, readField_eq rfl, readField_eq rfl, readField_eq rfl, readField_eq rfl, readField_eq rfl,
    readField_eq rfl, readRecord_json]
  rfl

def call (onControlEvent : Bool) (queryConfigs : String → Option C) : ResultEvent → Option (Call C)
  | .change e => some (.change (ofChange e) (queryConfigs e.queryId))
  | .control e => if onControlEvent then some (.control (ofControl e) (queryConfigs e.queryId)) else none

/-- **What Python makes of a published event.** -/
theorem handler_published (coerce : Value → Option Int) (onControlEvent : Bool) (queryConfigs : String → Option C)
    (e : ResultEvent) :
    handler coerce onControlEvent queryConfigs (.object e.fields) = .ok (call onControlEvent queryConfigs e) := by
  cases e with
  | change e =>
    have hkind : (ResultEvent.change e).fields.lookup "kind" = some (.string "change") := rfl
    have hquery : (ResultEvent.change e).fields.lookup "queryId" = some (.string e.queryId) := rfl
    simp only [handler, hkind, hquery, readChangeEvent_published]
    rfl
  | control e =>
    have hkind : (ResultEvent.control e).fields.lookup "kind" = some (.string "control") := rfl
    have hquery : (ResultEvent.control e).fields.lookup "queryId" = some (.string e.queryId) := rfl
    simp only [handler, hkind, hquery, readControlEvent_published]
    cases onControlEvent <;> rfl

end Python

namespace JavaScript

def call (onControlEvent : Bool) (queryConfig : String → Option C) (e : ResultEvent) : Option (Call C) :=
  match e with
  | .change _ => some (.change (.object e.fields) (queryConfig (queryIdOf e)))
  | .control _ => if onControlEvent then some (.control (.object e.fields) (queryConfig (queryIdOf e))) else none

/-- **What JavaScript makes of a published event.** -/
theorem onMessage_published (onControlEvent : Bool) (queryConfig : String → Option C) (e : ResultEvent) :
    onMessage onControlEvent queryConfig (.object e.fields) = .ok (call onControlEvent queryConfig e) := by
  cases e with
  | change e => rfl
  | control e => cases onControlEvent <;> rfl

end JavaScript

/-! ## All three -/

end DrasiPlatform.EventWire
