/-
How the query host reads changes and elements of a source (`query-container/query-host/src/api.rs` and `source_client.rs`):
an entry of the change stream is decoded as a `ChangeEvent` and turned into a `SourceChange` for the query, an element of
the bootstrap is decoded as a `BootstrapElement` and turned into an insert.

Optional fields that are not there are read as nothing, and so is `null`. What an event has to carry for its kind of change
is only asked when it is turned. The change of an element is that of drasi-core, whose form of the properties is the
parameter `Props`.

- `decode_event`, `decode_payload`, `decode_bootstrap`: a document is decoded from what indexing answers for its fields.
-/
import Mathlib.Tactic
import DrasiPlatform.Core.Serde

namespace DrasiPlatform.QueryHost.Api

open Json Serde

/-! ## The changes of drasi-core -/

structure ElementReference where
  sourceId : String
  elementId : String
deriving DecidableEq

structure ElementMetadata where
  reference : ElementReference
  labels : List String
  effectiveFrom : UInt64
deriving DecidableEq

inductive Element (Props : Type) where
  | node (metadata : ElementMetadata) (properties : Props)
  | relation (metadata : ElementMetadata) (properties : Props) (inNode outNode : ElementReference)

structure FutureElementRef where
  elementRef : ElementReference
  originalTime : UInt64
  dueTime : UInt64
  groupSignature : UInt64

inductive SourceChange (Props : Type) where
  | insert (element : Element Props)
  | update (element : Element Props)
  | delete (metadata : ElementMetadata)
  | future (futureRef : FutureElementRef)

/-! ## Change events -/

structure ChangeEventTime where
  seq : UInt64
  ms : UInt64

structure ChangePayload where
  id : Option String
  labels : Option (List String)
  properties : Option Map
  startId : Option String
  endId : Option String

inductive ChangeType where
  | insert
  | update
  | delete
  | future
deriving DecidableEq

inductive ElementType where
  | node
  | relation
deriving DecidableEq

structure ChangeEvent where
  id : String
  sourceId : String
  time : ChangeEventTime
  queries : List String
  op : ChangeType
  elementType : Option ElementType
  before : Option ChangePayload
  after : Option ChangePayload
  futureDueTime : Option UInt64
  futureSignature : Option UInt64
  metadata : Option Map

def ChangeEvent.hasQuery (event : ChangeEvent) (queryId : String) : Bool := event.queries.contains queryId

/-! ### Decoding -/

/-- `Map<String, Value>` -/
def jsonMap : Decoder Map := struct fun fields => .ok (Map.ofFields fields)

def ChangeEventTime.decode : Decoder ChangeEventTime := struct fun fields => do
  let seq ← required u64 "seq" fields
  let ms ← required u64 "ms" fields
  return ⟨seq, ms⟩

def ChangePayload.decode : Decoder ChangePayload := struct fun fields => do
  let id ← optional string "id" fields
  let labels ← optional (list string) "labels" fields
  let properties ← optional jsonMap "properties" fields
  let startId ← optional string "startId" fields
  let endId ← optional string "endId" fields
  return ⟨id, labels, properties, startId, endId⟩

def ChangeType.decode : Decoder ChangeType := fun v => do
  let (tag, content) ← variant v
  let op ← match tag with
    | "i" => .ok .insert
    | "u" => .ok .update
    | "d" => .ok .delete
    | "f" => .ok .future
    | _ => .error (.unknownVariant tag)
  unit content
  return op

def ElementType.decode : Decoder ElementType := fun v => do
  let (tag, content) ← variant v
  let type ← match tag with
    | "node" => .ok .node
    | "rel" => .ok .relation
    | _ => .error (.unknownVariant tag)
  unit content
  return type

def ChangeEvent.decode : Decoder ChangeEvent := struct fun fields => do
  let id ← required string "id" fields
  let sourceId ← required string "sourceId" fields
  let time ← required ChangeEventTime.decode "time" fields
  let queries ← required (list string) "queries" fields
  let op ← required ChangeType.decode "type" fields
  let elementType ← optional ElementType.decode "elementType" fields
  let before ← optional ChangePayload.decode "before" fields
  let after ← optional ChangePayload.decode "after" fields
  let futureDueTime ← optional u64 "futureDueTime" fields
  let futureSignature ← optional u64 "futureSignature" fields
  let metadata ← optional jsonMap "metadata" fields
  return ⟨id, sourceId, time, queries, op, elementType, before, after, futureDueTime, futureSignature, metadata⟩

/-! ### `TryInto<SourceChange>` -/

/-- `ApiError::BadRequest` -/
structure BadRequest where
  message : String
deriving DecidableEq

def okOr {α : Type} (message : String) : Option α → Except BadRequest α
  | some x => .ok x
  | none => .error ⟨message⟩

section Into

variable {Props : Type} (properties : Map → Props)

namespace ChangePayload

def intoElementReference (p : ChangePayload) (sourceId : String) : Except BadRequest ElementReference := do
  let id ← okOr "Missing id" p.id
  return ⟨sourceId, id⟩

def intoElement (p : ChangePayload) (sourceId : String) (elementType : ElementType) (timestamp : UInt64) :
    Except BadRequest (Element Props) := do
  let id ← okOr "Missing id" p.id
  let metadata : ElementMetadata := ⟨⟨sourceId, id⟩, p.labels.getD [], timestamp⟩
  let props := properties (p.properties.getD .empty)
  match elementType with
  | .node => return .node metadata props
  | .relation =>
    let startId ← okOr "Missing start id" p.startId
    let endId ← okOr "Missing end id" p.endId
    return .relation metadata props ⟨sourceId, startId⟩ ⟨sourceId, endId⟩

end ChangePayload

namespace ChangeEvent

/-- the element of an insert or an update -/
def afterElement (event : ChangeEvent) : Except BadRequest (Element Props) := do
  let after ← okOr "Missing after payload" event.after
  let elementType ← okOr "missing element type" event.elementType
  after.intoElement properties event.sourceId elementType event.time.ms

def tryInto (event : ChangeEvent) : Except BadRequest (SourceChange Props) :=
  match event.op with
  | .insert => do
    let element ← event.afterElement properties
    return .insert element
  | .update => do
    let element ← event.afterElement properties
    return .update element
  | .delete => do
    let before ← okOr "Missing before payload" event.before
    let reference ← before.intoElementReference event.sourceId
    return .delete ⟨reference, before.labels.getD [], event.time.ms⟩
  | .future => do
    let dueTime ← okOr "Missing future due time" event.futureDueTime
    let groupSignature ← okOr "Missing future signature" event.futureSignature
    return .future ⟨⟨event.sourceId, event.id⟩, event.time.ms, dueTime, groupSignature⟩

end ChangeEvent

/-! ## Bootstrap elements -/

/-- `v2::BootstrapElement` -/
structure BootstrapElement where
  id : String
  labels : List String
  properties : Map
  startId : Option String
  endId : Option String

def BootstrapElement.decode : Decoder BootstrapElement := struct fun fields => do
  let id ← required string "id" fields
  let labels ← required (list string) "labels" fields
  let properties ← required jsonMap "properties" fields
  let startId ← optional string "startId" fields
  let endId ← optional string "endId" fields
  return ⟨id, labels, properties, startId, endId⟩

/-- `into_source_change`; `none` where a relation has no end and `unwrap` panics -/
def BootstrapElement.intoSourceChange (e : BootstrapElement) (sourceId : String) : Option (SourceChange Props) :=
  let metadata : ElementMetadata := ⟨⟨sourceId, e.id⟩, e.labels, 0⟩
  match e.startId with
  | some startId => e.endId.map fun endId =>
      .insert (.relation metadata (properties e.properties) ⟨sourceId, startId⟩ ⟨sourceId, endId⟩)
  | none => some (.insert (.node metadata (properties e.properties)))

end Into

/-! ## What is decoded -/

theorem list_string_ofStrings (l : List String) : list string (.ofStrings l) = .ok l := by
  have h : decodeAll string (l.map Value.string) = .ok (l.map id) :=
    (decodeAll_map string Value.string id l).2 fun _ _ => rfl
  rwa [List.map_id] at h

theorem jsonMap_fields (m : Map) : jsonMap (.object m.fields) = .ok m := congrArg Except.ok (Map.ofFields_fields m)

theorem option_of_ne_null {α : Type} {decode : Decoder α} {v : Value} {x : α} (hne : v ≠ .null) (h : decode v = .ok x) :
    option decode v = .ok (some x) := by
  cases v with
  | null => exact absurd rfl hne
  | _ => simp only [option, h, Except.map]

/-- metadata that can be stamped can be read -/
theorem option_jsonMap_of_isIndexable {v : Value} (h : v.isIndexable = true) : ∃ m, option jsonMap v = .ok m := by
  cases v with
  | null => exact ⟨none, rfl⟩
  | object fields => exact ⟨some (Map.ofFields fields), rfl⟩
  | _ => cases h

/-- what the fields of an event are -/
structure Reads (v : Value) (event : ChangeEvent) : Prop where
  id : v.get "id" = .string event.id
  sourceId : v.get "sourceId" = .string event.sourceId
  time : v.get "time" = .object [("seq", .number (.posInt event.time.seq)), ("ms", .number (.posInt event.time.ms))]
  queries : v.get "queries" = .ofStrings event.queries
  op : v.get "type" ≠ .null ∧ ChangeType.decode (v.get "type") = .ok event.op
  elementType : option ElementType.decode (v.get "elementType") = .ok event.elementType
  before : option ChangePayload.decode (v.get "before") = .ok event.before
  after : option ChangePayload.decode (v.get "after") = .ok event.after
  futureDueTime : option u64 (v.get "futureDueTime") = .ok event.futureDueTime
  futureSignature : option u64 (v.get "futureSignature") = .ok event.futureSignature
  metadata : option jsonMap (v.get "metadata") = .ok event.metadata

/-- **An event is decoded field by field**, from a document that names no key twice. -/
theorem decode_event {v : Value} {event : ChangeEvent} (hrecord : v.IsRecord) (h : Reads v event) :
    ChangeEvent.decode v = .ok event := by
  obtain ⟨fields, rfl, hnodup⟩ := hrecord
  have hid : required string "id" fields = .ok event.id := required_of_nodup _ hnodup h.id (by simp)
  have hsource : required string "sourceId" fields = .ok event.sourceId := required_of_nodup _ hnodup h.sourceId (by simp)
  have htime : required ChangeEventTime.decode "time" fields = .ok event.time := by
    rw [required_of_nodup _ hnodup h.time (by simp)]
    rfl
  have hqueries : required (list string) "queries" fields = .ok event.queries := by
    rw [required_of_nodup _ hnodup h.queries (by simp [Value.ofStrings]), list_string_ofStrings]
  have hop : required ChangeType.decode "type" fields = .ok event.op := by
    rw [required_of_nodup _ hnodup rfl h.op.1, h.op.2]
  rw [ChangeEvent.decode, struct_object, hid, ok_bind, hsource, ok_bind, htime, ok_bind, hqueries, ok_bind, hop, ok_bind,
    optional_of_nodup _ hnodup, h.elementType, ok_bind, optional_of_nodup _ hnodup, h.before, ok_bind,
    optional_of_nodup _ hnodup, h.after, ok_bind, optional_of_nodup _ hnodup, h.futureDueTime, ok_bind,
    optional_of_nodup _ hnodup, h.futureSignature, ok_bind, optional_of_nodup _ hnodup, h.metadata, ok_bind, pure_eq_ok]

theorem decode_payload {v : Value} {p : ChangePayload} (hrecord : v.IsRecord)
    (hid : option string (v.get "id") = .ok p.id) (hlabels : option (list string) (v.get "labels") = .ok p.labels)
    (hproperties : option jsonMap (v.get "properties") = .ok p.properties)
    (hstart : option string (v.get "startId") = .ok p.startId) (hend : option string (v.get "endId") = .ok p.endId) :
    ChangePayload.decode v = .ok p := by
  obtain ⟨fields, rfl, hnodup⟩ := hrecord
  rw [ChangePayload.decode, struct_object, optional_of_nodup _ hnodup, hid, ok_bind, optional_of_nodup _ hnodup, hlabels,
    ok_bind, optional_of_nodup _ hnodup, hproperties, ok_bind, optional_of_nodup _ hnodup, hstart, ok_bind,
    optional_of_nodup _ hnodup, hend, ok_bind, pure_eq_ok]

theorem decode_bootstrap {v : Value} {e : BootstrapElement} (hrecord : v.IsRecord) (hid : v.get "id" = .string e.id)
    (hlabels : v.get "labels" = .ofStrings e.labels) (hproperties : v.get "properties" = .object e.properties.fields)
    (hstart : option string (v.get "startId") = .ok e.startId) (hend : option string (v.get "endId") = .ok e.endId) :
    BootstrapElement.decode v = .ok e := by
  obtain ⟨fields, rfl, hnodup⟩ := hrecord
  have hid' : required string "id" fields = .ok e.id := required_of_nodup _ hnodup hid (by simp)
  have hlabels' : required (list string) "labels" fields = .ok e.labels := by
    rw [required_of_nodup _ hnodup hlabels (by simp [Value.ofStrings]), list_string_ofStrings]
  have hproperties' : required jsonMap "properties" fields = .ok e.properties := by
    rw [required_of_nodup _ hnodup hproperties (by simp), jsonMap_fields]
  rw [BootstrapElement.decode, struct_object, hid', ok_bind, hlabels', ok_bind, hproperties', ok_bind,
    optional_of_nodup _ hnodup, hstart, ok_bind, optional_of_nodup _ hnodup, hend, ok_bind, pure_eq_ok]

end DrasiPlatform.QueryHost.Api
