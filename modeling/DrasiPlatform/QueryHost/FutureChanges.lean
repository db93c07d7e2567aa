/-
Elements of the future queue on their way through the change stream of their query: `FutureConsumer::on_due`
(`query-container/query-host/src/future_consumer.rs`) writes a due element as a change event (`api.rs`) and publishes it
with the enqueue time and a trace context (`change_stream/publisher.rs`); the query reads the entry back
(`change_stream/redis_change_stream.rs`) and turns the event into a source change.

The text of the JSON is a parameter (`JsonText.Format`) that reads what it has written, and so is the reading of the clock.
The enqueue time is written as the nanoseconds since 1970 and read as a `u64`, which holds them until the year 2554.

- `decode_json`: every change event, of whatever kind, is decoded from its own serialisation.
- `deserialize_published`: a published event is read back whole, with its trace context and its enqueue time.
- `future_survives_queue`: a due element comes out of the stream as the future change of the same element, for its query
  and for no other.
Witness: `future_survives_queue_compact`.
-/
import Mathlib.Tactic
import DrasiPlatform.Core.JsonText
import DrasiPlatform.ChangeStream.Redis
import DrasiPlatform.QueryHost.SourceChanges

namespace DrasiPlatform.QueryHost.Api

open Json Serde ChangeStream

/-! ## Serialisation -/

def u64Json (n : UInt64) : Value := .number (.posInt n)

def mapJson (m : Map) : Value := .object m.fields

def ChangeEventTime.json (time : ChangeEventTime) : Value := .object [("seq", u64Json time.seq), ("ms", u64Json time.ms)]

def ChangePayload.json (p : ChangePayload) : Value :=
  .object [
    ("id", optionJson .string p.id),
    ("labels", optionJson .ofStrings p.labels),
    ("properties", optionJson mapJson p.properties),
    ("startId", optionJson .string p.startId),
    ("endId", optionJson .string p.endId)]

def ChangeType.json : ChangeType → Value
  | .insert => .string "i"
  | .update => .string "u"
  | .delete => .string "d"
  | .future => .string "f"

def ElementType.json : ElementType → Value
  | .node => .string "node"
  | .relation => .string "rel"

def ChangeEvent.json (event : ChangeEvent) : Value :=
  .object [
    ("id", .string event.id),
    ("sourceId", .string event.sourceId),
    ("time", event.time.json),
    ("queries", .ofStrings event.queries),
    ("type", event.op.json),
    ("elementType", optionJson ElementType.json event.elementType),
    ("before", optionJson ChangePayload.json event.before),
    ("after", optionJson ChangePayload.json event.after),
    ("futureDueTime", optionJson u64Json event.futureDueTime),
    ("futureSignature", optionJson u64Json event.futureSignature),
    ("metadata", optionJson mapJson event.metadata)]

/-! ### It is decoded -/

/-- an optional field is decoded when its value is and is not `null` -/
theorem option_optionJson {α : Type} {decode : Decoder α} {json : α → Value} (hne : ∀ x, json x ≠ .null)
    (hdecode : ∀ x, decode (json x) = .ok x) (o : Option α) : option decode (optionJson json o) = .ok o := by
  cases o with
  | none => rfl
  | some x => exact option_of_ne_null (hne x) (hdecode x)

theorem option_string (o : Option String) : option string (optionJson .string o) = .ok o := by
  cases o <;> rfl

theorem option_u64 (o : Option UInt64) : option u64 (optionJson u64Json o) = .ok o := by
  cases o <;> rfl

theorem option_map (o : Option Map) : option jsonMap (optionJson mapJson o) = .ok o :=
  option_optionJson (fun _ h => by cases h) jsonMap_fields o

theorem option_labels (o : Option (List String)) : option (list string) (optionJson .ofStrings o) = .ok o :=
  option_optionJson (fun _ h => by cases h) list_string_ofStrings o

theorem ChangePayload.decode_json (p : ChangePayload) : ChangePayload.decode p.json = .ok p :=
  decode_payload ⟨_, rfl, by simp⟩ (option_string p.id) (option_labels p.labels) (option_map p.properties)
    (option_string p.startId) (option_string p.endId)

theorem ChangeType.decode_json (op : ChangeType) : op.json ≠ .null ∧ ChangeType.decode op.json = .ok op := by
  cases op <;> exact ⟨fun h => (by cases h), rfl⟩

theorem option_elementType (o : Option ElementType) : option ElementType.decode (optionJson ElementType.json o) = .ok o := by
  rcases o with _ | type
  · rfl
  · cases type <;> rfl

theorem option_payload (o : Option ChangePayload) :
    option ChangePayload.decode (optionJson ChangePayload.json o) = .ok o :=
  option_optionJson (fun _ h => by cases h) ChangePayload.decode_json o

/-- **Change events round trip.** Every change event is decoded from its own serialisation. -/
theorem ChangeEvent.decode_json (event : ChangeEvent) : ChangeEvent.decode event.json = .ok event := by
  exact decode_event ⟨_, rfl, by simp⟩
    { id := rfl
      sourceId := rfl
      time := rfl
      queries := rfl
      op := event.op.decode_json
      elementType := option_elementType event.elementType
      before := option_payload event.before
      after := option_payload event.after
      futureDueTime := option_u64 event.futureDueTime
      futureSignature := option_u64 event.futureSignature
      metadata := option_map event.metadata }

/-! ## The way through the stream -/

def ChangeEvent.fromFutureRef (futureRef : FutureElementRef) (queryId : String) : ChangeEvent where
  id := futureRef.elementRef.elementId
  sourceId := futureRef.elementRef.sourceId
  time := ⟨0, futureRef.originalTime⟩
  queries := [queryId]
  op := .future
  elementType := none
  before := none
  after := none
  futureDueTime := some futureRef.dueTime
  futureSignature := some futureRef.groupSignature
  metadata := none

/-- the fields that `Publisher::publish` adds to the stream, `now` being the nanoseconds since 1970 -/
def publishItems (data : String) (now : ℕ) (traceState traceParent : Option String) : List (String × String) :=
  [("data", data), ("enqueue_time", now.repr)] ++ (traceState.map fun s => ("tracestate", s)).toList ++
    (traceParent.map fun s => ("traceparent", s)).toList

/-- the entry as Redis returns it: a key for every field, the values as bytes -/
def entryOfItems (id : EntryId) (items : List (String × String)) : StreamEntry :=
  ⟨id, items.map fun item => (item.1, .data item.2.toUTF8)⟩

theorem lookup_published (id : EntryId) (data : String) (now : ℕ) (traceState traceParent : Option String) :
    (entryOfItems id (publishItems data now traceState traceParent)).map.lookup "data" = some (.data data.toUTF8) ∧
    (entryOfItems id (publishItems data now traceState traceParent)).map.lookup "enqueue_time" =
      some (.data now.repr.toUTF8) ∧
    (entryOfItems id (publishItems data now traceState traceParent)).map.lookup "tracestate" =
      traceState.map (fun s => .data s.toUTF8) ∧
    (entryOfItems id (publishItems data now traceState traceParent)).map.lookup "traceparent" =
      traceParent.map (fun s => .data s.toUTF8) := by
  cases traceState <;> cases traceParent <;> simp [entryOfItems, publishItems, List.lookup_cons]

/-- a trace header that was published is read back, and one that was not is not there -/
theorem deserializeTrace_eq {e : StreamEntry} {key : String} {trace : Option String}
    (h : e.map.lookup key = trace.map (fun s => .data s.toUTF8)) : deserializeTrace e key = .ok trace := by
  rw [deserializeTrace, h]
  cases trace with
  | none => rfl
  | some s => simp

theorem deserializeEnqueueTime_eq {T : Type} (codec : Codec T) {e : StreamEntry} {now : ℕ} (hnow : now < 2 ^ 64)
    (h : e.map.lookup "enqueue_time" = some (.data now.repr.toUTF8)) :
    deserializeEnqueueTime codec e = .ok (some (.ofNat now)) := by
  simp only [deserializeEnqueueTime, h, String.toUTF8_eq_toByteArray, JsonText.fromUTF8_toByteArray, parseU64_repr hnow]

section Stream

variable (F : JsonText.Format) (describe : DecodeError → String) (utf8Error : ByteArray → String)

/-- `serde_json::to_string` and `Publisher::publish` -/
def publishEvent (event : ChangeEvent) (id : EntryId) (now : ℕ) (traceState traceParent : Option String) : StreamEntry :=
  entryOfItems id (publishItems (F.write event.json) now traceState traceParent)

/-- `FutureConsumer::on_due`, which publishes without a trace context -/
def onDue (futureRef : FutureElementRef) (queryId : String) (id : EntryId) (now : ℕ) : StreamEntry :=
  publishEvent F (.fromFutureRef futureRef queryId) id now none none

/-- `serde_json::from_slice::<ChangeEvent>` -/
def eventCodec : Codec ChangeEvent where
  fromSlice bytes := do
    let document ← F.read bytes
    (ChangeEvent.decode document).mapError describe
  utf8Error := utf8Error

variable {F}

theorem fromSlice_write (hF : F.Lawful) {event : ChangeEvent} (hplain : JsonText.Plain event.json) :
    (eventCodec F describe utf8Error).fromSlice (F.write event.json).toUTF8 = .ok event := by
  simp only [eventCodec, hF.read_write _ hplain]
  show Except.mapError describe (ChangeEvent.decode event.json) = .ok event
  rw [event.decode_json]
  rfl

/-- **A published event is read back whole**, with its enqueue time and its trace context. -/
theorem deserialize_published (hF : F.Lawful) {event : ChangeEvent} (hplain : JsonText.Plain event.json) (id : EntryId)
    {now : ℕ} (hnow : now < 2 ^ 64) (traceState traceParent : Option String) :
    deserializeMessage (eventCodec F describe utf8Error) (publishEvent F event id now traceState traceParent) =
      .ok ⟨id, event, some (.ofNat now), traceState, traceParent⟩ := by
  obtain ⟨hdata, htime, hstate, hparent⟩ := lookup_published id (F.write event.json) now traceState traceParent
  have hevent : deserializeData (eventCodec F describe utf8Error) (publishEvent F event id now traceState traceParent) =
      .ok event := by
    rw [deserializeData, publishEvent, hdata]
    show Except.mapError _ _ = _
    rw [fromSlice_write describe utf8Error hF hplain]
    rfl
  rw [deserializeMessage, hevent, publishEvent, deserializeTrace_eq hstate, deserializeTrace_eq hparent,
    deserializeEnqueueTime_eq _ hnow htime]
  rfl

/-! ## Future elements -/

theorem plain_ofStrings (l : List String) : JsonText.Plain (.ofStrings l) := by
  refine .array _ fun v hv => ?_
  obtain ⟨s, -, rfl⟩ := List.mem_map.1 hv
  exact .string s

theorem plain_fromFutureRef (futureRef : FutureElementRef) (queryId : String) :
    JsonText.Plain (ChangeEvent.fromFutureRef futureRef queryId).json := by
  have htime : JsonText.Plain (ChangeEventTime.json ⟨0, futureRef.originalTime⟩) := by
    refine .object _ fun f hf => ?_
    simp only [List.mem_cons, List.not_mem_nil, or_false] at hf
    obtain rfl | rfl := hf
    · exact .posInt 0
    · exact .posInt futureRef.originalTime
  refine .object _ fun f hf => ?_
  simp only [List.mem_cons, List.not_mem_nil, or_false] at hf
  obtain rfl | rfl | rfl | rfl | rfl | rfl | rfl | rfl | rfl | rfl | rfl := hf
  · exact .string _
  · exact .string _
  · exact htime
  · exact plain_ofStrings [queryId]
  · exact .string "f"
  · exact .null
  · exact .null
  · exact .null
  · exact .posInt futureRef.dueTime
  · exact .posInt futureRef.groupSignature
  · exact .null

theorem hasQuery_fromFutureRef (futureRef : FutureElementRef) (queryId query : String) :
    (ChangeEvent.fromFutureRef futureRef queryId).hasQuery query = true ↔ query = queryId := by
  simp [ChangeEvent.hasQuery, ChangeEvent.fromFutureRef]

/-- a due element is read back as its change event, without a trace context -/
theorem deserialize_onDue (hF : F.Lawful) (futureRef : FutureElementRef) (queryId : String) (id : EntryId) {now : ℕ}
    (hnow : now < 2 ^ 64) :
    deserializeMessage (eventCodec F describe utf8Error) (onDue F futureRef queryId id now) =
      .ok ⟨id, .fromFutureRef futureRef queryId, some (.ofNat now), none, none⟩ :=
  deserialize_published describe utf8Error hF (plain_fromFutureRef futureRef queryId) id hnow none none

/-- **Future elements survive the queue.** What is published for a due element is read back as an event of its query and of
no other, which turns into the future change of the same element, times and signature. -/
theorem future_survives_queue {Props : Type} (properties : Map → Props) (hF : F.Lawful) (futureRef : FutureElementRef)
    (queryId : String) (id : EntryId) {now : ℕ} (hnow : now < 2 ^ 64) (traceState traceParent : Option String) :
    ∃ message, deserializeMessage (eventCodec F describe utf8Error)
        (publishEvent F (.fromFutureRef futureRef queryId) id now traceState traceParent) = .ok message ∧
      message.data.tryInto properties = .ok (.future futureRef) ∧
      ∀ query, message.data.hasQuery query = true ↔ query = queryId :=
  ⟨_, deserialize_published describe utf8Error hF (plain_fromFutureRef futureRef queryId) id hnow traceState traceParent,
    rfl, hasQuery_fromFutureRef futureRef queryId⟩

end Stream

/-- an element whose ids need escapes, with the greatest times and signature -/
def dueElement : FutureElementRef := ⟨⟨"my \"source\"", "n\n1"⟩, 18446744073709551615, 18446744073709551615, 18446744073709551615⟩

/-- published in compact JSON in the year 2025 -/
theorem future_survives_queue_compact :
    1750000000000000000 < 2 ^ 64 ∧
    ∃ message, deserializeMessage (eventCodec (JsonText.compact fun _ => []) (fun _ => "invalid event") fun _ => "invalid utf-8")
        (publishEvent (JsonText.compact fun _ => []) (.fromFutureRef dueElement "q1") (toLex (1, 0)) 1750000000000000000
          (some "congo=t61rcWkgMzE") none) = .ok message ∧
      message.data.tryInto id = .ok (.future dueElement) ∧ ∀ query, message.data.hasQuery query = true ↔ query = "q1" :=
  ⟨by decide, future_survives_queue _ _ id (JsonText.compact_lawful _) dueElement "q1" _ (by decide) _ none⟩

end DrasiPlatform.QueryHost.Api
