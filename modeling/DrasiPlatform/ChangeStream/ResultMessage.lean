/-
Query results on their way to the view service and the management API: the two copies of `deserialize_message`
(`query-container/view-svc/src/change_stream/redis_change_stream.rs` and
`control-planes/mgmt_api/src/change_stream/redis_change_stream.rs`).

The field `data` of a stream entry is a CloudEvent; the trace context of its publisher is in the extensions `traceparent`
and `tracestate`. The copies differ in which of the two they read for which field, so they are one definition with the two
names as parameters. `serde_json` is the parameter `EventCodec`.

- `viewSvc_eq_swap`: the view service returns what the management API returns, with the two headers exchanged.
- `one_decoder_iff`: the copies agree, and the extracted context is the injected one, exactly for the entries that do not
  decode and those whose two headers have the same text.
Witness: `traces_swapped`.
-/
import Mathlib.Tactic
import DrasiPlatform.ChangeStream.Redis

namespace DrasiPlatform.ChangeStream

/-! ## CloudEvents -/

/-- `cloudevents::event::ExtensionValue` -/
inductive ExtensionValue where
  | string (text : String)
  | boolean (b : Bool)
  | integer (n : Int64)

def ExtensionValue.toString : ExtensionValue → String
  | .string text => text
  | .boolean b => if b then "true" else "false"
  | .integer n => ToString.toString n.toInt

/-- `cloudevents::Data`, over the JSON values `V` -/
inductive EventData (V : Type) where
  | binary (bytes : ByteArray)
  | string (text : String)
  | json (value : V)

/-- the attributes of a CloudEvent that the consumers read -/
structure CloudEvent (V : Type) where
  data : Option (EventData V)
  extensions : List (String × ExtensionValue)

/-- `evt.extension(name).map(|v| v.to_string())` -/
def CloudEvent.extension {V : Type} (evt : CloudEvent V) (name : String) : Option String :=
  (evt.extensions.lookup name).map ExtensionValue.toString

/-- what the decoding takes from `serde_json`: the event of the bytes, and the message of its data -/
structure EventCodec (V T : Type) where
  fromSlice : ByteArray → Except String (CloudEvent V)
  fromValue : V → Except String T

/-- `Message` of both services -/
structure ResultMessage (T : Type) where
  id : EntryId
  data : T
  traceState : Option String
  traceParent : Option String

/-- the `Extractor` of the message -/
def ResultMessage.get {T : Type} (m : ResultMessage T) (key : String) : Option String :=
  match key with
  | "traceparent" => m.traceParent
  | "tracestate" => m.traceState
  | _ => none

/-! ## Decoding -/

section Deserialize

variable {V T : Type} (codec : EventCodec V T) (message : StreamEntry)

def deserializeEvent : Except ChangeStreamError (CloudEvent V) :=
  match message.map.lookup "data" with
  | some (.data bytes) => (codec.fromSlice bytes).mapError fun err =>
      .messageError message.id ("Failed to deserialize data: " ++ err)
  | some _ => .error (.messageError message.id "Invalid data type")
  | none => .error (.messageError message.id "Missing data")

def deserializeValue (evt : CloudEvent V) : Except ChangeStreamError T :=
  match evt.data with
  | some (.json value) => (codec.fromValue value).mapError fun err =>
      .messageError message.id ("Failed to deserialize data: " ++ err)
  | some _ => .error (.messageError message.id "Invalid data type")
  | none => .error (.messageError message.id "Missing data")

/-- `deserialize_message`, with the extensions it takes for the trace state and the trace parent -/
def deserializeWith (traceState traceParent : String) : Except ChangeStreamError (ResultMessage T) := do
  let evt ← deserializeEvent codec message
  let data ← deserializeValue codec message evt
  return { id := message.id, data, traceState := evt.extension traceState, traceParent := evt.extension traceParent }

/-- `deserialize_message` of the view service -/
def ViewSvc.deserializeMessage : Except ChangeStreamError (ResultMessage T) :=
  deserializeWith codec message "traceparent" "tracestate"

/-- `deserialize_message` of the management API -/
def MgmtApi.deserializeMessage : Except ChangeStreamError (ResultMessage T) :=
  deserializeWith codec message "tracestate" "traceparent"

end Deserialize

/-! ## The promise -/

variable {V T : Type} {codec : EventCodec V T}

/-- both fail, or both return the same message -/
def Agree : Except ChangeStreamError (ResultMessage T) → Except ChangeStreamError (ResultMessage T) → Prop
  | .ok m, .ok m' => m = m'
  | .error _, .error _ => True
  | _, _ => False

/-- the context that is extracted from the message is the one in the extensions of the event -/
def ExtractsInjected (codec : EventCodec V T) (e : StreamEntry) (m : ResultMessage T) : Prop :=
  ∀ evt, deserializeEvent codec e = .ok evt → ∀ key ∈ ["traceparent", "tracestate"], m.get key = evt.extension key

/-- one wire format, one decoder -/
structure OneDecoder (codec : EventCodec V T) (e : StreamEntry) : Prop where
  agree : Agree (ViewSvc.deserializeMessage codec e) (MgmtApi.deserializeMessage codec e)
  viewSvc : ∀ m, ViewSvc.deserializeMessage codec e = .ok m → ExtractsInjected codec e m
  mgmtApi : ∀ m, MgmtApi.deserializeMessage codec e = .ok m → ExtractsInjected codec e m

/-- an entry that decodes has the same text in both headers, or neither of them -/
def SameHeaders (codec : EventCodec V T) (e : StreamEntry) : Prop :=
  ∀ bytes evt value data, e.map.lookup "data" = some (.data bytes) → codec.fromSlice bytes = .ok evt →
    evt.data = some (.json value) → codec.fromValue value = .ok data →
      evt.extension "traceparent" = evt.extension "tracestate"

/-! ## Main result -/

theorem deserializeEvent_ok {e : StreamEntry} {evt : CloudEvent V} :
    deserializeEvent codec e = .ok evt ↔
      ∃ bytes, e.map.lookup "data" = some (.data bytes) ∧ codec.fromSlice bytes = .ok evt := by
  unfold deserializeEvent
  split
  · rename_i bytes hfield
    cases hs : codec.fromSlice bytes with
    | error err => simp [Except.mapError, hs, hfield]
    | ok evt' => simp [Except.mapError, hs, hfield]
  · rename_i value hno hfield
    simpa [hfield] using fun bytes hbytes => absurd hbytes (hno bytes)
  · rename_i hfield
    simp [hfield]

theorem deserializeValue_ok {e : StreamEntry} {evt : CloudEvent V} {data : T} :
    deserializeValue codec e evt = .ok data ↔ ∃ value, evt.data = some (.json value) ∧ codec.fromValue value = .ok data := by
  unfold deserializeValue
  split
  · rename_i value hdata
    cases hv : codec.fromValue value with
    | error err => simp [Except.mapError, hv, hdata]
    | ok data' => simp [Except.mapError, hv, hdata]
  · rename_i content hno hdata
    simpa [hdata] using fun value hvalue => absurd hvalue (hno value)
  · rename_i hdata
    simp [hdata]

theorem deserializeWith_ok {e : StreamEntry} {traceState traceParent : String} {m : ResultMessage T} :
    deserializeWith codec e traceState traceParent = .ok m ↔
      ∃ evt data, deserializeEvent codec e = .ok evt ∧ deserializeValue codec e evt = .ok data ∧
        m = ⟨e.id, data, evt.extension traceState, evt.extension traceParent⟩ := by
  unfold deserializeWith
  cases he : deserializeEvent codec e with
  | error err => simp [bind, Except.bind]
  | ok evt =>
    cases hd : deserializeValue codec e evt with
    | error err => simp [bind, Except.bind, hd]
    | ok data => simp [bind, Except.bind, pure, Except.pure, hd, eq_comm]

/-- the two headers exchanged -/
def ResultMessage.swap (m : ResultMessage T) : ResultMessage T :=
  { m with traceState := m.traceParent, traceParent := m.traceState }

/-- **The copies differ in the headers only**: they fail on the same entries, with the same error. -/
theorem viewSvc_eq_swap (codec : EventCodec V T) (e : StreamEntry) :
    ViewSvc.deserializeMessage codec e = (MgmtApi.deserializeMessage codec e).map ResultMessage.swap := by
  unfold ViewSvc.deserializeMessage MgmtApi.deserializeMessage deserializeWith
  cases he : deserializeEvent codec e with
  | error err => rfl
  | ok evt => cases hd : deserializeValue codec e evt <;> simp [bind, Except.bind, pure, Except.pure, hd, Except.map,
      ResultMessage.swap]

theorem extractsInjected_iff {e : StreamEntry} {evt : CloudEvent V} (he : deserializeEvent codec e = .ok evt)
    (m : ResultMessage T) : ExtractsInjected codec e m ↔
      m.traceParent = evt.extension "traceparent" ∧ m.traceState = evt.extension "tracestate" := by
  simp [ExtractsInjected, he, ResultMessage.get]

/-- **One decoder, except for the headers.** For every entry the two services agree and extract what was injected if and
only if the entry does not decode or its two trace headers have the same text. -/
theorem one_decoder_iff (codec : EventCodec V T) (e : StreamEntry) : OneDecoder codec e ↔ SameHeaders codec e := by
  have hswap := viewSvc_eq_swap codec e
  constructor
  · intro h bytes evt value data hfield hslice hdata hvalue
    have he : deserializeEvent codec e = .ok evt := deserializeEvent_ok.2 ⟨bytes, hfield, hslice⟩
    have hv : deserializeValue codec e evt = .ok data := deserializeValue_ok.2 ⟨value, hdata, hvalue⟩
    have hview := h.viewSvc _ (deserializeWith_ok.2 ⟨evt, data, he, hv, rfl⟩)
    exact ((extractsInjected_iff he _).1 hview).2
  · intro h
    cases hm : MgmtApi.deserializeMessage codec e with
    | error err =>
      rw [hm] at hswap
      refine ⟨by rw [hswap, hm]; trivial, fun m hok => ?_, fun m hok => ?_⟩
      · rw [hswap] at hok
        cases hok
      · rw [hm] at hok
        cases hok
    | ok m =>
      obtain ⟨evt, data, he, hv, rfl⟩ := deserializeWith_ok.1 hm
      obtain ⟨bytes, hfield, hslice⟩ := deserializeEvent_ok.1 he
      obtain ⟨value, hdata, hvalue⟩ := deserializeValue_ok.1 hv
      have hsame := h bytes evt value data hfield hslice hdata hvalue
      -- with equal headers the exchange changes nothing
      have hview : ViewSvc.deserializeMessage codec e = MgmtApi.deserializeMessage codec e := by
        rw [hswap, hm, Except.map, ResultMessage.swap, hsame]
      have hextract : ∀ m, MgmtApi.deserializeMessage codec e = .ok m → ExtractsInjected codec e m := by
        intro m hok
        rw [hm] at hok
        cases hok
        exact (extractsInjected_iff he _).2 ⟨rfl, rfl⟩
      refine ⟨by rw [hview, hm]; rfl, fun m hok => hextract m (hview ▸ hok), hextract⟩

/-- a result as it is published, with the trace headers of its publisher -/
def tracedText : String :=
  "\x7b\"specversion\":\"1.0\",\"id\":\"1\",\"type\":\"com.dapr.event.sent\",\"source\":\"query-host\",\"data\":\"result\"," ++
    "\"traceparent\":\"00-0af7651916cd43dd8448eb211c80319c-b7ad6b7169203331-01\",\"tracestate\":\"congo=t61rcWkgMzE\"\x7d"

def tracedEvent : CloudEvent String where
  data := some (.json "result")
  extensions :=
    [("traceparent", .string "00-0af7651916cd43dd8448eb211c80319c-b7ad6b7169203331-01"),
      ("tracestate", .string "congo=t61rcWkgMzE")]

/-- `serde_json` on this event -/
def tracedCodec : EventCodec String String where
  fromSlice bytes := if bytes.data = tracedText.toUTF8.data then .ok tracedEvent else .error "expected value"
  fromValue text := .ok text

/-- the entry of this event -/
def tracedEntry : StreamEntry := ⟨toLex (1, 0), [("data", .data tracedText.toUTF8)]⟩

/-- the view service takes the trace state for the trace parent -/
theorem traces_swapped : ¬ OneDecoder tracedCodec tracedEntry := by
  intro h
  have hslice : tracedCodec.fromSlice tracedText.toUTF8 = .ok tracedEvent := by simp only [tracedCodec, if_true]
  have he : deserializeEvent tracedCodec tracedEntry = .ok tracedEvent := deserializeEvent_ok.2 ⟨_, by rfl, hslice⟩
  have hv : deserializeValue tracedCodec tracedEntry tracedEvent = .ok "result" :=
    deserializeValue_ok.2 ⟨"result", rfl, rfl⟩
  have hview := h.viewSvc _ (deserializeWith_ok.2 ⟨_, _, he, hv, rfl⟩)
  have hparent := ((extractsInjected_iff he _).1 hview).1
  revert hparent
  decide

end DrasiPlatform.ChangeStream
