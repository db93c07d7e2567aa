/-
The reactions that send the results of a query on: `ChangeHandler.cs` and `ControlSignalHandler.cs` of the EventBridge,
EventGrid, StorageQueue and PostDaprPubSub reactions and `index.ts` of the Http reaction, with `ProcessEvent` of the reaction
SDK (`Reaction.cs`), which acknowledges an event where no exception is thrown.

Packed, an event is one message; unpacked, it is a notification for each of its results, what was added before what was
updated before what was deleted. The reactions of this family do not set the sequence number of a notification. The time of
sending and the random id of a message are left out.

- `eventGrid_inOrder`, `storageQueue_inOrder`, `postDaprPubSub_inOrder`, `http_inOrder`: these reactions put their messages
  one after the other, and throw where one of them is not taken.
- `forwarders_lose_nothing`: so, whatever runs at the same time, an acknowledged event has arrived in full and in order.
- `eventBridge_loses_iff`: the EventBridge reaction only logs the entries that are refused: an acknowledged delivery has put
  all that it owes exactly when no answer to it counts a failed entry.
- `keyed_consumer_agrees`: where events come in order, whoever keeps the last value of each key has in the end what the
  messages of each event, once and in order, leave behind.
Witnesses: `eventBridge_loses_an_entry`, `keyed_consumer_agrees_repeated`.
-/
import Mathlib.Tactic
import DrasiPlatform.Core.Forwarding
import DrasiPlatform.Reactions.QueryHub

namespace DrasiPlatform.Forwarders

open Programs Forwarding Run
open SignalR (ChangeEvent ControlEvent ChangeNotification ControlSignalNotification ChangeNotificationOp)

variable {Row C Q A : Type}

/-! ## Events (`Reaction.cs`) -/

inductive Event (Row : Type) where
  | change (evt : ChangeEvent Row)
  | control (evt : ControlEvent)
  /-- of another kind -/
  | other
  | malformed

def Event.queryId : Event Row → Option String
  | .change evt => some evt.queryId
  | .control evt => some evt.queryId
  | .other => none
  | .malformed => none

def hasResults (evt : ChangeEvent Row) : Bool :=
  !(evt.addedResults.isEmpty && evt.deletedResults.isEmpty && evt.updatedResults.isEmpty)

def processEvent (queriesConfig : String → Option C) (changeHandler : ChangeEvent Row → Option C → Prog Q A String Unit)
    (controlEventHandler : ControlEvent → Option C → Prog Q A String Unit) : Event Row → Prog Q A String Unit
  | .change changeEvt =>
    if hasResults changeEvt then changeHandler changeEvt (queriesConfig changeEvt.queryId) else .ret ()
  | .control controlEvt => controlEventHandler controlEvt (queriesConfig controlEvt.queryId)
  | .other => .ret ()
  | .malformed => .stop "The input does not contain any JSON tokens."

/-! ## Formats -/

inductive OutputFormat where
  | packed
  | unpacked
  /-- a number that stands for no format -/
  | undefined

def changeNotification (evt : ChangeEvent Row) (op : ChangeNotificationOp) (before after : Option Row) :
    ChangeNotification Row where
  op := op
  seq := 0
  payload := ⟨some ⟨evt.queryId, evt.sourceTimeMs⟩, before, after⟩

/-- `ChangeFormatter.Format` -/
def format (evt : ChangeEvent Row) : List (ChangeNotification Row) :=
  evt.addedResults.map (fun inputItem => changeNotification evt .I none (some inputItem)) ++
    evt.updatedResults.map (fun inputItem => changeNotification evt .U inputItem.before inputItem.after) ++
    evt.deletedResults.map (fun inputItem => changeNotification evt .D (some inputItem) none)

def controlNotification (evt : ControlEvent) : ControlSignalNotification where
  seq := 0
  kind := evt.controlSignal.text
  source := ⟨evt.queryId, evt.sourceTimeMs⟩

/-- what a message carries -/
inductive Body (Row : Type) where
  | change (evt : ChangeEvent Row)
  | notifications (results : List (ChangeNotification Row))
  | notification (result : ChangeNotification Row)
  | control (evt : ControlEvent)
  | signal (notification : ControlSignalNotification)
  /-- a notification that was serialized before -/
  | signalText (notification : ControlSignalNotification)

/-- the messages of a change event -/
def changeMessages (outputFormat : OutputFormat) (packed : Body Row) (evt : ChangeEvent Row) : List (Body Row) :=
  if hasResults evt then
    match outputFormat with
    | .packed => [packed]
    | .unpacked => (format evt).map .notification
    | .undefined => []
  else []

/-- the message of a control event -/
def controlMessages (outputFormat : OutputFormat) (unpacked : Body Row) (evt : ControlEvent) : List (Body Row) :=
  match outputFormat with
  | .packed => [.control evt]
  | .unpacked => [unpacked]
  | .undefined => []

/-- whether a service that takes a request as a whole has thrown, and whether the request has arrived all the same -/
inductive Outcome where
  | sent
  | threw (arrived : Bool)

/-! ## Azure Event Grid -/

namespace EventGrid

inductive Schema where
  | cloudEvents
  | eventGrid

inductive Published (Row : Type) where
  | cloudEvent (source type : String) (data : Body Row)
  | eventGridEvent (subject eventType dataVersion : String) (data : Body Row)

inductive Reply where
  | threw
  | response (isError : Bool)

inductive SendOutcome where
  | threw (arrived : Bool)
  | response (isError : Bool) (arrived : Bool)

/-- a response that is no error says that the events have arrived -/
def service : Service Unit (List (Published Row)) SendOutcome Reply (Published Row) where
  serve _ events
    | .threw arrived => ⟨.threw, (), if arrived then events else []⟩
    | .response true arrived => ⟨.response true, (), if arrived then events else []⟩
    | .response false _ => ⟨.response false, (), events⟩
  restart := id

def event (schema : Schema) (queryId type : String) (data : Body Row) : Published Row :=
  match schema with
  | .cloudEvents => .cloudEvent queryId type data
  | .eventGrid => .eventGridEvent queryId type "1" data

/-- `SendEventAsync` and `SendEventsAsync`, with the check of the response -/
def send (events : List (Published Row)) : Prog (List (Published Row)) Reply String Unit :=
  .call events fun
    | .threw => .stop "RequestFailedException"
    | .response true => .stop "Error sending message to Event Grid"
    | .response false => .ret ()

def handleChange (schema : Schema) (outputFormat : OutputFormat) (evt : ChangeEvent Row) :
    Prog (List (Published Row)) Reply String Unit :=
  match outputFormat with
  | .packed => send [event schema evt.queryId "Drasi.ChangeEvent" (.notifications (format evt))]
  | .unpacked =>
    send ((format evt).map fun notification => event schema evt.queryId "Drasi.ChangeEvent" (.notification notification))
  | .undefined => .stop "Invalid output format"

def handleControlSignal (schema : Schema) (outputFormat : OutputFormat) (evt : ControlEvent) :
    Prog (List (Published Row)) Reply String Unit :=
  match outputFormat with
  | .packed => send [event schema evt.queryId "Drasi.ControlSignal" (.control evt)]
  | .unpacked => send [event schema evt.queryId "Drasi.ControlSignal" (.signal (controlNotification evt))]
  | .undefined => .stop "Invalid output format"

def reaction (schema : Schema) (outputFormat : OutputFormat) : Event Row → Prog (List (Published Row)) Reply String Unit :=
  processEvent (C := Unit) (fun _ => none) (fun evt _ => handleChange schema outputFormat evt)
    fun evt _ => handleControlSignal schema outputFormat evt

/-- what is owed for an event -/
def owed (schema : Schema) (outputFormat : OutputFormat) : Event Row → List (Published Row)
  | .change evt => (changeMessages outputFormat (.notifications (format evt)) evt).map
      (event schema evt.queryId "Drasi.ChangeEvent")
  | .control evt => (controlMessages outputFormat (.signal (controlNotification evt)) evt).map
      (event schema evt.queryId "Drasi.ControlSignal")
  | .other => []
  | .malformed => []

theorem send_inOrder (events : List (Published Row)) : InOrder service (send events) events := by
  refine .send fun s o => ?_
  cases o with
  | threw arrived => cases arrived <;> exact .inr ⟨by simp [service], _, rfl⟩
  | response isError arrived =>
    cases isError with
    | false => exact .inl ⟨rfl, rfl⟩
    | true => cases arrived <;> exact .inr ⟨by simp [service], _, rfl⟩

theorem eventGrid_inOrder (schema : Schema) (outputFormat : OutputFormat) (e : Event Row) :
    InOrder service (reaction schema outputFormat e) (owed schema outputFormat e) := by
  cases e with
  | change evt =>
    by_cases hresults : hasResults evt
    · simp only [reaction, processEvent, owed, changeMessages, hresults, if_true]
      cases outputFormat with
      | packed => exact send_inOrder _
      | unpacked =>
        rw [List.map_map]
        exact send_inOrder _
      | undefined => trivial
    · simp only [reaction, processEvent, owed, changeMessages, hresults]
      exact .ret
  | control evt => cases outputFormat <;> first | exact send_inOrder _ | trivial
  | other => exact .ret
  | malformed => trivial

end EventGrid

/-! ## Azure Storage Queue -/

namespace StorageQueue

def service : Service Unit (Body Row) Outcome Bool (Body Row) where
  serve _ message
    | .sent => ⟨true, (), [message]⟩
    | .threw arrived => ⟨false, (), if arrived then [message] else []⟩
  restart := id

def sendMessage (message : Body Row) : Prog (Body Row) Bool String Unit :=
  .call message fun
    | true => .ret ()
    | false => .stop "RequestFailedException"

def handleChange (outputFormat : OutputFormat) (evt : ChangeEvent Row) : Prog (Body Row) Bool String Unit :=
  match outputFormat with
  | .packed => sendMessage (.change evt)
  | .unpacked => Prog.forEach (fun notification => sendMessage (.notification notification)) (format evt)
  | .undefined => .stop "Invalid output format"

def handleControlSignal (outputFormat : OutputFormat) (evt : ControlEvent) : Prog (Body Row) Bool String Unit :=
  match outputFormat with
  | .packed => sendMessage (.control evt)
  | .unpacked => sendMessage (.signal (controlNotification evt))
  | .undefined => .stop "Invalid output format"

def reaction (outputFormat : OutputFormat) : Event Row → Prog (Body Row) Bool String Unit :=
  processEvent (C := Unit) (fun _ => none) (fun evt _ => handleChange outputFormat evt)
    fun evt _ => handleControlSignal outputFormat evt

def owed (outputFormat : OutputFormat) : Event Row → List (Body Row)
  | .change evt => changeMessages outputFormat (.change evt) evt
  | .control evt => controlMessages outputFormat (.signal (controlNotification evt)) evt
  | .other => []
  | .malformed => []

theorem sendMessage_inOrder (message : Body Row) : InOrder service (sendMessage message) [message] := by
  refine .send fun s o => ?_
  cases o with
  | sent => exact .inl ⟨rfl, rfl⟩
  | threw arrived => cases arrived <;> exact .inr ⟨by simp [service], _, rfl⟩

theorem storageQueue_inOrder (outputFormat : OutputFormat) (e : Event Row) :
    InOrder service (reaction outputFormat e) (owed outputFormat e) := by
  cases e with
  | change evt =>
    by_cases hresults : hasResults evt
    · simp only [reaction, processEvent, owed, changeMessages, hresults, if_true]
      cases outputFormat with
      | packed => exact sendMessage_inOrder _
      | unpacked => exact .forEach_map (fun notification => sendMessage_inOrder (.notification notification)) _
      | undefined => trivial
    · simp only [reaction, processEvent, owed, changeMessages, hresults]
      exact .ret
  | control evt => cases outputFormat <;> first | exact sendMessage_inOrder _ | trivial
  | other => exact .ret
  | malformed => trivial

end StorageQueue

/-! ## A topic of Dapr -/

namespace PostDaprPubSub

structure QueryConfig where
  pubsubName : String
  topicName : String
  packed : Bool
  skipControlSignals : Bool

structure Published (Row : Type) where
  pubsubName : String
  topicName : String
  data : Body Row

def service : Service Unit (Published Row) Outcome Bool (Published Row) where
  serve _ event
    | .sent => ⟨true, (), [event]⟩
    | .threw arrived => ⟨false, (), if arrived then [event] else []⟩
  restart := id

def publishEvent (config : QueryConfig) (data : Body Row) : Prog (Published Row) Bool String Unit :=
  .call ⟨config.pubsubName, config.topicName, data⟩ fun
    | true => .ret ()
    | false => .stop "DaprException"

def handleChange (evt : ChangeEvent Row) : Option QueryConfig → Prog (Published Row) Bool String Unit
  | none => .stop "Query configuration is null for query"
  | some queryConfig =>
    if queryConfig.packed then publishEvent queryConfig (.change evt)
    else Prog.forEach (fun eventData => publishEvent queryConfig (.notification eventData)) (format evt)

def handleControlSignal (evt : ControlEvent) : Option QueryConfig → Prog (Published Row) Bool String Unit
  | none => .stop "Query configuration is null for query"
  | some queryConfig =>
    if queryConfig.skipControlSignals then .ret ()
    else if queryConfig.packed then publishEvent queryConfig (.control evt)
    else publishEvent queryConfig (.signal (controlNotification evt))

def reaction (queriesConfig : String → Option QueryConfig) : Event Row → Prog (Published Row) Bool String Unit :=
  processEvent queriesConfig handleChange handleControlSignal

def messages (queryConfig : QueryConfig) : Event Row → List (Body Row)
  | .change evt => changeMessages (if queryConfig.packed then .packed else .unpacked) (.change evt) evt
  | .control evt =>
    if queryConfig.skipControlSignals then []
    else controlMessages (if queryConfig.packed then .packed else .unpacked) (.signal (controlNotification evt)) evt
  | .other => []
  | .malformed => []

def owed (queriesConfig : String → Option QueryConfig) (e : Event Row) : List (Published Row) :=
  match e.queryId.bind queriesConfig with
  | none => []
  | some queryConfig => (messages queryConfig e).map (⟨queryConfig.pubsubName, queryConfig.topicName, ·⟩)

theorem publishEvent_inOrder (config : QueryConfig) (data : Body Row) :
    InOrder service (publishEvent config data) [⟨config.pubsubName, config.topicName, data⟩] := by
  refine .send fun s o => ?_
  cases o with
  | sent => exact .inl ⟨rfl, rfl⟩
  | threw arrived => cases arrived <;> exact .inr ⟨by simp [service], _, rfl⟩

theorem postDaprPubSub_inOrder (queriesConfig : String → Option QueryConfig) (e : Event Row) :
    InOrder service (reaction queriesConfig e) (owed queriesConfig e) := by
  cases e with
  | change evt =>
    rw [reaction, processEvent, owed, Event.queryId, Option.bind_some]
    cases queriesConfig evt.queryId with
    | none =>
      split_ifs
      · trivial
      · exact .ret
    | some queryConfig =>
      by_cases hresults : hasResults evt
      · simp only [messages, changeMessages, hresults, if_true, handleChange]
        cases queryConfig.packed with
        | true => exact publishEvent_inOrder queryConfig _
        | false =>
          simp only [Bool.false_eq_true, if_false, List.map_map]
          exact .forEach_map (fun eventData => publishEvent_inOrder queryConfig (.notification eventData)) _
      · simp only [messages, changeMessages, hresults]
        exact .ret
  | control evt =>
    rw [reaction, processEvent, owed, Event.queryId, Option.bind_some]
    cases queriesConfig evt.queryId with
    | none => trivial
    | some queryConfig =>
      rw [handleControlSignal]
      dsimp only
      rw [messages]
      split_ifs
      · exact .ret
      · exact publishEvent_inOrder queryConfig _
      · exact publishEvent_inOrder queryConfig _
  | other => exact .ret
  | malformed => trivial

end PostDaprPubSub

/-! ## A call of a web service -/

namespace Http

structure CallSpec where
  url : String
  method : String
  body : Option String
  headers : List (String × String)

structure QueryConfig where
  added : Option CallSpec
  updated : Option CallSpec
  deleted : Option CallSpec

structure ReactionConfig where
  baseUrl : String
  token : Option String
  timeout : ℕ

structure Request where
  baseURL : String
  url : String
  method : String
  timeout : ℕ
  data : String
  headers : List (String × String)

def service : Service Unit Request Outcome Bool Request where
  serve _ request
    | .sent => ⟨true, (), [request]⟩
    | .threw arrived => ⟨false, (), if arrived then [request] else []⟩
  restart := id

/-- what a template is applied to -/
structure Context (Row : Type) where
  before : Option Row
  after : Option Row

/-- a template that cannot be applied throws -/
abbrev Templates (Row : Type) := String → Context Row → Except String String

def callHeaders (config : ReactionConfig) (spec : CallSpec) : List (String × String) :=
  (config.token.toList.map fun token => ("Authorization", "Bearer " ++ token)) ++ spec.headers

/-- a status that is no success throws -/
def request (templates : Templates Row) (config : ReactionConfig) (spec : CallSpec) (context : Context Row) :
    Prog Request Bool String Unit :=
  match templates spec.url context, templates (spec.body.getD "") context with
  | .error e, _ => .stop e
  | _, .error e => .stop e
  | .ok url, .ok body =>
    .call ⟨config.baseUrl, url, spec.method, config.timeout, body, callHeaders config spec⟩ fun
      | true => .ret ()
      | false => .stop "AxiosError"

/-- the requests of one kind of results, where the query has a template for them -/
def requests (templates : Templates Row) (config : ReactionConfig) (spec : Option CallSpec) (contexts : List (Context Row)) :
    Prog Request Bool String Unit :=
  match spec with
  | none => .ret ()
  | some spec => Prog.forEach (request templates config spec) contexts

/-- what was deleted comes before what was updated -/
def onChangeEvent (templates : Templates Row) (config : ReactionConfig) (event : ChangeEvent Row) :
    Option QueryConfig → Prog Request Bool String Unit
  | none => .stop "Cannot read properties of undefined"
  | some queryConfig =>
    (requests templates config queryConfig.added (event.addedResults.map fun added => ⟨none, some added⟩)).bind fun _ =>
    (requests templates config queryConfig.deleted (event.deletedResults.map fun deleted => ⟨some deleted, none⟩)).bind
      fun _ =>
    requests templates config queryConfig.updated
      (event.updatedResults.map fun updated => ⟨updated.before, updated.after⟩)

/-- `onMessage` of the SDK (`javascript/src/index.ts`) with the handlers of the reaction -/
def onMessage (templates : Templates Row) (config : ReactionConfig) (queryConfig : String → Option QueryConfig) :
    Event Row → Prog Request Bool String Unit
  | .change event => onChangeEvent templates config event (queryConfig event.queryId)
  | .control _ => .ret ()
  | .other => .ret ()
  | .malformed => .stop "Cannot read properties of undefined"

/-- the request that a result asks for -/
def requestOf (templates : Templates Row) (config : ReactionConfig) (spec : CallSpec) (context : Context Row) :
    Option Request :=
  match templates spec.url context, templates (spec.body.getD "") context with
  | .ok url, .ok body => some ⟨config.baseUrl, url, spec.method, config.timeout, body, callHeaders config spec⟩
  | _, _ => none

def owedRequests (templates : Templates Row) (config : ReactionConfig) (spec : Option CallSpec)
    (contexts : List (Context Row)) : List Request :=
  match spec with
  | none => []
  | some spec => contexts.flatMap fun context => (requestOf templates config spec context).toList

def owed (templates : Templates Row) (config : ReactionConfig) (queryConfig : String → Option QueryConfig) :
    Event Row → List Request
  | .change event =>
    match queryConfig event.queryId with
    | none => []
    | some queryConfig =>
      owedRequests templates config queryConfig.added (event.addedResults.map fun added => ⟨none, some added⟩) ++
      (owedRequests templates config queryConfig.deleted (event.deletedResults.map fun deleted => ⟨some deleted, none⟩) ++
      owedRequests templates config queryConfig.updated
        (event.updatedResults.map fun updated => ⟨updated.before, updated.after⟩))
  | .control _ => []
  | .other => []
  | .malformed => []

theorem request_inOrder (templates : Templates Row) (config : ReactionConfig) (spec : CallSpec) (context : Context Row) :
    InOrder service (request templates config spec context) (requestOf templates config spec context).toList := by
  rw [request, requestOf]
  cases templates spec.url context with
  | error e => trivial
  | ok url =>
    cases templates (spec.body.getD "") context with
    | error e => trivial
    | ok body =>
      refine .send fun s o => ?_
      cases o with
      | sent => exact .inl ⟨rfl, rfl⟩
      | threw arrived => cases arrived <;> exact .inr ⟨by simp [service], _, rfl⟩

theorem requests_inOrder (templates : Templates Row) (config : ReactionConfig) (spec : Option CallSpec)
    (contexts : List (Context Row)) :
    InOrder service (requests templates config spec contexts) (owedRequests templates config spec contexts) := by
  cases spec with
  | none => exact .ret
  | some spec => exact .forEach fun context _ => request_inOrder templates config spec context

theorem http_inOrder (templates : Templates Row) (config : ReactionConfig) (queryConfig : String → Option QueryConfig)
    (e : Event Row) : InOrder service (onMessage templates config queryConfig e) (owed templates config queryConfig e) := by
  cases e with
  | change event =>
    rw [onMessage, owed]
    cases queryConfig event.queryId with
    | none => trivial
    | some spec =>
      refine (requests_inOrder templates config _ _).bind fun _ => ?_
      exact (requests_inOrder templates config _ _).bind fun _ => requests_inOrder templates config _ _
  | control evt => exact .ret
  | other => exact .ret
  | malformed => trivial

end Http

/-! ## Amazon EventBridge -/

namespace EventBridge

structure CloudEvent (Row : Type) where
  type : String
  source : String
  data : Body Row
  version : String

structure PutEventsRequestEntry (Row : Type) where
  source : String
  detail : CloudEvent Row
  detailType : String
  eventBusName : String

inductive Reply where
  | threw
  | response (failedEntryCount : ℕ)

/-- the entries are taken or refused one by one -/
inductive PutOutcome where
  | threw (refused : ℕ → Bool)
  | response (refused : ℕ → Bool)

/-- the entries that are refused, or that are not -/
def entriesBy {E : Type} (refused : ℕ → Bool) (entries : List E) : List E :=
  (entries.zipIdx.filter fun e => refused e.2).map Prod.fst

def service : Service Unit (List (PutEventsRequestEntry Row)) PutOutcome Reply (PutEventsRequestEntry Row) where
  serve _ entries
    | .threw refused => ⟨.threw, (), entriesBy (!refused ·) entries⟩
    | .response refused => ⟨.response (entriesBy refused entries).length, (), entriesBy (!refused ·) entries⟩
  restart := id

def entry (eventBusName queryId type : String) (data : Body Row) : PutEventsRequestEntry Row where
  source := queryId
  detail := ⟨type, queryId, data, "1.0"⟩
  detailType := type
  eventBusName := eventBusName

/-- that entries have failed is only logged -/
def putEvents (entries : List (PutEventsRequestEntry Row)) :
    Prog (List (PutEventsRequestEntry Row)) Reply String Unit :=
  .call entries fun
    | .threw => .stop "AmazonEventBridgeException"
    | .response _ => .ret ()

def handleChange (eventBusName : String) (outputFormat : OutputFormat) (evt : ChangeEvent Row) :
    Prog (List (PutEventsRequestEntry Row)) Reply String Unit :=
  match outputFormat with
  | .packed => putEvents [entry eventBusName evt.queryId "Drasi.ChangeEvent.Packed" (.change evt)]
  | .unpacked =>
    putEvents ((format evt).map fun result =>
      entry eventBusName evt.queryId "Drasi.ChangeEvent.Unpacked" (.notification result))
  | .undefined => .stop "Invalid output format"

def handleControlSignal (eventBusName : String) (outputFormat : OutputFormat) (evt : ControlEvent) :
    Prog (List (PutEventsRequestEntry Row)) Reply String Unit :=
  match outputFormat with
  | .packed => putEvents [entry eventBusName evt.queryId "Drasi.ControlEvent.Packed" (.control evt)]
  | .unpacked =>
    putEvents [entry eventBusName evt.queryId "Drasi.ControlEvent.Unpacked" (.signalText (controlNotification evt))]
  | .undefined => .stop "Invalid output format"

def reaction (eventBusName : String) (outputFormat : OutputFormat) :
    Event Row → Prog (List (PutEventsRequestEntry Row)) Reply String Unit :=
  processEvent (C := Unit) (fun _ => none) (fun evt _ => handleChange eventBusName outputFormat evt)
    fun evt _ => handleControlSignal eventBusName outputFormat evt

def owed (eventBusName : String) (outputFormat : OutputFormat) : Event Row → List (PutEventsRequestEntry Row)
  | .change evt =>
    let type := match outputFormat with
      | .packed => "Drasi.ChangeEvent.Packed"
      | _ => "Drasi.ChangeEvent.Unpacked"
    (changeMessages outputFormat (.change evt) evt).map (entry eventBusName evt.queryId type)
  | .control evt =>
    let type := match outputFormat with
      | .packed => "Drasi.ControlEvent.Packed"
      | _ => "Drasi.ControlEvent.Unpacked"
    (controlMessages outputFormat (.signalText (controlNotification evt)) evt).map (entry eventBusName evt.queryId type)
  | .other => []
  | .malformed => []

/-- an answer that counts no failed entry -/
def Reply.Complete : Reply → Prop
  | .threw => False
  | .response failedEntryCount => failedEntryCount = 0

theorem entriesBy_sublist {E : Type} (refused : ℕ → Bool) (entries : List E) :
    (entriesBy refused entries).Sublist entries := by
  have h : ((entries.zipIdx.filter fun e => refused e.2).map Prod.fst).Sublist (entries.zipIdx.map Prod.fst) :=
    List.filter_sublist.map _
  rwa [List.zipIdx_map_fst] at h

theorem length_entriesBy {E : Type} (refused : ℕ → Bool) (entries : List E) :
    (entriesBy refused entries).length + (entriesBy (!refused ·) entries).length = entries.length := by
  rw [entriesBy, entriesBy, List.length_map, List.length_map, ← List.countP_eq_length_filter,
    ← List.countP_eq_length_filter]
  have h := List.length_eq_countP_add_countP (fun e : E × ℕ => refused e.2) (l := entries.zipIdx)
  simpa using h.symm

/-- the entries are all taken exactly when none is refused -/
theorem sublist_entriesBy_iff {E : Type} (refused : ℕ → Bool) (entries : List E) :
    entries.Sublist (entriesBy (!refused ·) entries) ↔ (entriesBy refused entries).length = 0 := by
  have hlength := length_entriesBy refused entries
  refine ⟨fun h => ?_, fun h => ?_⟩
  · have := h.length_le
    omega
  · have heq : entriesBy (!refused ·) entries = entries := (entriesBy_sublist _ entries).eq_of_length (by omega)
    rw [heq]

theorem putEvents_ends (entries : List (PutEventsRequestEntry Row)) :
    Ends service (fun put answers => entries.Sublist put ↔ ∀ a ∈ answers, a.Complete) (putEvents entries) [] [] := by
  intro s o
  cases o with
  | threw refused => trivial
  | response refused =>
    simpa [Ends, service, Reply.Complete] using sublist_entriesBy_iff refused entries

theorem eventBridge_ends (eventBusName : String) (outputFormat : OutputFormat) (e : Event Row) :
    Ends service (fun put answers => (owed eventBusName outputFormat e).Sublist put ↔ ∀ a ∈ answers, a.Complete)
      (reaction eventBusName outputFormat e) [] [] := by
  have hnothing : ([] : List (PutEventsRequestEntry Row)).Sublist [] ↔ ∀ a ∈ ([] : List Reply), a.Complete :=
    iff_of_true (List.nil_sublist _) fun a ha => (by cases ha)
  cases e with
  | change evt =>
    by_cases hresults : hasResults evt
    · simp only [reaction, processEvent, owed, changeMessages, hresults, if_true]
      cases outputFormat with
      | packed => exact putEvents_ends _
      | unpacked =>
        rw [List.map_map]
        exact putEvents_ends _
      | undefined => trivial
    · simp only [reaction, processEvent, owed, changeMessages, hresults]
      exact hnothing
  | control evt => cases outputFormat <;> first | exact putEvents_ends _ | trivial
  | other => exact hnothing
  | malformed => trivial

end EventBridge

/-! ## Whatever runs at the same time -/

/-- **No acknowledged event is lost.** -/
theorem forwarders_lose_nothing (events : ℕ → Event Row) :
    (∀ schema outputFormat ops,
      (run (step EventGrid.service fun i => EventGrid.reaction schema outputFormat (events i)) (.new ()) ops).LosesNothing
        fun i => EventGrid.owed schema outputFormat (events i)) ∧
    (∀ outputFormat ops,
      (run (step StorageQueue.service fun i => StorageQueue.reaction outputFormat (events i)) (.new ()) ops).LosesNothing
        fun i => StorageQueue.owed outputFormat (events i)) ∧
    (∀ queriesConfig ops,
      (run (step PostDaprPubSub.service fun i => PostDaprPubSub.reaction queriesConfig (events i)) (.new ())
        ops).LosesNothing fun i => PostDaprPubSub.owed queriesConfig (events i)) ∧
    (∀ templates config queryConfig ops,
      (run (step Http.service fun i => Http.onMessage templates config queryConfig (events i)) (.new ()) ops).LosesNothing
        fun i => Http.owed templates config queryConfig (events i)) :=
  ⟨fun schema outputFormat => acknowledged_inOrder (fun i => EventGrid.eventGrid_inOrder schema outputFormat (events i)) (),
    fun outputFormat => acknowledged_inOrder (fun i => StorageQueue.storageQueue_inOrder outputFormat (events i)) (),
    fun queriesConfig => acknowledged_inOrder (fun i => PostDaprPubSub.postDaprPubSub_inOrder queriesConfig (events i)) (),
    fun templates config queryConfig =>
      acknowledged_inOrder (fun i => Http.http_inOrder templates config queryConfig (events i)) ()⟩

/-- **What EventBridge loses.** -/
theorem eventBridge_loses_iff (eventBusName : String) (outputFormat : OutputFormat) (events : ℕ → Event Row)
    (ops : List (Op EventBridge.PutOutcome)) :
    (run (step EventBridge.service fun i => EventBridge.reaction eventBusName outputFormat (events i)) (.new ())
      ops).AtEnds fun i put answers =>
        (EventBridge.owed eventBusName outputFormat (events i)).Sublist put ↔ ∀ a ∈ answers, a.Complete :=
  acknowledged_ends (fun i => EventBridge.eventBridge_ends eventBusName outputFormat (events i)) () ops

/-- an event with two new rows -/
def twoAdded : ChangeEvent ℕ := ⟨"q", 1, 0, [1, 2], [], []⟩

/-- the second of two entries is refused, and the event acknowledged -/
theorem eventBridge_loses_an_entry :
    ∃ r ∈ (run (step EventBridge.service fun _ => EventBridge.reaction "default" .unpacked (.change twoAdded)) (.new ())
        [.deliver 0, .serve 0 (.response (· == 1))]).acknowledged,
      ¬ (EventBridge.owed "default" .unpacked (.change twoAdded)).Sublist r.put := by
  have hends := eventBridge_loses_iff "default" .unpacked (fun _ => .change twoAdded)
    [.deliver 0, .serve 0 (.response (· == 1))]
  refine ⟨_, List.mem_singleton.2 rfl, fun hput => ?_⟩
  have hcomplete := ((hends _ (List.mem_singleton.2 rfl)).2.1 hput) (.response 1) (List.mem_singleton.2 rfl)
  cases hcomplete

/-! ## Events in order -/

section Keyed

variable {K V : Type} [DecidableEq K]

/-- **A consumer with a key for each message** ends as if every event had been sent once. -/
theorem keyed_consumer_agrees (events : List (Event Row)) :
    (∀ outputFormat turns,
      let st := run (turn StorageQueue.service (StorageQueue.reaction outputFormat) events) ⟨(), 0, []⟩ turns
      st.next = events.length → ∀ (writes : Body Row → List (K × V)) (f : K → V),
        Writes.apply f (st.sink.flatMap writes) =
          Writes.apply f ((events.flatMap (StorageQueue.owed outputFormat)).flatMap writes)) ∧
    (∀ queriesConfig turns,
      let st := run (turn PostDaprPubSub.service (PostDaprPubSub.reaction queriesConfig) events) ⟨(), 0, []⟩ turns
      st.next = events.length → ∀ (writes : PostDaprPubSub.Published Row → List (K × V)) (f : K → V),
        Writes.apply f (st.sink.flatMap writes) =
          Writes.apply f ((events.flatMap (PostDaprPubSub.owed queriesConfig)).flatMap writes)) :=
  ⟨fun outputFormat _ hall => apply_attempts (StorageQueue.storageQueue_inOrder outputFormat) hall,
    fun queriesConfig _ hall => apply_attempts (PostDaprPubSub.postDaprPubSub_inOrder queriesConfig) hall⟩

end Keyed

/-- the first attempt breaks off after one message, and of the second one the queue does not hear -/
def repeatedTurns : List (Turn Outcome) :=
  [.attempt [.sent, .threw false] true, .attempt [.sent, .sent] false, .attempt [.sent, .sent] true]

/-- a table of the rows that notifications have added -/
def addedRows : Body ℕ → List (ℕ × String)
  | .notification result => result.payload.after.toList.map fun row => (row, "added")
  | _ => []

theorem keyed_consumer_agrees_repeated :
    Writes.apply (fun _ => "") ((run (turn StorageQueue.service (StorageQueue.reaction .unpacked) [.change twoAdded])
        ⟨(), 0, []⟩ repeatedTurns).sink.flatMap addedRows) =
      Writes.apply (fun _ => "") (([.change twoAdded].flatMap (StorageQueue.owed .unpacked)).flatMap addedRows) :=
  (keyed_consumer_agrees [.change twoAdded]).1 .unpacked repeatedTurns rfl addedRows fun _ => ""

end DrasiPlatform.Forwarders
