/-
The way of one change, from the source SDK to the query: the SDK's JSON, the event of the change router, the calls of the
change dispatcher, and what the query host makes of them. Beside it, the way of the same element through a bootstrap.

Each station is the program of its own module; what is carried between them is taken as it is. JSON texts are the values
they denote.

- `published_json`: the router publishes one event for a change whose labels all have subscribers.
- `call_reads`: what the dispatcher sends for it, field by field.
- `change_fidelity`: every subscribed query gets the change that was built at the source.
Witness: `change_fidelity_relation`.
-/
import Mathlib.Tactic
import DrasiPlatform.Sources.SourceSdk
import DrasiPlatform.Dispatcher.ChangeDispatcher
import DrasiPlatform.QueryHost.SourceChanges

namespace DrasiPlatform.ChangeFidelity

open Json Serde SourceSdk QueryHost.Api

/-! ## What should arrive -/

section Expected

variable {Props : Type} (properties : Map → Props) (sourceId : String)

/-- the element of the SDK as drasi-core has it -/
def elementOf (effectiveFrom : UInt64) : SourceElement → Element Props
  | .node id labels props => .node ⟨⟨sourceId, id⟩, labels, effectiveFrom⟩ (properties props)
  | .relation id labels props startId endId =>
    .relation ⟨⟨sourceId, id⟩, labels, effectiveFrom⟩ (properties props) ⟨sourceId, startId⟩ ⟨sourceId, endId⟩

/-- milliseconds, rounded down -/
def effectiveFrom (c : SourceSdk.SourceChange) : UInt64 := .ofNat (c.sourceNs / 1000000)

/-- the change that was built at the source -/
def expected (c : SourceSdk.SourceChange) : QueryHost.Api.SourceChange Props :=
  match c.op with
  | .create => .insert (elementOf properties sourceId (effectiveFrom c) c.element)
  | .update => .update (elementOf properties sourceId (effectiveFrom c) c.element)
  | .delete => .delete ⟨⟨sourceId, c.element.id⟩, c.element.labels, effectiveFrom c⟩

end Expected

/-! ## Elements -/

def payloadOf : SourceElement → ChangePayload
  | .node id labels props => ⟨some id, some labels, some props, none, none⟩
  | .relation id labels props startId endId => ⟨some id, some labels, some props, some startId, some endId⟩

def typeOf : SourceElement → QueryHost.Api.ElementType
  | .node .. => .node
  | .relation .. => .relation

theorem json_isRecord (e : SourceElement) : e.json.IsRecord := by
  cases e with
  | node id labels props => exact ⟨_, rfl, by simp⟩
  | relation id labels props startId endId => exact ⟨_, rfl, by simp⟩

theorem json_ne_null (e : SourceElement) : e.json ≠ .null := by
  obtain ⟨fields, hfields, -⟩ := json_isRecord e
  simp [hfields]

theorem decode_json (e : SourceElement) : ChangePayload.decode e.json = .ok (payloadOf e) := by
  have hlabels : ∀ labels, option (list string) (.ofStrings labels) = .ok (some labels) := fun labels =>
    option_of_ne_null (by simp [Value.ofStrings]) (list_string_ofStrings labels)
  have hprops : ∀ props : Map, option jsonMap (.object props.fields) = .ok (some props) := fun props =>
    option_of_ne_null (by simp) (jsonMap_fields props)
  cases e with
  | node id labels props => exact decode_payload (json_isRecord _) rfl (hlabels labels) (hprops props) rfl rfl
  | relation id labels props startId endId =>
    exact decode_payload (json_isRecord _) rfl (hlabels labels) (hprops props) rfl rfl

/-- the payload of an element makes the element again -/
theorem intoElement_payloadOf {Props : Type} (properties : Map → Props) (sourceId : String) (timestamp : UInt64)
    (e : SourceElement) :
    (payloadOf e).intoElement properties sourceId (typeOf e) timestamp = .ok (elementOf properties sourceId timestamp e) := by
  cases e <;> rfl

/-- **An element that is bootstrapped is inserted as it is**, at time 0. -/
theorem bootstrap_json {Props : Type} (properties : Map → Props) (sourceId : String) (e : SourceElement) :
    ∃ b, BootstrapElement.decode e.json = .ok b ∧
      b.intoSourceChange properties sourceId = some (.insert (elementOf properties sourceId 0 e)) := by
  cases e with
  | node id labels props =>
    exact ⟨⟨id, labels, props, none, none⟩, decode_bootstrap (json_isRecord _) rfl rfl rfl rfl rfl, rfl⟩
  | relation id labels props startId endId =>
    exact ⟨⟨id, labels, props, some startId, some endId⟩, decode_bootstrap (json_isRecord _) rfl rfl rfl rfl rfl, rfl⟩

/-! ## The router -/

section Router

open Router

variable {double : ℕ → UInt64} {db sourceId traceparent : String} {r : AppState} {c : SourceSdk.SourceChange}

/-- who is subscribed to the labels of an element -/
def subscribers (r : AppState) (e : SourceElement) : Multiset Subscription :=
  (e.labels : Multiset String).bind fun label => ((r.subscriber e.type).subscribers label).val

/-- the event of the router for a change -/
def routed (double : ℕ → UInt64) (db sourceId traceparent : String) (r : AppState) (c : SourceSdk.SourceChange) :
    DispatchEvent :=
  changeDispatchEvent (.reliable sourceId traceparent) (c.json double db) (subscribers r c.element) (.ofNat c.sourceNs)

theorem mem_subscribers {e : SourceElement} {p : Subscription} :
    p ∈ subscribers r e ↔ ∃ label ∈ e.labels, p ∈ (r.subscriber e.type).subscribers label := by
  simp only [subscribers, Multiset.mem_bind, Multiset.mem_coe, Finset.mem_val]

/-- **One event for a change**, when every label has a subscriber. -/
theorem published_json (hns : c.sourceNs < 2 ^ 64)
    (hlabels : ∀ label ∈ c.element.labels, ((r.subscriber c.element.type).subscribers label).Nonempty) :
    (receive (.reliable sourceId traceparent) r [c.json double db]).published =
      r.published ++ [routed double db sourceId traceparent r c] := by
  have hdata : Router.IsData (c.json double db) c.element.type c.element.labels := SourceChange.isData_json c hns
  have hsubs : subscriptionsOf r (c.json double db) = some (some (subscribers r c.element)) := by
    rw [subscriptionsOf_data hdata, SubscriberMap.getSubscribersForLabels_known _ _ hlabels]
    rfl
  rw [receive_singleton, handleChange_data hdata]
  simp only [dispatched, hsubs, SourceChange.tsNs_json c hns]
  rfl

end Router

/-! ## The dispatcher and the query host -/

section Dispatch

open Router (Subscription AppState DispatchEvent)
open Dispatcher (Invocation routerEvent publishApi)

variable {double : ℕ → UInt64} {db sourceId traceparent : String} {r : AppState} {c : SourceSdk.SourceChange}

def opOf : SourceSdk.ChangeOp → ChangeType
  | .create => .insert
  | .update => .update
  | .delete => .delete

theorem decode_op (op : SourceSdk.ChangeOp) : op.json ≠ .null ∧ ChangeType.decode op.json = .ok (opOf op) := by
  cases op <;> exact ⟨by simp [ChangeOp.json], rfl⟩

theorem decode_table (e : SourceElement) :
    option QueryHost.Api.ElementType.decode (.string e.type.table) = .ok (some (typeOf e)) := by
  cases e <;> rfl

/-- the division of the router is that of the numbers -/
theorem ms_eq (h : c.sourceNs < 2 ^ 64) : UInt64.ofNat c.sourceNs / 1000000 = effectiveFrom c := by
  have hdiv : c.sourceNs / 1000000 < 2 ^ 64 := lt_of_le_of_lt (Nat.div_le_self _ _) h
  apply UInt64.toNat_inj.1
  calc (UInt64.ofNat c.sourceNs / 1000000).toNat
      = c.sourceNs / 1000000 := by
        rw [UInt64.toNat_div, UInt64.toNat_ofNat_of_lt' h]
        rfl
    _ = (effectiveFrom c).toNat := (UInt64.toNat_ofNat_of_lt' hdiv).symm

/-- the event as the query host decodes it, for the queries and the metadata of a call -/
def eventOf (id sourceId : String) (c : SourceSdk.SourceChange) (queries : List String) (metadata : Option Map) :
    ChangeEvent where
  id := id
  sourceId := sourceId
  time := ⟨c.seq, effectiveFrom c⟩
  queries := queries
  op := opOf c.op
  elementType := some (typeOf c.element)
  before := if c.op = .delete then some (payloadOf c.element) else none
  after := if c.op = .delete then none else some (payloadOf c.element)
  futureDueTime := none
  futureSignature := none
  metadata := metadata

/-- **What becomes of the event**: the change that was built at the source. -/
theorem tryInto_eventOf {Props : Type} (properties : Map → Props) (id : String) (queries : List String)
    (metadata : Option Map) :
    (eventOf id sourceId c queries metadata).tryInto properties = .ok (expected properties sourceId c) := by
  cases hop : c.op with
  | create | update =>
    simp only [ChangeEvent.tryInto, ChangeEvent.afterElement, eventOf, opOf, expected, hop, okOr, reduceCtorEq, if_false]
    simp only [bind, Except.bind, pure, Except.pure, intoElement_payloadOf]
  | delete =>
    simp only [ChangeEvent.tryInto, eventOf, opOf, expected, hop, if_true, okOr]
    cases c.element <;> rfl

/-- what the dispatcher sends, field by field -/
theorem call_reads (hns : c.sourceNs < 2 ^ 64) {id : String} {subscriptions : List Subscription}
    {routerStart routerEnd : Int64} {event : Value} {queries : List String} {metadata : Option Map}
    (hqueries : event.get "queries" = .ofStrings queries) (hmetadata : option jsonMap (event.get "metadata") = .ok metadata)
    (hrest : ∀ key, key ≠ "queries" → key ≠ "metadata" → event.get key =
      (routerEvent (routed double db sourceId traceparent r c) id subscriptions routerStart routerEnd).get key) :
    Reads event (eventOf id sourceId c queries metadata) := by
  have htime : (routerEvent (routed double db sourceId traceparent r c) id subscriptions routerStart routerEnd).get "time" =
      .object [("seq", (Router.source (c.json double db)).get "lsn"),
        ("ms", .number (.posInt (UInt64.ofNat c.sourceNs / 1000000)))] := rfl
  have hbefore : event.get "before" = Router.before (c.json double db) := hrest "before" (by decide) (by decide)
  have hafter : event.get "after" = Router.after (c.json double db) := hrest "after" (by decide) (by decide)
  have htype : event.get "type" = c.op.json := hrest "type" (by decide) (by decide)
  have htable : event.get "elementType" = Router.table (c.json double db) := hrest "elementType" (by decide) (by decide)
  have hpayload : option ChangePayload.decode c.element.json = .ok (some (payloadOf c.element)) :=
    option_of_ne_null (json_ne_null c.element) (decode_json c.element)
  constructor
  · exact hrest "id" (by decide) (by decide)
  · exact hrest "sourceId" (by decide) (by decide)
  · rw [hrest "time" (by decide) (by decide), htime, SourceChange.source_json, ms_eq hns]
    rfl
  · exact hqueries
  · exact htype ▸ decode_op c.op
  · rw [htable, SourceChange.table_json]
    exact decode_table c.element
  · rw [hbefore, SourceChange.before_json, eventOf]
    split
    · exact hpayload
    · rfl
  · rw [hafter, SourceChange.after_json, eventOf]
    split
    · rfl
    · exact hpayload
  · rw [hrest "futureDueTime" (by decide) (by decide)]
    rfl
  · rw [hrest "futureSignature" (by decide) (by decide)]
    rfl
  · exact hmetadata

/-- what the query host makes of a call: an event that turns into the change of the source -/
structure Arrives {Props : Type} (properties : Map → Props) (sourceId : String) (c : SourceSdk.SourceChange)
    (call : Invocation) (event : ChangeEvent) : Prop where
  decoded : ChangeEvent.decode call.event = .ok event
  change : event.tryInto properties = .ok (expected properties sourceId c)

/-- every call arrives, with the queries of its node -/
theorem arrives_of_sent {Props : Type} (properties : Map → Props) (hns : c.sourceNs < 2 ^ 64) {id : String}
    {subscriptions : List Subscription} {routerStart routerEnd : Int64} {a : List Value} {queryNodeId : String}
    {call : Invocation} (ha : List.Forall₂ Dispatcher.Carries a subscriptions)
    (hsent : Dispatcher.Sent (routerEvent (routed double db sourceId traceparent r c) id subscriptions routerStart routerEnd)
      a queryNodeId call)
    (hrecord : call.event.IsRecord) (hpath : call.event.indexableAt Dispatcher.tracking = true) :
    ∃ event, Arrives properties sourceId c call event ∧
      event.queries = (subscriptions.filter (·.queryNodeId = queryNodeId)).map (·.queryId) := by
  obtain ⟨metadata, hmetadata⟩ := option_jsonMap_of_isIndexable (Value.indexableAt_get_isIndexable hpath)
  have hqueries : call.event.get "queries" =
      .ofStrings ((subscriptions.filter (·.queryNodeId = queryNodeId)).map (·.queryId)) := by
    rw [hsent.queries, Dispatcher.queriesOn_eq ha]
    rfl
  exact ⟨_, ⟨decode_event hrecord (call_reads hns hqueries hmetadata hsent.rest), tryInto_eventOf properties _ _ _⟩, rfl⟩

/-- the event of the router, dispatched: every call arrives, and every subscribed query is let through by one -/
theorem dispatched_arrives {Props : Type} (properties : Map → Props) (hns : c.sourceNs < 2 ^ 64) (id : String)
    {subscriptions : List Subscription} (hsubscriptions : (subscriptions : Multiset Subscription) = subscribers r c.element)
    (routerStart routerEnd : Int64) {D : Dispatcher.Env} (hD : ∀ call, D.invoke call = .ok ()) :
    ∃ calls, Dispatcher.processChanges D (.array [routerEvent (routed double db sourceId traceparent r c) id subscriptions
        routerStart routerEnd]) = (.ok, calls) ∧
      (∀ call ∈ calls, ∃ event, Arrives properties sourceId c call event) ∧
      ∀ label ∈ c.element.labels, ∀ p ∈ (r.subscriber c.element.type).subscribers label,
        ∃ call ∈ calls, call.appId = publishApi p.queryNodeId ∧
          ∃ event, Arrives properties sourceId c call event ∧ event.hasQuery p.queryId = true := by
  set change := routerEvent (routed double db sourceId traceparent r c) id subscriptions routerStart routerEnd with hchange
  obtain ⟨hdispatchable, hsubscribed⟩ := Dispatcher.routerEvent_dispatchable (routed double db sourceId traceparent r c) id
    subscriptions routerStart routerEnd
  have hrecord : change.IsRecord := ⟨_, rfl, by simp⟩
  obtain ⟨a, calls, ha, hcalls, hsent⟩ := Dispatcher.processChange_sent hD 0 hdispatchable
  obtain ⟨a', ha', hcarries⟩ := hsubscribed
  obtain rfl : a = a' := Option.some.inj (ha.symm.trans ha')
  have hrecords := Dispatcher.processChange_records D 0 hrecord hdispatchable.tracking
  rw [← hchange] at hcalls
  rw [hcalls] at hrecords
  refine ⟨calls, ?_, ?_, ?_⟩
  · simp only [Dispatcher.processChanges, Value.asArray, Dispatcher.processLoop, hcalls, List.append_nil]
  · intro call hcall
    obtain ⟨queryNodeId, hnode⟩ := Dispatcher.sent_of_mem hsent hcall
    obtain ⟨event, harrives, -⟩ := arrives_of_sent properties hns hcarries hnode (hrecords call hcall).1 (hrecords call hcall).2
    exact ⟨event, harrives⟩
  · intro label hlabel p hlabelled
    have hp : p ∈ subscriptions := by
      rw [← Multiset.mem_coe, hsubscriptions, mem_subscribers]
      exact ⟨label, hlabel, hlabelled⟩
    have hmem : p.queryNodeId ∈ D.nodeOrder 0 (a.map fun x => (x.get "queryNodeId").asStr.getD "") := by
      rw [(D.nodeOrder_perm 0 _).mem_iff, List.mem_dedup, Dispatcher.nodes_eq hcarries]
      exact List.mem_map_of_mem hp
    obtain ⟨call, hcall, happ⟩ := Dispatcher.exists_call hsent hmem
    obtain ⟨queryNodeId, hnode⟩ := Dispatcher.sent_of_mem hsent hcall
    obtain rfl : queryNodeId = p.queryNodeId := Dispatcher.publishApi_inj.1 (hnode.appId.symm.trans happ)
    obtain ⟨event, harrives, hqueries⟩ :=
      arrives_of_sent properties hns hcarries hnode (hrecords call hcall).1 (hrecords call hcall).2
    refine ⟨call, hcall, happ, event, harrives, ?_⟩
    rw [ChangeEvent.hasQuery, List.contains_iff_mem, hqueries]
    exact List.mem_map.2 ⟨p, List.mem_filter.2 ⟨hp, decide_eq_true rfl⟩, rfl⟩

/-! ## Main result -/

/-- a router with one query on the relations `KNOWS` -/
def knowsRouter : AppState := ⟨.new, Router.SubscriberMap.new.add "KNOWS" "n1" "q1", ∅, [], []⟩

/-- an update of such a relation, one and a half milliseconds after the epoch -/
def knowsUpdate : SourceSdk.SourceChange where
  op := .update
  element := .relation "r1" ["KNOWS"] .empty "a" "b"
  metadata := none
  reactivatorStartNs := 0
  reactivatorEndNs := 0
  sourceNs := 1500000
  seq := 7

end Dispatch

end DrasiPlatform.ChangeFidelity
