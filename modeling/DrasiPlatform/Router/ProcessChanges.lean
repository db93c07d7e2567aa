/-
The change router of a source (`sources/shared/change-router/src/main.rs`): `process_changes` over a batch of change
events, for data changes (dispatched to the subscribers of the element's labels) and for the control events
`SourceSubscription` by which a query subscribes (`i`) and unsubscribes (`d`).

Events are the JSON values the router receives, read with the source's own accessors, so a missing or wrongly typed field
takes the branch it takes in the source. `handleChange` is one turn of the loop over the batch: it ends with `next` (the
source's `continue`, or the end of the body) or with `ret` (a `return` out of the whole function). The remote calls
(`save_state`, `delete_state`, `publish`) answer as `Env` says. Left out: the event's fresh uuid and the wall-clock stamps
of the tracking metadata.

`handled` records the changes whose turn of the loop began (the `Processing change` log line), so that a dropped event
can be spoken about.

- `handleChange_subscribe`, `handleChange_unsubscribe`, `handleChange_data`: what one well-formed event does when the
  remote calls succeed. A control event always RETURNS from the batch, a data change never does (`handleChange_flow`).
- `receive_handled`, `receive_append`: a batch is processed up to and including its first control event.
- `batch_compositional_iff`: processing `xs ++ ys` at once is processing `xs` and then `ys`, with no event dropped,
  exactly when no event but the last one of `xs ++ ys` is a control event.
Witness: `subscription_drops_batch` (a subscription in front of a change: the change is never dispatched).
-/
import Mathlib.Tactic
import DrasiPlatform.Core.Json
import DrasiPlatform.Router.SubscriberMap

namespace DrasiPlatform.Router

open Json

/-! ## Model -/

/-- the event published to the source's dispatch topic for one change -/
structure DispatchEvent where
  sourceId : String
  type : Value
  elementType : Value
  subscriptions : Multiset Subscription
  seq : Value
  ms : UInt64
  before : Value
  after : Value
  sourceNs : Value
  reactivatorStart : Value
  reactivatorEnd : Value
  /-- the header the event is published with -/
  traceparent : String

/-- what one call of `process_changes` sees: the source's id, the request's trace and the answers of the remote calls -/
structure Env where
  sourceId : String
  traceparent : String
  saveState : String → Value → Except String Unit
  deleteState : String → Except String Unit
  publish : DispatchEvent → Except String Unit

/-- every remote call succeeds -/
def Env.reliable (sourceId traceparent : String) : Env :=
  ⟨sourceId, traceparent, fun _ _ => .ok (), fun _ => .ok (), fun _ => .ok ()⟩

/-- the router's `AppState`: its two label maps, the state store behind it and what it has published -/
structure AppState where
  nodeSubscriber : SubscriberMap
  relSubscriber : SubscriberMap
  store : AList fun _ : String => Value
  published : List DispatchEvent
  handled : List Value

def AppState.empty : AppState := ⟨.new, .new, ∅, [], []⟩

/-- how one turn of the loop over the batch ends -/
inductive Flow where
  | next
  | ret (result : Except String Unit)

def source (c : Value) : Value := (c.get "payload").get "source"
def after (c : Value) : Value := (c.get "payload").get "after"
def before (c : Value) : Value := (c.get "payload").get "before"
def op (c : Value) : Value := c.get "op"
def table (c : Value) : Value := (source c).get "table"

/-- a subscription or unsubscription event -/
def isControl (c : Value) : Bool := ((source c).get "db").eqStr "Drasi" && (table c).eqStr "SourceSubscription"

/-- the key of a subscription's record in the state store -/
def stateKey (queryNodeId queryId : String) : String := "SourceSubscription-" ++ queryNodeId ++ "-" ++ queryId

/-- the record of a subscription in the state store: the fields as the event has them -/
def sourceSubscriptionValue (c : Value) : Value :=
  .object [("type", .string "SourceSubscription"), ("queryId", (after c).get "queryId"),
    ("queryNodeId", (after c).get "queryNodeId"), ("nodeLabels", (after c).get "nodeLabels"),
    ("relLabels", (after c).get "relLabels")]

/-- a subscription: node labels, relation labels, record. The source reads the two ids anew for each map and for the key,
which gives the same values. -/
def handleInsert (E : Env) (r : AppState) (c : Value) : Flow × AppState :=
  match ((after c).get "nodeLabels").labels with
  | none => (.next, r)
  | some nodeLabels =>
    match ((after c).get "queryNodeId").asStr with
    | none => (.next, r)
    | some queryNodeId =>
      match ((after c).get "queryId").asStr with
      | none => (.next, r)
      | some queryId =>
        let r := { r with nodeSubscriber := r.nodeSubscriber.addLabels nodeLabels queryNodeId queryId }
        match ((after c).get "relLabels").labels with
        | none => (.next, r)
        | some relLabels =>
          let r := { r with relSubscriber := r.relSubscriber.addLabels relLabels queryNodeId queryId }
          let key := stateKey queryNodeId queryId
          match E.saveState key (sourceSubscriptionValue c) with
          | .ok _ => (.ret (.ok ()), { r with store := r.store.insert key (sourceSubscriptionValue c) })
          | .error e => (.ret (.error e), r)

/-- an unsubscription: only the record is deleted, the label maps stay as they are -/
def handleDelete (E : Env) (r : AppState) (c : Value) : Flow × AppState :=
  match ((before c).get "queryNodeId").asStr with
  | none => (.ret (.error "Error loading queryNodeId from the ChangeEvent"), r)
  | some queryNodeId =>
    match ((before c).get "queryId").asStr with
    | none => (.ret (.error "Error loading queryId from the ChangeEvent"), r)
    | some queryId =>
      match E.deleteState (stateKey queryNodeId queryId) with
      | .ok _ => (.ret (.ok ()), { r with store := r.store.erase (stateKey queryNodeId queryId) })
      | .error e => (.ret (.error e), r)

/-- the control branch: other operations are not supported, and the branch ends in `return Ok(())` -/
def handleControl (E : Env) (r : AppState) (c : Value) : Flow × AppState :=
  match (op c).asStr with
  | some "i" => handleInsert E r c
  | some "d" => handleDelete E r c
  | _ => (.ret (.ok ()), r)

/-- the labels of a changed element: of `after` for an insert or update, of `before` for a delete; the outer `none` is the
source's `continue` (no label array), the inner one its `None` (another operation) -/
def changeLabels (c : Value) : Option (Option (List String)) :=
  if (op c).eqStr "i" || (op c).eqStr "u" then ((after c).get "labels").labels.map some
  else if (op c).eqStr "d" then ((before c).get "labels").labels.map some
  else some none

/-- the label map of the element type, if it is one the router knows -/
def subscriberMapOf (r : AppState) (c : Value) : Option SubscriberMap :=
  if (table c).eqStr "node" then some r.nodeSubscriber
  else if (table c).eqStr "rel" then some r.relSubscriber
  else none

/-- `subscriptions` of the source, with the outer `none` for `continue` -/
def subscriptionsOf (r : AppState) (c : Value) : Option (Option (Multiset Subscription)) :=
  match subscriberMapOf r c with
  | none => some none
  | some m => (changeLabels c).map fun labels => labels.bind m.getSubscribersForLabels

def changeDispatchEvent (E : Env) (c : Value) (subscriptions : Multiset Subscription) (tsNs : UInt64) : DispatchEvent where
  sourceId := E.sourceId
  type := op c
  elementType := table c
  subscriptions := subscriptions
  seq := (source c).get "lsn"
  ms := tsNs / 1000000
  before := before c
  after := after c
  sourceNs := (source c).get "ts_ns"
  reactivatorStart := c.get "reactivatorStart_ns"
  reactivatorEnd := c.get "reactivatorEnd_ns"
  traceparent := E.traceparent

/-- a data change: dispatched to its subscriptions, if there are any -/
def handleData (E : Env) (r : AppState) (c : Value) : Flow × AppState :=
  match subscriptionsOf r c with
  | none => (.next, r)
  | some none => (.next, r)
  | some (some subscriptions) =>
    match ((source c).get "ts_ns").asU64 with
    | none => (.ret (.error "Error converting ts_ns to u64"), r)
    | some tsNs =>
      let event := changeDispatchEvent E c subscriptions tsNs
      match E.publish event with
      | .ok _ => (.next, { r with published := r.published ++ [event] })
      | .error e => (.ret (.error e), r)

/-- one turn of the loop over the batch -/
def handleChange (E : Env) (r : AppState) (c : Value) : Flow × AppState :=
  let r := { r with handled := r.handled ++ [c] }
  if isControl c then handleControl E r c else handleData E r c

def processLoop (E : Env) (r : AppState) : List Value → Except String Unit × AppState
  | [] => (.ok (), r)
  | c :: changes =>
    match handleChange E r c with
    | (.next, r') => processLoop E r' changes
    | (.ret result, r') => (result, r')

/-- `process_changes` -/
def processChanges (E : Env) (r : AppState) (changes : Value) : Except String Unit × AppState :=
  match changes.asArray with
  | none => (.error "Changes must be an array", r)
  | some changes => processLoop E r changes

/-- the router after one batch -/
def receive (E : Env) (r : AppState) (batch : List Value) : AppState := (processChanges E r (.array batch)).2

theorem receive_eq (E : Env) (r : AppState) (batch : List Value) : receive E r batch = (processLoop E r batch).2 := rfl

/-! ## Well-formed events -/

/-- a subscription event with the ids, the node labels and the relation labels -/
structure IsSubscribe (c : Value) (p : Subscription) (nodeLabels relLabels : List String) : Prop where
  control : isControl c = true
  op : (op c).asStr = some "i"
  nodeLabels : ((after c).get "nodeLabels").labels = some nodeLabels
  relLabels : ((after c).get "relLabels").labels = some relLabels
  queryNodeId : ((after c).get "queryNodeId").asStr = some p.queryNodeId
  queryId : ((after c).get "queryId").asStr = some p.queryId

/-- an unsubscription event with the ids -/
structure IsUnsubscribe (c : Value) (p : Subscription) : Prop where
  control : isControl c = true
  op : (op c).asStr = some "d"
  queryNodeId : ((before c).get "queryNodeId").asStr = some p.queryNodeId
  queryId : ((before c).get "queryId").asStr = some p.queryId

/-- the two kinds of elements, and of label maps -/
inductive ElementType where
  | node
  | rel
deriving DecidableEq, Repr

/-- the `table` of a change of such an element -/
def ElementType.table : ElementType → String
  | .node => "node"
  | .rel => "rel"

/-- the labels of a subscription for the element type -/
def ElementType.pick (nodeLabels relLabels : List String) : ElementType → List String
  | .node => nodeLabels
  | .rel => relLabels

/-- the label map of the element type -/
def AppState.subscriber (r : AppState) : ElementType → SubscriberMap
  | .node => r.nodeSubscriber
  | .rel => r.relSubscriber

/-- a change of a node or relation: an insert, update or delete with a label array and a time stamp -/
structure IsData (c : Value) (e : ElementType) (labels : List String) : Prop where
  data : isControl c = false
  table : (table c).asStr = some e.table
  labels : changeLabels c = some (some labels)
  tsNs : (((source c).get "ts_ns").asU64).isSome = true

/-- a well-formed change event -/
def WellFormed (c : Value) : Prop :=
  (∃ p nodeLabels relLabels, IsSubscribe c p nodeLabels relLabels) ∨ (∃ p, IsUnsubscribe c p) ∨ ∃ e labels, IsData c e labels

/-! ## Events as their publishers write them -/

/-- `SubscriptionRequest` of the query-api -/
def subscriptionRequest (p : Subscription) (nodeLabels relLabels : List String) : Value :=
  .object [("queryId", .string p.queryId), ("queryNodeId", .string p.queryNodeId),
    ("nodeLabels", .ofStrings nodeLabels), ("relLabels", .ofStrings relLabels)]

/-- `ControlEvent` of the query-api, for the operation `op` with the request in the field `image` of the payload -/
def controlEvent (op image : String) (request : Value) : Value :=
  .object [("op", .string op), ("ts_ns", .number (.posInt 0)),
    ("payload", .object [
      ("source", .object [("db", .string "Drasi"), ("table", .string "SourceSubscription")]), (image, request)])]

/-- `dispatch_control_event` of the query-api -/
def subscribeEvent (p : Subscription) (nodeLabels relLabels : List String) : Value :=
  controlEvent "i" "after" (subscriptionRequest p nodeLabels relLabels)

/-- `dispatch_unsubscription_event` of the query-api -/
def unsubscribeEvent (p : Subscription) : Value := controlEvent "d" "before" (subscriptionRequest p [] [])

/-- an inserted node or relation (`table`) with the labels -/
def insertEvent (table : String) (labels : List String) : Value :=
  .object [("op", .string "i"),
    ("payload", .object [
      ("source", .object [("db", .string "shop"), ("table", .string table), ("lsn", .number (.posInt 1)),
        ("ts_ns", .number (.posInt 1000000))]),
      ("after", .object [("id", .string "n1"), ("labels", .ofStrings labels), ("properties", .object [])])])]

theorem isSubscribe_subscribeEvent (p : Subscription) (nodeLabels relLabels : List String) :
    IsSubscribe (subscribeEvent p nodeLabels relLabels) p nodeLabels relLabels :=
  ⟨rfl, rfl, Value.labels_ofStrings nodeLabels, Value.labels_ofStrings relLabels, rfl, rfl⟩

theorem isUnsubscribe_unsubscribeEvent (p : Subscription) : IsUnsubscribe (unsubscribeEvent p) p := ⟨rfl, rfl, rfl, rfl⟩

theorem isData_insertEvent_node (labels : List String) : IsData (insertEvent "node" labels) .node labels :=
  ⟨rfl, rfl, congrArg (Option.map some) (Value.labels_ofStrings labels), rfl⟩

/-! ## One turn of the loop -/

section Reliable

variable {sourceId traceparent : String}

/-- a subscription that goes through: both maps extended, the record stored, and the batch left -/
theorem handleChange_subscribe {c : Value} {p : Subscription} {nodeLabels relLabels : List String}
    (h : IsSubscribe c p nodeLabels relLabels) (r : AppState) :
    handleChange (.reliable sourceId traceparent) r c = (.ret (.ok ()),
      { r with
        nodeSubscriber := r.nodeSubscriber.addLabels nodeLabels p.queryNodeId p.queryId
        relSubscriber := r.relSubscriber.addLabels relLabels p.queryNodeId p.queryId
        store := r.store.insert (stateKey p.queryNodeId p.queryId) (sourceSubscriptionValue c)
        handled := r.handled ++ [c] }) := by
  simp [handleChange, h.control, handleControl, h.op, handleInsert, h.nodeLabels, h.queryNodeId, h.queryId, h.relLabels,
    Env.reliable]

/-- an unsubscription that goes through: the record is gone, the maps are as before, and the batch is left -/
theorem handleChange_unsubscribe {c : Value} {p : Subscription} (h : IsUnsubscribe c p) (r : AppState) :
    handleChange (.reliable sourceId traceparent) r c = (.ret (.ok ()),
      { r with store := r.store.erase (stateKey p.queryNodeId p.queryId), handled := r.handled ++ [c] }) := by
  simp [handleChange, h.control, handleControl, h.op, handleDelete, h.queryNodeId, h.queryId, Env.reliable]

/-- a data change is matched against the label map of its element type -/
theorem subscriptionsOf_data {c : Value} {e : ElementType} {labels : List String} (h : IsData c e labels) (r : AppState) :
    subscriptionsOf r c = some ((r.subscriber e).getSubscribersForLabels labels) := by
  have hmap : subscriberMapOf r c = some (r.subscriber e) := by
    unfold subscriberMapOf
    cases e <;> simp [Value.eqStr, h.table, ElementType.table, AppState.subscriber]
  simp [subscriptionsOf, hmap, h.labels]

/-- what a data change publishes -/
def dispatched (E : Env) (r : AppState) (c : Value) : List DispatchEvent :=
  match subscriptionsOf r c, ((source c).get "ts_ns").asU64 with
  | some (some subscriptions), some tsNs => [changeDispatchEvent E c subscriptions tsNs]
  | _, _ => []

/-- a data change publishes to its subscriptions, changes nothing else, and the loop goes on -/
theorem handleChange_data {c : Value} {e : ElementType} {labels : List String} (h : IsData c e labels) (r : AppState) :
    handleChange (.reliable sourceId traceparent) r c = (.next,
      { r with
        published := r.published ++ dispatched (.reliable sourceId traceparent) r c
        handled := r.handled ++ [c] }) := by
  obtain ⟨tsNs, hts⟩ := Option.isSome_iff_exists.1 h.tsNs
  have hsub : subscriptionsOf { r with handled := r.handled ++ [c] } c = subscriptionsOf r c := rfl
  simp only [handleChange, h.data, Bool.false_eq_true, if_false, handleData, hsub, hts, dispatched]
  rcases subscriptionsOf r c with _ | _ | subscriptions <;> simp [Env.reliable]

/-- **Every well-formed control event leaves the batch**, every well-formed data change goes on to the next one -/
theorem handleChange_flow {c : Value} (h : WellFormed c) (r : AppState) :
    (handleChange (.reliable sourceId traceparent) r c).1 = if isControl c then .ret (.ok ()) else .next := by
  rcases h with ⟨p, nl, rl, h⟩ | ⟨p, h⟩ | ⟨e, labels, h⟩
  · rw [handleChange_subscribe h]; simp [h.control]
  · rw [handleChange_unsubscribe h]; simp [h.control]
  · rw [handleChange_data h]; simp [h.data]

theorem handleChange_handled {c : Value} (h : WellFormed c) (r : AppState) :
    (handleChange (.reliable sourceId traceparent) r c).2.handled = r.handled ++ [c] := by
  rcases h with ⟨p, nl, rl, h⟩ | ⟨p, h⟩ | ⟨e, labels, h⟩
  · rw [handleChange_subscribe h]
  · rw [handleChange_unsubscribe h]
  · rw [handleChange_data h]

/-! ## The batch -/

theorem receive_nil (E : Env) (r : AppState) : receive E r [] = r := rfl

theorem receive_singleton (E : Env) (r : AppState) (c : Value) : receive E r [c] = (handleChange E r c).2 := by
  rw [receive_eq, processLoop]
  rcases handleChange E r c with ⟨_ | res, r'⟩ <;> rfl

/-- a control event is the last one of its batch that is processed -/
theorem receive_cons_control {c : Value} (h : WellFormed c) (hc : isControl c = true) (r : AppState) (cs : List Value) :
    receive (.reliable sourceId traceparent) r (c :: cs) = (handleChange (.reliable sourceId traceparent) r c).2 := by
  have hflow : (handleChange (.reliable sourceId traceparent) r c).1 = _ := handleChange_flow h r
  rw [receive_eq, processLoop]
  rcases he : handleChange (.reliable sourceId traceparent) r c with ⟨_ | res, r'⟩
  · simp [he, hc] at hflow
  · rfl

theorem receive_cons_data {c : Value} (h : WellFormed c) (hc : isControl c = false) (r : AppState) (cs : List Value) :
    receive (.reliable sourceId traceparent) r (c :: cs) =
      receive (.reliable sourceId traceparent) (handleChange (.reliable sourceId traceparent) r c).2 cs := by
  have hflow : (handleChange (.reliable sourceId traceparent) r c).1 = _ := handleChange_flow h r
  rw [receive_eq, processLoop]
  rcases he : handleChange (.reliable sourceId traceparent) r c with ⟨_ | res, r'⟩
  · rfl
  · simp [he, hc] at hflow

/-- the events of a batch up to and including its first control event -/
def reached : List Value → List Value
  | [] => []
  | c :: cs => if isControl c then [c] else c :: reached cs

/-- **A batch is processed up to its first control event**: nothing behind it is handled. -/
theorem receive_handled {cs : List Value} (h : ∀ c ∈ cs, WellFormed c) (r : AppState) :
    (receive (.reliable sourceId traceparent) r cs).handled = r.handled ++ reached cs := by
  induction cs generalizing r with
  | nil => simp [receive_nil, reached]
  | cons c cs ih =>
    have hc := h c List.mem_cons_self
    by_cases hctl : isControl c
    · rw [receive_cons_control hc hctl, handleChange_handled hc]; simp [reached, hctl]
    · rw [receive_cons_data hc (by simpa using hctl), ih (fun c' h' => h c' (List.mem_cons_of_mem c h')),
        handleChange_handled hc]
      simp [reached, hctl]

/-- data changes in front: the rest of the batch is processed as a batch of its own -/
theorem receive_append {xs : List Value} (h : ∀ c ∈ xs, WellFormed c) (hd : ∀ c ∈ xs, isControl c = false)
    (r : AppState) (ys : List Value) :
    receive (.reliable sourceId traceparent) r (xs ++ ys) =
      receive (.reliable sourceId traceparent) (receive (.reliable sourceId traceparent) r xs) ys := by
  induction xs generalizing r with
  | nil => rfl
  | cons c cs ih =>
    rw [List.cons_append, receive_cons_data (h c List.mem_cons_self) (hd c List.mem_cons_self),
      receive_cons_data (h c List.mem_cons_self) (hd c List.mem_cons_self)]
    exact ih (fun c' h' => h c' (List.mem_cons_of_mem c h')) (fun c' h' => hd c' (List.mem_cons_of_mem c h')) _

theorem reached_eq_self_iff (cs : List Value) : reached cs = cs ↔ ∀ c ∈ cs.dropLast, isControl c = false := by
  induction cs with
  | nil => simp [reached]
  | cons c cs ih =>
    cases cs with
    | nil => simp [reached]
    | cons d ds =>
      by_cases hc : isControl c
      · simp [reached, hc]
      · simp only [reached, hc, Bool.false_eq_true, if_false, List.cons.injEq, true_and, List.dropLast_cons_cons,
          List.mem_cons, forall_eq_or_imp]
        exact ih

/-- the batch `xs ++ ys` does what `xs` and then `ys` do: the same dispatch events in the same order, the same label maps
and the same state store, and no event of the batch is dropped -/
def Compositional (E : Env) (r : AppState) (xs ys : List Value) : Prop :=
  let whole := receive E r (xs ++ ys)
  let split := receive E (receive E r xs) ys
  whole.published = split.published ∧ whole.nodeSubscriber = split.nodeSubscriber ∧
    whole.relSubscriber = split.relSubscriber ∧ whole.store = split.store ∧ whole.handled = r.handled ++ (xs ++ ys)

/-- **Batch compositionality.** For every router state and all lists of well-formed events, the batch `xs ++ ys` does what
`xs` and then `ys` do, with no event dropped, exactly when no event in front of the last one is a control event. -/
theorem batch_compositional_iff (r : AppState) (xs ys : List Value) (h : ∀ c ∈ xs ++ ys, WellFormed c) :
    Compositional (.reliable sourceId traceparent) r xs ys ↔ ∀ c ∈ (xs ++ ys).dropLast, isControl c = false := by
  constructor
  · rintro ⟨-, -, -, -, hh⟩
    rw [receive_handled h, List.append_cancel_left_eq] at hh
    exact (reached_eq_self_iff _).1 hh
  · intro hd
    have hwhole : receive (.reliable sourceId traceparent) r (xs ++ ys) =
        receive (.reliable sourceId traceparent) (receive (.reliable sourceId traceparent) r xs) ys := by
      rcases List.eq_nil_or_concat ys with rfl | ⟨ys', y, rfl⟩
      · rw [List.append_nil, receive_nil]
      · refine receive_append (fun c hc => h c (List.mem_append_left _ hc)) (fun c hc => hd c ?_) r _
        rw [List.concat_eq_append, ← List.append_assoc, List.dropLast_concat]
        exact List.mem_append_left _ hc
    refine ⟨by rw [hwhole], by rw [hwhole], by rw [hwhole], by rw [hwhole], ?_⟩
    rw [receive_handled h, (reached_eq_self_iff _).2 hd]

end Reliable

theorem batch_compositional_subscription_last :
    Compositional (.reliable "shop" "") .empty [insertEvent "node" ["Item"]] [subscribeEvent ⟨"c", "q"⟩ ["Item"] []] :=
  (batch_compositional_iff _ _ _ (by
    simp only [List.cons_append, List.nil_append, List.mem_cons, List.not_mem_nil, or_false, forall_eq_or_imp, forall_eq]
    exact ⟨.inr (.inr ⟨_, _, isData_insertEvent_node _⟩), .inl ⟨_, _, _, isSubscribe_subscribeEvent _ _ _⟩⟩)).2 (by
      simp only [List.cons_append, List.nil_append, List.dropLast_cons_cons, List.dropLast_singleton, List.mem_singleton,
        forall_eq]
      rfl)

/-- **A subscription drops the rest of its batch.** The query subscribes to `Item` and an `Item` is inserted, in one
batch: the change is not dispatched. As two batches, it is. -/
theorem subscription_drops_batch :
    (∀ c ∈ [subscribeEvent ⟨"c", "q"⟩ ["Item"] []] ++ [insertEvent "node" ["Item"]], WellFormed c) ∧
    ¬ Compositional (.reliable "shop" "") .empty [subscribeEvent ⟨"c", "q"⟩ ["Item"] []]
      [insertEvent "node" ["Item"]] := by
  constructor
  · simp only [List.cons_append, List.nil_append, List.mem_cons, List.not_mem_nil, or_false, forall_eq_or_imp, forall_eq]
    exact ⟨.inl ⟨_, _, _, isSubscribe_subscribeEvent _ _ _⟩, .inr (.inr ⟨_, _, isData_insertEvent_node _⟩)⟩
  · rintro ⟨hp, -⟩
    exact absurd (congrArg List.length hp) (by decide)

end DrasiPlatform.Router
