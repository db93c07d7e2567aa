/-
The stations between a source and the query nodes, with every call between them free to fail: the change router
(`sources/shared/change-router`), the change dispatcher (`sources/shared/change-dispatcher`), the publish-api of a query
container (`query-container/publish-api`), and the two topics of the source before the first two.

A message stays on its topic until its handler has answered 200, and is delivered again before that; a topic may hand out
any of its messages. A call that reports an error may have been carried out all the same: an event published, an entry
added to a stream. The programs of the router and of the dispatcher are those of their own modules; a JSON text is the value
it denotes.

- `putOnTopic`: what one delivery to the router puts on the dispatch topic; `published_eq`: it is what the router counts as
  published where no reply is lost.
- `putOnTopic_complete`, `putOnTopic_sound`: every change that a successful delivery has gone through is there for whom it
  concerns, and nothing else.
- `heard_eq`: what one delivery to the dispatcher adds for a query to the stream of its node.
-/
import Mathlib.Tactic
import DrasiPlatform.Core.Run
import DrasiPlatform.Router.Unsubscribe
import DrasiPlatform.Dispatcher.ChangeDispatcher

namespace DrasiPlatform.Pipeline

open Json Run
open Router (Subscription AppState DispatchEvent Flow ElementType IsData isControl handleChange handleControl handleData
  dispatched subscriptionsOf subscriberMapOf changeLabels processLoop)
open Dispatcher (Invocation routerEvent publishApi hasQuery)

/-! ## Model -/

/-- an event on the dispatch topic: what the router adds to it, and the order it writes the subscriptions in -/
structure Message where
  event : DispatchEvent
  id : String
  subscriptions : List Subscription
  same : (subscriptions : Multiset Subscription) = event.subscriptions
  routerStart : Int64
  routerEnd : Int64

/-- the message as it is on the topic -/
def Message.value (m : Message) : Value := routerEvent m.event m.id m.subscriptions m.routerStart m.routerEnd

/-- what the router adds to the event number `i` of a delivery -/
structure Rendering where
  id : ℕ → String
  order : ℕ → Multiset Subscription → List Subscription
  same : ∀ i s, (order i s : Multiset Subscription) = s
  routerStart : ℕ → Int64
  routerEnd : ℕ → Int64

def Rendering.message (R : Rendering) (i : ℕ) (e : DispatchEvent) : Message :=
  ⟨e, R.id i, R.order i e.subscriptions, R.same i _, R.routerStart i, R.routerEnd i⟩

/-- the events of one delivery on the dispatch topic; the event of a publish that reports an error is there when the reply
was `lost` -/
def putOnTopic (E : Router.Env) (lost : Bool) (r : AppState) : List Value → List DispatchEvent
  | [] => []
  | c :: changes =>
    match handleChange E r c with
    | (.next, r') => r'.published.drop r.published.length ++ putOnTopic E lost r' changes
    | (.ret (.ok _), _) => []
    | (.ret (.error _), _) => if lost && !isControl c then dispatched E r c else []

/-- an entry of the stream of a query node: the body of the request and what `Publisher::publish` adds -/
structure Entry where
  data : Value
  enqueueTime : ℕ
  traceState : Option String
  traceParent : Option String

/-- `change` of the publish-api -/
def change (call : Invocation) (now : ℕ) (traceState : Option String) : Entry :=
  ⟨call.event, now, traceState, call.traceparent⟩

/-- the calls of one delivery that have added their entry; one that reports an error has when its reply was `lost` -/
def arrived (D : Dispatcher.Env) (lost : Invocation → Bool) (calls : List Invocation) : List Invocation :=
  calls.filter fun call => (D.invoke call).isOk || lost call

structure System where
  /-- the messages on the topic `{source}-change`, each one a batch -/
  changes : List (List Value)
  router : AppState
  /-- the messages on the topic `{source}-dispatch` -/
  dispatch : List Message
  /-- the streams of the query nodes -/
  streams : String → List Entry
  /-- all batches that were ever put on the topic -/
  sent : List (List Value)
  /-- all batches that the router has answered 200 to, with the router as it was before -/
  accepted : List (AppState × List Value)

def System.start (r : AppState) : System := ⟨[], r, [], fun _ => [], [], []⟩

inductive Op where
  /-- the source publishes a batch -/
  | enqueue (batch : List Value)
  /-- message `i` of the change topic is delivered to the router -/
  | route (i : ℕ) (E : Router.Env) (R : Rendering) (lost : Bool)
  /-- message `i` of the dispatch topic is delivered to the dispatcher -/
  | dispatch (i : ℕ) (D : Dispatcher.Env) (lost : Invocation → Bool) (now : ℕ) (traceState : Option String)

/-- `receive` of the router: 200 takes the message off the topic -/
def route (sourceId : String) (s : System) (i : ℕ) (E : Router.Env) (R : Rendering) (lost : Bool) : System :=
  match s.changes[i]? with
  | none => s
  | some batch =>
    let E := { E with sourceId := sourceId }
    let (answer, router) := Router.processChanges E s.router (.array batch)
    let s' := { s with
      router := router
      dispatch := s.dispatch ++ (putOnTopic E lost s.router batch).mapIdx R.message }
    match answer with
    | .ok _ => { s' with changes := s.changes.eraseIdx i, accepted := s.accepted ++ [(s.router, batch)] }
    | .error _ => s'

/-- `receive` of the dispatcher, with what the publish-apis do for its calls -/
def dispatchMessage (s : System) (i : ℕ) (D : Dispatcher.Env) (lost : Invocation → Bool) (now : ℕ)
    (traceState : Option String) : System :=
  match s.dispatch[i]? with
  | none => s
  | some m =>
    let (outcome, calls) := Dispatcher.processChanges D (.array [m.value])
    { s with
      dispatch := if outcome = .ok then s.dispatch.eraseIdx i else s.dispatch
      streams := fun node => s.streams node ++
        ((arrived D lost calls).filter fun call => call.appId = publishApi node).map fun call => change call now traceState }

def step (sourceId : String) (s : System) : Op → System
  | .enqueue batch => { s with changes := s.changes ++ [batch], sent := s.sent ++ [batch] }
  | .route i E R lost => route sourceId s i E R lost
  | .dispatch i D lost now traceState => dispatchMessage s i D lost now traceState

/-! ## Changes as the queries see them -/

/-- what the query host reads of an event, the ids of the event and of the queries apart -/
structure Content where
  sourceId : Value
  type : Value
  elementType : Value
  time : Value
  before : Value
  after : Value

def content (event : Value) : Content :=
  ⟨event.get "sourceId", event.get "type", event.get "elementType", event.get "time", event.get "before", event.get "after"⟩

/-- the content of the change `c` of a source -/
def changeContent (sourceId : String) (c : Value) : Content where
  sourceId := .string sourceId
  type := Router.op c
  elementType := Router.table c
  time := .object [("seq", (Router.source c).get "lsn"),
    ("ms", .number (.posInt ((((Router.source c).get "ts_ns").asU64.getD 0) / 1000000)))]
  before := Router.before c
  after := Router.after c

def eventContent (e : DispatchEvent) : Content where
  sourceId := .string e.sourceId
  type := e.type
  elementType := e.elementType
  time := .object [("seq", e.seq), ("ms", .number (.posInt e.ms))]
  before := e.before
  after := e.after

/-- what the query `p` has on the stream of its node -/
def System.received (s : System) (p : Subscription) : List Content :=
  (((s.streams p.queryNodeId).map (·.data)).filter fun event => hasQuery event p.queryId).map content

/-- what is on the dispatch topic for `p` -/
def System.onTheWay (s : System) (p : Subscription) : List Content :=
  ((s.dispatch.filter fun m => p ∈ m.subscriptions).map (·.value)).map content

@[simp] theorem content_value (m : Message) : content m.value = eventContent m.event := rfl

theorem mem_subscriptions (m : Message) (p : Subscription) : p ∈ m.subscriptions ↔ p ∈ m.event.subscriptions := by
  rw [← m.same, Multiset.mem_coe]

theorem mem_onTheWay {s : System} {p : Subscription} {x : Content} :
    x ∈ s.onTheWay p ↔ ∃ m ∈ s.dispatch, p ∈ m.event.subscriptions ∧ eventContent m.event = x := by
  simp only [System.onTheWay, List.mem_map, List.mem_filter, decide_eq_true_eq, mem_subscriptions]
  constructor
  · rintro ⟨_, ⟨m, ⟨hm, hp⟩, rfl⟩, rfl⟩
    exact ⟨m, hm, hp, (content_value m).symm⟩
  · rintro ⟨m, hm, hp, rfl⟩
    exact ⟨_, ⟨m, ⟨hm, hp⟩, rfl⟩, content_value m⟩

/-! ## The router -/

section Router

variable {E : Router.Env} {r r' : AppState} {c : Value} {lost : Bool}

/-- whoever `r` remembers, `r'` does -/
def Grows (r r' : AppState) : Prop := ∀ e label, (r.subscriber e).subscribers label ⊆ (r'.subscriber e).subscribers label

theorem Grows.refl (r : AppState) : Grows r r := fun _ _ => Finset.Subset.refl _

theorem Grows.trans {r'' : AppState} (h : Grows r r') (h' : Grows r' r'') : Grows r r'' :=
  fun e label => (h e label).trans (h' e label)

theorem handleChange_grows (E : Router.Env) (r : AppState) (c : Value) : Grows r (handleChange E r c).2 := by
  have hadd : ∀ (m : Router.SubscriberMap) (labels : List String) (qn q label : String),
      m.subscribers label ⊆ (m.addLabels labels qn q).subscribers label := fun m labels qn q label p hp =>
    (Router.SubscriberMap.mem_subscribers_addLabels m labels qn q label p).2 (.inl hp)
  rcases Router.handleChange_state E r c with ⟨p, nl, rl, _, _, -, hs⟩ | ⟨_, _, hs⟩ | ⟨_, _, _, -, hs⟩
  · rw [hs]
    rintro (_ | _) label
    · exact hadd r.nodeSubscriber nl _ _ label
    · exact hadd r.relSubscriber rl _ _ label
  · rw [hs]
    exact fun _ _ => Finset.Subset.refl _
  · rw [hs]
    exact fun _ _ => Finset.Subset.refl _

theorem processLoop_grows (E : Router.Env) (r : AppState) (changes : List Value) :
    Grows r (processLoop E r changes).2 :=
  Router.receive_inv (fun r' c _ h => Grows.trans h (handleChange_grows E r' c)) r (Grows.refl r)

/-- a data change is published and the loop goes on, or the delivery ends in an error -/
theorem handleChange_data_cases (E : Router.Env) (r : AppState) (hc : isControl c = false) :
    handleChange E r c =
        (.next, { r with published := r.published ++ dispatched E r c, handled := r.handled ++ [c] }) ∨
      ∃ e, handleChange E r c = (.ret (.error e), { r with handled := r.handled ++ [c] }) := by
  have hsubs : subscriptionsOf { r with handled := r.handled ++ [c] } c = subscriptionsOf r c := rfl
  simp only [handleChange, hc, Bool.false_eq_true, if_false, handleData, hsubs, dispatched]
  rcases subscriptionsOf r c with _ | _ | subs
  · exact .inl (by simp)
  · exact .inl (by simp)
  · cases ((Router.source c).get "ts_ns").asU64 with
    | none => exact .inr ⟨_, rfl⟩
    | some tsNs =>
      dsimp only
      cases E.publish (Router.changeDispatchEvent E c subs tsNs) with
      | ok => exact .inl rfl
      | error e => exact .inr ⟨e, rfl⟩

/-- a control event publishes nothing -/
theorem handleChange_control_published (E : Router.Env) (r : AppState) (hc : isControl c = true) :
    (handleChange E r c).2.published = r.published := by
  simp only [handleChange, hc, if_true, handleControl]
  split
  · rcases Router.handleInsert_state E { r with handled := r.handled ++ [c] } c with h | ⟨_, _, _, _, -, -, h⟩ <;> rw [h]
  · obtain ⟨_, h⟩ := Router.handleDelete_state E { r with handled := r.handled ++ [c] } c
    rw [h]
  · rfl

/-- what a turn that goes on has published -/
theorem drop_published (h : handleChange E r c = (.next, r')) :
    r'.published = r.published ++ (if isControl c then [] else dispatched E r c) := by
  cases hc : isControl c with
  | true =>
    have hpub := handleChange_control_published E r hc
    rw [h] at hpub
    simpa using hpub
  | false =>
    rcases handleChange_data_cases E r hc with hdata | ⟨e, herr⟩
    · rw [h] at hdata
      obtain rfl := (Prod.ext_iff.1 hdata).2
      simp
    · rw [h] at herr
      cases herr

theorem putOnTopic_next {changes : List Value} (h : handleChange E r c = (.next, r')) :
    putOnTopic E lost r (c :: changes) = (if isControl c then [] else dispatched E r c) ++ putOnTopic E lost r' changes := by
  simp only [putOnTopic, h, drop_published h, List.drop_left]

/-- **The topic and the router agree** where no reply is lost. -/
theorem published_eq (E : Router.Env) (r : AppState) (changes : List Value) :
    (processLoop E r changes).2.published = r.published ++ putOnTopic E false r changes := by
  induction changes generalizing r with
  | nil => simp [processLoop, putOnTopic]
  | cons c changes ih =>
    rcases h : handleChange E r c with ⟨_ | result, r'⟩
    · rw [putOnTopic_next h]
      simp only [processLoop, h]
      rw [ih, drop_published h, List.append_assoc]
    · have hpub : r'.published = r.published := by
        cases hc : isControl c with
        | true =>
          have hcontrol := handleChange_control_published E r hc
          rwa [h] at hcontrol
        | false =>
          rcases handleChange_data_cases E r hc with hdata | ⟨e, herr⟩
          · rw [h] at hdata
            cases hdata
          · rw [h] at herr
            obtain rfl := (Prod.ext_iff.1 herr).2
            rfl
      cases result <;> simp [processLoop, putOnTopic, h, hpub]

/-! ### For whom a change is -/

/-- `p` is in the label map of the change's element type under one of its labels -/
def Hears (r : AppState) (c : Value) (p : Subscription) : Prop :=
  ∃ e labels, (Router.table c).asStr = some (ElementType.table e) ∧ changeLabels c = some (some labels) ∧
    ∃ label ∈ labels, p ∈ (r.subscriber e).subscribers label

theorem Hears.mono {p : Subscription} (h : Hears r c p) (hr : Grows r r') : Hears r' c p := by
  obtain ⟨e, labels, htable, hlabels, label, hlabel, hp⟩ := h
  exact ⟨e, labels, htable, hlabels, label, hlabel, hr e label hp⟩

theorem subscriberMapOf_cases {m : Router.SubscriberMap} (h : subscriberMapOf r c = some m) :
    ∃ e, (Router.table c).asStr = some (ElementType.table e) ∧ m = r.subscriber e := by
  unfold subscriberMapOf at h
  split at h
  · rename_i hnode
    exact ⟨.node, by simpa [Value.eqStr, ElementType.table] using hnode, (Option.some.inj h).symm⟩
  · split at h
    · rename_i hrel
      exact ⟨.rel, by simpa [Value.eqStr, ElementType.table] using hrel, (Option.some.inj h).symm⟩
    · cases h

/-- an event goes to pairs that hear of its change, with the content of it -/
theorem dispatched_sound {e : DispatchEvent} (he : e ∈ dispatched E r c) :
    eventContent e = changeContent E.sourceId c ∧ ∀ p ∈ e.subscriptions, Hears r c p := by
  unfold dispatched at he
  split at he
  · rename_i subs tsNs hsubs hts
    rw [List.mem_singleton.1 he]
    refine ⟨by simp [eventContent, changeContent, Router.changeDispatchEvent, hts], fun p hp => ?_⟩
    unfold subscriptionsOf at hsubs
    split at hsubs
    · simp at hsubs
    · rename_i m hm
      obtain ⟨t, htable, rfl⟩ := subscriberMapOf_cases hm
      rcases hl : changeLabels c with _ | _ | labels <;> rw [hl] at hsubs
      · simp at hsubs
      · simp at hsubs
      · exact ⟨t, labels, htable, hl, Router.mem_getSubscribersForLabels (Option.some.inj hsubs) hp⟩
  · cases he

/-- a change with all its labels known is dispatched to whoever is subscribed to one of them -/
def Concerns (r : AppState) (c : Value) (p : Subscription) : Prop :=
  ∃ e labels, IsData c e labels ∧ (∀ label ∈ labels, ((r.subscriber e).subscribers label).Nonempty) ∧
    ∃ label ∈ labels, p ∈ (r.subscriber e).subscribers label

theorem Concerns.mono {p : Subscription} (h : Concerns r c p) (hr : Grows r r') : Concerns r' c p := by
  obtain ⟨e, labels, hdata, hknown, label, hlabel, hp⟩ := h
  exact ⟨e, labels, hdata, fun l hl => (hknown l hl).mono (hr e l), label, hlabel, hr e label hp⟩

theorem dispatched_complete {p : Subscription} (h : Concerns r c p) :
    ∃ e ∈ dispatched E r c, eventContent e = changeContent E.sourceId c ∧ p ∈ e.subscriptions := by
  obtain ⟨t, labels, hdata, hknown, label, hlabel, hp⟩ := h
  obtain ⟨tsNs, hts⟩ := Option.isSome_iff_exists.1 hdata.tsNs
  have hsubs := Router.subscriptionsOf_data hdata r
  rw [Router.SubscriberMap.getSubscribersForLabels_known _ _ hknown] at hsubs
  set subs := (labels : Multiset String).bind fun l => ((r.subscriber t).subscribers l).val with hset
  have hmem : Router.changeDispatchEvent E c subs tsNs ∈ dispatched E r c := by
    rw [dispatched, hsubs, hts]
    exact List.mem_singleton_self _
  refine ⟨_, hmem, (dispatched_sound hmem).1, ?_⟩
  have hsubs : (Router.changeDispatchEvent E c subs tsNs).subscriptions = subs := rfl
  rw [hsubs, hset]
  exact Multiset.mem_bind.2 ⟨label, Multiset.mem_coe.2 hlabel, hp⟩

/-- **Nothing is invented**: what is put on the topic has the content of a change of the batch, and goes to pairs that hear
of it. -/
theorem putOnTopic_sound {changes : List Value} {e : DispatchEvent} (he : e ∈ putOnTopic E lost r changes) :
    ∃ c ∈ changes, eventContent e = changeContent E.sourceId c ∧
      ∀ p ∈ e.subscriptions, Hears (processLoop E r changes).2 c p := by
  induction changes generalizing r with
  | nil => cases he
  | cons c changes ih =>
    have hgrows := processLoop_grows E r (c :: changes)
    rcases h : handleChange E r c with ⟨_ | result, r'⟩
    · rw [putOnTopic_next h] at he
      rcases List.mem_append.1 he with he | he
      · split at he
        · cases he
        · obtain ⟨hcontent, hhears⟩ := dispatched_sound he
          exact ⟨c, List.mem_cons_self, hcontent, fun p hp => (hhears p hp).mono hgrows⟩
      · obtain ⟨c', hc', hcontent, hhears⟩ := ih he
        simp only [processLoop, h]
        exact ⟨c', List.mem_cons_of_mem c hc', hcontent, hhears⟩
    · cases result with
      | ok => simp [putOnTopic, h] at he
      | error text =>
        simp only [putOnTopic, h] at he
        split at he
        · obtain ⟨hcontent, hhears⟩ := dispatched_sound he
          exact ⟨c, List.mem_cons_self, hcontent, fun p hp => (hhears p hp).mono hgrows⟩
        · cases he

/-- **Nothing is left out** of a delivery that succeeds, up to its first control event. -/
theorem putOnTopic_complete (lost : Bool) {changes : List Value} (hok : (processLoop E r changes).1 = .ok ()) {p : Subscription}
    (hc : c ∈ Router.reached changes) (hp : Concerns r c p) :
    ∃ e ∈ putOnTopic E lost r changes, eventContent e = changeContent E.sourceId c ∧ p ∈ e.subscriptions := by
  induction changes generalizing r with
  | nil => cases hc
  | cons d changes ih =>
    have ⟨_, _, hdata, _⟩ := hp
    have hgrows := handleChange_grows E r d
    cases hd : isControl d with
    | true =>
      rw [Router.reached, if_pos hd, List.mem_singleton] at hc
      rw [← hc, hdata.data] at hd
      cases hd
    | false =>
      rcases handleChange_data_cases E r hd with h | ⟨e, h⟩
      · rw [Router.reached, hd, if_neg Bool.false_ne_true] at hc
        rw [putOnTopic_next h, hd, if_neg Bool.false_ne_true]
        rcases List.mem_cons.1 hc with rfl | hc
        · obtain ⟨e, he, hcontent, hmem⟩ := dispatched_complete (E := E) hp
          exact ⟨e, List.mem_append_left _ he, hcontent, hmem⟩
        · simp only [processLoop, h] at hok
          rw [h] at hgrows
          obtain ⟨e, he, hcontent, hmem⟩ := ih hok hc (hp.mono hgrows)
          exact ⟨e, List.mem_append_right _ he, hcontent, hmem⟩
      · simp [processLoop, h] at hok

end Router

/-! ## The dispatcher and the publish-apis -/

section Dispatcher

open Dispatcher (Derived Sent sendToNodes queriesOn Carries)

variable {D : Dispatcher.Env} {calls : List Invocation} {nodes : List String} {a : List Value} {event : Value}

/-- the calls go to the first nodes of the set, and to all of them where they succeed -/
theorem sendToNodes_calls (D : Dispatcher.Env) (index : ℕ) (subscriptions : List Value) (nodes : List String)
    {change event : Value} (h : Derived change event) :
    ∃ reached, reached <+: nodes ∧
      List.Forall₂ (Sent change subscriptions) reached (sendToNodes D index subscriptions nodes event).2 ∧
      ((sendToNodes D index subscriptions nodes event).1 = .ok → reached = nodes ∧
        ∀ call ∈ (sendToNodes D index subscriptions nodes event).2, D.invoke call = .ok ()) := by
  induction nodes generalizing event with
  | nil => exact ⟨[], List.prefix_refl _, .nil, fun _ => ⟨rfl, by simp [sendToNodes]⟩⟩
  | cons node nodes ih =>
    obtain ⟨event', hset, hderived, hqueries⟩ := h.rewrite (.array (queriesOn subscriptions node))
      (.ofInt64 (D.endNs index node)) "changeDispatcherEnd_ns"
    obtain ⟨reached, hbegin, hsent, hok⟩ := ih hderived
    have hthis : Sent change subscriptions node
        ⟨publishApi node, event', if D.traceparent = "" then none else some D.traceparent⟩ :=
      ⟨rfl, hqueries, hderived.rest⟩
    simp only [sendToNodes, hset]
    cases hinvoke : D.invoke ⟨publishApi node, event', if D.traceparent = "" then none else some D.traceparent⟩ with
    | error e =>
      exact ⟨[node], List.prefix_iff_eq_append.2 rfl, .cons hthis .nil, fun h => by cases h⟩
    | ok =>
      refine ⟨node :: reached, List.cons_prefix_cons.2 ⟨rfl, hbegin⟩, .cons hthis hsent, fun h => ?_⟩
      obtain ⟨hall, hcalls⟩ := hok h
      refine ⟨by rw [hall], fun call hcall => ?_⟩
      rcases List.mem_cons.1 hcall with rfl | hcall
      · exact hinvoke
      · exact hcalls call hcall

/-- at most one call for each node -/
theorem filter_calls (hsent : List.Forall₂ (Sent event a) nodes calls) (hnodup : nodes.Nodup) (node : String) :
    (node ∉ nodes ∧ (calls.filter fun call => call.appId = publishApi node) = []) ∨
      (node ∈ nodes ∧ ∃ call, Sent event a node call ∧ (calls.filter fun call => call.appId = publishApi node) = [call]) := by
  induction hsent with
  | nil => exact .inl ⟨List.not_mem_nil, rfl⟩
  | @cons n call nodes calls hcall _ ih =>
    obtain ⟨hn, hnodup⟩ := List.nodup_cons.1 hnodup
    by_cases heq : n = node
    · subst heq
      rcases ih hnodup with ⟨-, hnone⟩ | ⟨hmem, -⟩
      · refine .inr ⟨List.mem_cons_self, call, hcall, ?_⟩
        rw [List.filter_cons_of_pos (by simpa using hcall.appId), hnone]
      · exact absurd hmem hn
    · have hother : ¬ call.appId = publishApi node := by
        rw [hcall.appId, Dispatcher.publishApi_inj]
        exact heq
      rw [List.filter_cons_of_neg (by simpa using hother)]
      rcases ih hnodup with ⟨hmem, hnone⟩ | ⟨hmem, hone⟩
      · exact .inl ⟨fun h => (List.mem_cons.1 h).elim (fun h => heq h.symm) hmem, hnone⟩
      · exact .inr ⟨List.mem_cons_of_mem n hmem, hone⟩

/-- what the calls of one delivery are for the query `p` -/
def heard (p : Subscription) (calls : List Invocation) : List Content :=
  (((calls.filter fun call => call.appId = publishApi p.queryNodeId).map (·.event)).filter fun event =>
    hasQuery event p.queryId).map content

/-- what a message has for `p` -/
def Message.for (m : Message) (p : Subscription) : List Content :=
  if p ∈ m.event.subscriptions then [eventContent m.event] else []

/-- a call to the node of `p` is let through to `p` exactly when `p` is subscribed -/
theorem hasQuery_sent {change : Value} {subscriptions : List Subscription} (ha : List.Forall₂ Carries a subscriptions)
    {p : Subscription} {call : Invocation} (hcall : Sent change a p.queryNodeId call) :
    hasQuery call.event p.queryId = true ↔ p ∈ subscriptions := by
  have hqueries : Dispatcher.queries call.event =
      some ((subscriptions.filter (·.queryNodeId = p.queryNodeId)).map (·.queryId)) := by
    rw [Dispatcher.queries, hcall.queries, Dispatcher.queriesOn_eq ha]
    exact Dispatcher.mapM_asStr _
  rw [Dispatcher.hasQuery_iff hqueries]
  simp only [List.mem_map, List.mem_filter, decide_eq_true_eq]
  constructor
  · rintro ⟨⟨node, id⟩, ⟨hmem, hnode⟩, hid⟩
    obtain rfl : node = p.queryNodeId := hnode
    obtain rfl : id = p.queryId := hid
    exact hmem
  · intro hp
    exact ⟨p, ⟨hp, rfl⟩, rfl⟩

/-- the content of a call is that of the event -/
theorem content_sent {change : Value} {node : String} {call : Invocation} (hcall : Sent change a node call) :
    content call.event = content change := by
  have hrest := hcall.rest
  simp only [content, hrest "sourceId" (by decide) (by decide), hrest "type" (by decide) (by decide),
    hrest "elementType" (by decide) (by decide), hrest "time" (by decide) (by decide),
    hrest "before" (by decide) (by decide), hrest "after" (by decide) (by decide)]

/-- a delivery is that of its only event: it goes through the nodes of the event's subscriptions -/
theorem processChanges_value (D : Dispatcher.Env) (m : Message) :
    ∃ a nodes event, List.Forall₂ Carries a m.subscriptions ∧ nodes.Nodup ∧
      (∀ p ∈ m.subscriptions, p.queryNodeId ∈ nodes) ∧ Derived m.value event ∧
      Dispatcher.processChanges D (.array [m.value]) = sendToNodes D 0 a nodes event := by
  obtain ⟨⟨-, hpath⟩, a, ha, hcarries⟩ := Dispatcher.routerEvent_dispatchable m.event m.id m.subscriptions
    m.routerStart m.routerEnd
  obtain ⟨event, hset, hpath'⟩ := Value.exists_setAt hpath "changeDispatcherStart_ns" (.ofInt64 (D.startNs 0))
  have hderived : Derived m.value event := ⟨hpath', fun key _ hmetadata => Value.get_setAt_of_ne hset hmetadata⟩
  have hperm := D.nodeOrder_perm 0 (m.subscriptions.map (·.queryNodeId))
  rw [← Dispatcher.nodes_eq hcarries] at hperm
  refine ⟨a, _, event, hcarries, hperm.nodup_iff.2 (List.nodup_dedup _), fun p hp => ?_, hderived, ?_⟩
  · rw [hperm.mem_iff, List.mem_dedup, Dispatcher.nodes_eq hcarries]
    exact List.mem_map_of_mem hp
  · have hone : Dispatcher.processChange D 0 m.value =
        sendToNodes D 0 a (D.nodeOrder 0 (a.map fun x => (x.get "queryNodeId").asStr.getD "")) event := by
      simp only [Dispatcher.processChange, Message.value, hset, ha]
    simp only [Dispatcher.processChanges, Value.asArray, Dispatcher.processLoop, hone]
    generalize sendToNodes D 0 a (D.nodeOrder 0 (a.map fun x => (x.get "queryNodeId").asStr.getD "")) event = answer
    obtain ⟨outcome, calls⟩ := answer
    cases outcome <;> simp

/-- **One delivery to the dispatcher**: the query gets the message or nothing, and the message where it is for the query
and the delivery succeeds. -/
theorem heard_eq (D : Dispatcher.Env) (lost : Invocation → Bool) (m : Message) (p : Subscription) :
    (heard p (arrived D lost (Dispatcher.processChanges D (.array [m.value])).2) = [] ∨
      heard p (arrived D lost (Dispatcher.processChanges D (.array [m.value])).2) = m.for p) ∧
    ((Dispatcher.processChanges D (.array [m.value])).1 = .ok →
      heard p (arrived D lost (Dispatcher.processChanges D (.array [m.value])).2) = m.for p) := by
  obtain ⟨a, nodes, event, hcarries, hnodup, hnodes, hderived, heq⟩ := processChanges_value D m
  obtain ⟨reached, hbegin, hsent, hok⟩ := sendToNodes_calls D 0 a nodes hderived
  rw [heq]
  set answer := sendToNodes D 0 a nodes event with hanswer
  -- the calls to the node of `p` that arrive are among the one that is made
  have hsplit : (arrived D lost answer.2).filter (fun call => call.appId = publishApi p.queryNodeId) =
      arrived D lost (answer.2.filter fun call => call.appId = publishApi p.queryNodeId) := List.filter_comm _ _ _
  have harrived : answer.1 = .ok → arrived D lost answer.2 = answer.2 := by
    intro h
    refine List.filter_eq_self.2 fun call hcall => ?_
    simp [(hok h).2 call hcall, Except.isOk, Except.toBool]
  have hfor : ∀ call, Sent m.value a p.queryNodeId call →
      (([call].map (·.event)).filter fun event => hasQuery event p.queryId).map content = m.for p := by
    intro call hcall
    have hhas := hasQuery_sent hcarries hcall
    rw [mem_subscriptions] at hhas
    by_cases hp : p ∈ m.event.subscriptions
    · simp [Message.for, hp, hhas.2 hp, content_sent hcall]
    · simp [Message.for, hp, mt hhas.1 hp]
  rcases filter_calls hsent (hnodup.sublist hbegin.sublist) p.queryNodeId with ⟨hmem, hnone⟩ | ⟨-, call, hcall, hone⟩
  · have hempty : heard p (arrived D lost answer.2) = [] := by
      rw [heard, hsplit, hnone]
      rfl
    refine ⟨.inl hempty, fun h => ?_⟩
    rw [hempty, Message.for, if_neg]
    intro hp
    rw [(hok h).1] at hmem
    exact hmem (hnodes p ((mem_subscriptions m p).2 hp))
  · refine ⟨?_, fun h => ?_⟩
    · rw [heard, hsplit, hone]
      have hsingle : arrived D lost [call] = if (D.invoke call).isOk || lost call then [call] else [] := by
        rw [arrived, List.filter_singleton, cond_eq_ite]
      rw [hsingle]
      split
      · exact .inr (hfor call hcall)
      · exact .inl rfl
    · rw [harrived h, heard, hone, hfor call hcall]

end Dispatcher

end DrasiPlatform.Pipeline
