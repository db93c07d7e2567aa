/-
The change dispatcher of a source (`sources/shared/change-dispatcher/src/main.rs`): `process_changes` sends every change
event of a batch to the publish API of each query node that subscribes to it, with the ids of the queries on that node.

One event value is reused for all nodes of a change: `sendToNodes` rewrites its `queries` and its end stamp before every
call. The nodes come out of a `HashSet`, in any order (`Env.nodeOrder`). Indexing panics where a stamp cannot be
written, so what a batch has to look like is a predicate (`Dispatchable`), and the router's events meet it
(`routerEvent_dispatchable`).

- `Derived`: what is sent differs from the change in `queries` and `metadata` only.
- `sendToNodes_forall₂`: one call per node, in the order of the set, with the ids of that node.
- `dispatch_partition`: over a batch, each change is sent exactly once to every subscribed node, and the query host's
  `has_query` lets it through for exactly the subscribed queries.
Witness: `dispatch_partition_two_nodes`.
-/
import Mathlib.Tactic
import DrasiPlatform.Core.Json
import DrasiPlatform.Router.ProcessChanges

namespace DrasiPlatform.Dispatcher

open Json Router

/-! ## Model -/

/-- one call of the invoker, method `change` -/
structure Invocation where
  appId : String
  event : Value
  /-- the header `traceparent`, if the request had one -/
  traceparent : Option String

/-- what one call of `process_changes` sees: the request's trace, the stamps, the order of the node set and the answers of
the publish APIs -/
structure Env where
  traceparent : String
  startNs : ℕ → Int64
  endNs : ℕ → String → Int64
  nodeOrder : ℕ → List String → List String
  nodeOrder_perm : ∀ index nodes, (nodeOrder index nodes).Perm nodes.dedup
  invoke : Invocation → Except String Unit

inductive Outcome where
  | ok
  | error (text : String)
  | panic
deriving DecidableEq

/-- the app id of a node's publish API -/
def publishApi (queryNodeId : String) : String := queryNodeId ++ "-publish-api"

/-- the path of the stamps -/
def tracking : List String := ["metadata", "tracking", "source"]

/-- the ids of the queries on a node -/
def queriesOn (subscriptions : List Value) (queryNodeId : String) : List Value :=
  (subscriptions.filter fun x => (x.get "queryNodeId").eqStr queryNodeId).map fun x => x.get "queryId"

/-- the loop over the nodes of the event at `index`; `event` is the dispatch event, as the previous turn left it -/
def sendToNodes (E : Env) (index : ℕ) (subscriptions : List Value) :
    List String → Value → Outcome × List Invocation
  | [], _ => (.ok, [])
  | queryNodeId :: nodes, event =>
    match (event.set "queries" (.array (queriesOn subscriptions queryNodeId))).bind fun event =>
        event.setAt tracking "changeDispatcherEnd_ns" (.ofInt64 (E.endNs index queryNodeId)) with
    | none => (.panic, [])
    | some event =>
      let call : Invocation := ⟨publishApi queryNodeId, event, if E.traceparent = "" then none else some E.traceparent⟩
      match E.invoke call with
      | .error e => (.error ("Error invoking app: " ++ e), [call])
      | .ok _ =>
        let (outcome, calls) := sendToNodes E index subscriptions nodes event
        (outcome, call :: calls)

/-- one turn of the loop over the batch -/
def processChange (E : Env) (index : ℕ) (change : Value) : Outcome × List Invocation :=
  match change.setAt tracking "changeDispatcherStart_ns" (.ofInt64 (E.startNs index)) with
  | none => (.panic, [])
  | some event =>
    match (change.get "subscriptions").asArray with
    | none => (.error "Error getting subscriptions from change event", [])
    | some subscriptions =>
      let nodes := subscriptions.map fun x => (x.get "queryNodeId").asStr.getD ""
      sendToNodes E index subscriptions (E.nodeOrder index nodes) event

def processLoop (E : Env) (index : ℕ) : List Value → Outcome × List Invocation
  | [] => (.ok, [])
  | change :: changes =>
    match processChange E index change with
    | (.ok, calls) =>
      let (outcome, more) := processLoop E (index + 1) changes
      (outcome, calls ++ more)
    | (outcome, calls) => (outcome, calls)

/-- `process_changes` -/
def processChanges (E : Env) (changes : Value) : Outcome × List Invocation :=
  match changes.asArray with
  | none => (.error "Changes must be an array", [])
  | some changes => processLoop E 0 changes

/-! ### The query host -/

/-- `queries` of the query host's `ChangeEvent`, a `Vec<String>` -/
def queries (event : Value) : Option (List String) := (event.get "queries").asArray.bind fun a => a.mapM Value.asStr

/-- `ChangeEvent::has_query` -/
def hasQuery (event : Value) (queryId : String) : Bool := ((queries event).getD []).contains queryId

/-! ## The promise -/

/-- an element of `subscriptions` carries the ids of `p` as strings -/
structure Carries (x : Value) (p : Subscription) : Prop where
  queryNodeId : (x.get "queryNodeId").asStr = some p.queryNodeId
  queryId : (x.get "queryId").asStr = some p.queryId

/-- the subscriptions of a change, all with string ids -/
def Subscribed (change : Value) (subscriptions : List Subscription) : Prop :=
  ∃ a, (change.get "subscriptions").asArray = some a ∧ List.Forall₂ Carries a subscriptions

/-- the calls made for one change -/
structure Partition (change : Value) (subscriptions : List Subscription) (calls : List Invocation) : Prop where
  /-- one call for every node -/
  once : (calls.map (·.appId)).Perm ((subscriptions.map (·.queryNodeId)).dedup.map publishApi)
  /-- with the ids on this node, in the order of the subscriptions -/
  queries : ∀ call ∈ calls, ∀ queryNodeId, call.appId = publishApi queryNodeId →
    queries call.event = some ((subscriptions.filter (·.queryNodeId = queryNodeId)).map (·.queryId))
  /-- and the rest of the change as it came -/
  rest : ∀ call ∈ calls, ∀ key, key ≠ "queries" → key ≠ "metadata" → call.event.get key = change.get key
  /-- so a query gets it past the filter of its host exactly when it is subscribed -/
  processed : ∀ p : Subscription,
    (∃ call ∈ calls, call.appId = publishApi p.queryNodeId ∧ hasQuery call.event p.queryId = true) ↔ p ∈ subscriptions

/-- the events of a dispatch batch: an array of subscriptions, and a place for the stamps -/
structure Dispatchable (change : Value) : Prop where
  subscriptions : ∃ a, (change.get "subscriptions").asArray = some a
  tracking : change.indexableAt tracking = true

/-! ## What the router sends -/

/-- the event of the router as it is on the dispatch topic, with its id, its stamps and an order of its subscriptions -/
def routerEvent (e : DispatchEvent) (id : String) (subscriptions : List Subscription) (routerStart routerEnd : Int64) :
    Value :=
  .object
    [("id", .string id), ("sourceId", .string e.sourceId), ("type", e.type), ("elementType", e.elementType),
      ("subscriptions", .array (subscriptions.map fun p =>
        .object [("queryNodeId", .string p.queryNodeId), ("queryId", .string p.queryId)])),
      ("time", .object [("seq", e.seq), ("ms", .number (.posInt e.ms))]), ("before", e.before), ("after", e.after),
      ("metadata", .object [("tracking", .object [("source", .object
        [("seq", e.seq), ("changeRouterStart_ns", .ofInt64 routerStart), ("changeRouterEnd_ns", .ofInt64 routerEnd),
          ("source_ns", e.sourceNs), ("reactivatorStart_ns", e.reactivatorStart),
          ("reactivatorEnd_ns", e.reactivatorEnd)])])])]

/-- **The router keeps the dispatcher's contract**: its events can be stamped, and their ids are strings. -/
theorem routerEvent_dispatchable (e : DispatchEvent) (id : String) (subscriptions : List Subscription)
    (routerStart routerEnd : Int64) : Dispatchable (routerEvent e id subscriptions routerStart routerEnd) ∧
      Subscribed (routerEvent e id subscriptions routerStart routerEnd) subscriptions := by
  refine ⟨⟨⟨_, rfl⟩, rfl⟩, _, rfl, ?_⟩
  rw [List.forall₂_map_left_iff]
  exact List.forall₂_same.2 fun p _ => ⟨rfl, rfl⟩

/-! ## One change -/

/-- the dispatch event before and after a turn of the loop -/
structure Derived (change event : Value) : Prop where
  tracking : event.indexableAt tracking = true
  rest : ∀ key, key ≠ "queries" → key ≠ "metadata" → event.get key = change.get key

/-- what a node is sent -/
structure Sent (change : Value) (subscriptions : List Value) (queryNodeId : String) (call : Invocation) : Prop where
  appId : call.appId = publishApi queryNodeId
  queries : call.event.get "queries" = .array (queriesOn subscriptions queryNodeId)
  rest : ∀ key, key ≠ "queries" → key ≠ "metadata" → call.event.get key = change.get key

/-- the event is rewritten for every node: nothing of the previous one is left -/
theorem Derived.rewrite {change event : Value} (h : Derived change event) (x stamp : Value) (key : String) :
    ∃ event', ((event.set "queries" x).bind fun event => event.setAt Dispatcher.tracking key stamp) = some event' ∧
      Derived change event' ∧ event'.get "queries" = x := by
  obtain ⟨event₁, h₁⟩ := Value.exists_set (Value.indexableAt_isIndexable h.tracking) "queries" x
  have hpath := Value.indexableAt_set_of_ne h₁ (by decide) h.tracking
  obtain ⟨event₂, h₂, hpath₂⟩ := Value.exists_setAt hpath key stamp
  refine ⟨event₂, by rw [h₁]; exact h₂, ⟨hpath₂, ?_⟩, ?_⟩
  · intro k hqueries hmetadata
    rw [Value.get_setAt_of_ne h₂ hmetadata, Value.get_set h₁, if_neg hqueries, h.rest k hqueries hmetadata]
  · rw [Value.get_setAt_of_ne h₂ (by decide), Value.get_set h₁, if_pos rfl]

/-- **One call per node**, in the order of the set. -/
theorem sendToNodes_forall₂ {E : Env} (hE : ∀ call, E.invoke call = .ok ()) (index : ℕ) {change event : Value}
    (subscriptions : List Value) (nodes : List String) (h : Derived change event) :
    ∃ calls, sendToNodes E index subscriptions nodes event = (.ok, calls) ∧
      List.Forall₂ (Sent change subscriptions) nodes calls := by
  induction nodes generalizing event with
  | nil => exact ⟨[], rfl, .nil⟩
  | cons queryNodeId nodes ih =>
    obtain ⟨event', hset, hderived, hqueries⟩ := h.rewrite (.array (queriesOn subscriptions queryNodeId))
      (.ofInt64 (E.endNs index queryNodeId)) "changeDispatcherEnd_ns"
    obtain ⟨calls, hcalls, hsent⟩ := ih hderived
    refine ⟨⟨publishApi queryNodeId, event', if E.traceparent = "" then none else some E.traceparent⟩ :: calls, ?_,
      .cons ⟨rfl, hqueries, hderived.rest⟩ hsent⟩
    simp only [sendToNodes, hset, hE, hcalls]

/-- every event sent is a record, and can be stamped again -/
theorem sendToNodes_records (E : Env) (index : ℕ) (subscriptions : List Value) (nodes : List String) {change event : Value}
    (hrecord : event.IsRecord) (h : Derived change event) :
    ∀ call ∈ (sendToNodes E index subscriptions nodes event).2,
      call.event.IsRecord ∧ call.event.indexableAt tracking = true := by
  induction nodes generalizing event with
  | nil =>
    intro call hcall
    cases hcall
  | cons queryNodeId nodes ih =>
    obtain ⟨event', hset, hderived, -⟩ := h.rewrite (.array (queriesOn subscriptions queryNodeId))
      (.ofInt64 (E.endNs index queryNodeId)) "changeDispatcherEnd_ns"
    obtain ⟨event₁, h₁, h₂⟩ := Option.bind_eq_some_iff.1 hset
    have hrecord' : event'.IsRecord := (hrecord.set h₁).setAt h₂
    have hnext := ih hrecord' hderived
    intro call hcall
    simp only [sendToNodes, hset] at hcall
    split at hcall
    · rw [List.mem_singleton.1 hcall]
      exact ⟨hrecord', hderived.tracking⟩
    · rcases List.mem_cons.1 hcall with rfl | hcall
      · exact ⟨hrecord', hderived.tracking⟩
      · exact hnext call hcall

theorem processChange_records (E : Env) (index : ℕ) {change : Value} (hrecord : change.IsRecord)
    (hpath : change.indexableAt tracking = true) : ∀ call ∈ (processChange E index change).2,
      call.event.IsRecord ∧ call.event.indexableAt tracking = true := by
  obtain ⟨event, hset, hpath'⟩ := Value.exists_setAt hpath "changeDispatcherStart_ns" (.ofInt64 (E.startNs index))
  have hderived : Derived change event := ⟨hpath', fun key _ hmetadata => Value.get_setAt_of_ne hset hmetadata⟩
  intro call hcall
  simp only [processChange, hset] at hcall
  split at hcall
  · cases hcall
  · exact sendToNodes_records E index _ _ (hrecord.setAt hset) hderived call hcall

theorem processChange_sent {E : Env} (hE : ∀ call, E.invoke call = .ok ()) (index : ℕ) {change : Value}
    (h : Dispatchable change) : ∃ a calls, (change.get "subscriptions").asArray = some a ∧
      processChange E index change = (.ok, calls) ∧
      List.Forall₂ (Sent change a) (E.nodeOrder index (a.map fun x => (x.get "queryNodeId").asStr.getD "")) calls := by
  obtain ⟨a, ha⟩ := h.subscriptions
  obtain ⟨event, hset, hpath⟩ := Value.exists_setAt h.tracking "changeDispatcherStart_ns" (.ofInt64 (E.startNs index))
  have hderived : Derived change event := ⟨hpath, fun key _ hmetadata => Value.get_setAt_of_ne hset hmetadata⟩
  obtain ⟨calls, hcalls, hsent⟩ := sendToNodes_forall₂ hE index a
    (E.nodeOrder index (a.map fun x => (x.get "queryNodeId").asStr.getD "")) hderived
  refine ⟨a, calls, ha, ?_, hsent⟩
  simp only [processChange, hset, ha, hcalls]

/-! ### The ids of a node -/

theorem publishApi_inj {a b : String} : publishApi a = publishApi b ↔ a = b :=
  ⟨fun h => String.append_left_inj _ |>.1 h, congrArg _⟩

theorem mapM_asStr (l : List String) : (l.map Value.string).mapM Value.asStr = some l := by
  induction l with
  | nil => rfl
  | cons text l ih => simp [ih, Value.asStr]

section Ids

variable {a : List Value} {subscriptions : List Subscription}

theorem nodes_eq (h : List.Forall₂ Carries a subscriptions) :
    (a.map fun x => (x.get "queryNodeId").asStr.getD "") = subscriptions.map (·.queryNodeId) := by
  induction h with
  | nil => rfl
  | cons hx _ ih => rw [List.map_cons, List.map_cons, hx.queryNodeId, ih, Option.getD_some]

theorem queriesOn_eq (h : List.Forall₂ Carries a subscriptions) (queryNodeId : String) :
    queriesOn a queryNodeId =
      ((subscriptions.filter (·.queryNodeId = queryNodeId)).map (·.queryId)).map Value.string := by
  induction h with
  | nil => rfl
  | @cons x p _ _ hx _ ih =>
    have hid : x.get "queryId" = .string p.queryId := by
      have := hx.queryId
      revert this
      cases x.get "queryId" <;> simp [Value.asStr]
    have heq : (x.get "queryNodeId").eqStr queryNodeId = decide (p.queryNodeId = queryNodeId) := by
      rw [Value.eqStr, hx.queryNodeId]
      exact Bool.eq_iff_iff.2 (by simp)
    unfold queriesOn at ih ⊢
    rw [List.filter_cons, List.filter_cons, heq]
    split
    · rw [List.map_cons, List.map_cons, List.map_cons, hid, ih]
    · exact ih

end Ids

/-! ### The partition -/

section Sent

variable {change : Value} {a : List Value} {nodes : List String} {calls : List Invocation}

theorem map_appId (h : List.Forall₂ (Sent change a) nodes calls) : calls.map (·.appId) = nodes.map publishApi := by
  induction h with
  | nil => rfl
  | cons hsent _ ih => rw [List.map_cons, List.map_cons, hsent.appId, ih]

/-- a call is that of the node it goes to -/
theorem sent_of_mem (h : List.Forall₂ (Sent change a) nodes calls) {call : Invocation} (hcall : call ∈ calls) :
    ∃ queryNodeId, Sent change a queryNodeId call := by
  induction h with
  | nil => cases hcall
  | cons hsent _ ih =>
    rcases List.mem_cons.1 hcall with rfl | hcall
    · exact ⟨_, hsent⟩
    · exact ih hcall

theorem exists_call (h : List.Forall₂ (Sent change a) nodes calls) {queryNodeId : String} (hnode : queryNodeId ∈ nodes) :
    ∃ call ∈ calls, call.appId = publishApi queryNodeId := by
  have hmem : publishApi queryNodeId ∈ calls.map (·.appId) := by
    rw [map_appId h]
    exact List.mem_map_of_mem hnode
  obtain ⟨call, hcall, happ⟩ := List.mem_map.1 hmem
  exact ⟨call, hcall, happ⟩

end Sent

theorem hasQuery_iff {event : Value} {ids : List String} (h : queries event = some ids) (queryId : String) :
    hasQuery event queryId = true ↔ queryId ∈ ids := by
  rw [hasQuery, h, Option.getD_some, List.contains_iff_mem]

theorem partition_of_sent {change : Value} {a : List Value} {subscriptions : List Subscription} {nodes : List String}
    {calls : List Invocation} (ha : List.Forall₂ Carries a subscriptions)
    (hnodes : nodes.Perm (subscriptions.map (·.queryNodeId)).dedup) (hsent : List.Forall₂ (Sent change a) nodes calls) :
    Partition change subscriptions calls := by
  have hqueries : ∀ call ∈ calls, ∀ queryNodeId, call.appId = publishApi queryNodeId →
      queries call.event = some ((subscriptions.filter (·.queryNodeId = queryNodeId)).map (·.queryId)) := by
    intro call hcall queryNodeId happ
    obtain ⟨node, hnode⟩ := sent_of_mem hsent hcall
    obtain rfl : node = queryNodeId := publishApi_inj.1 (hnode.appId.symm.trans happ)
    rw [queries, hnode.queries, queriesOn_eq ha]
    exact mapM_asStr _
  refine ⟨?_, hqueries, ?_, ?_⟩
  · rw [map_appId hsent]
    exact hnodes.map publishApi
  · intro call hcall key hq hm
    obtain ⟨node, hnode⟩ := sent_of_mem hsent hcall
    exact hnode.rest key hq hm
  · intro p
    constructor
    · rintro ⟨call, hcall, happ, hhas⟩
      rw [hasQuery_iff (hqueries call hcall _ happ)] at hhas
      obtain ⟨p', hp', hid⟩ := List.mem_map.1 hhas
      obtain ⟨hmem, hnode⟩ := List.mem_filter.1 hp'
      obtain rfl : p' = p := by
        rcases p with ⟨node, id⟩
        rcases p' with ⟨node', id'⟩
        simp only [decide_eq_true_eq] at hnode hid
        rw [hnode, hid]
      exact hmem
    · intro hp
      have hnode : p.queryNodeId ∈ nodes := hnodes.mem_iff.2 (List.mem_dedup.2 (List.mem_map_of_mem hp))
      obtain ⟨call, hcall, happ⟩ := exists_call hsent hnode
      refine ⟨call, hcall, happ, (hasQuery_iff (hqueries call hcall _ happ) _).2 ?_⟩
      exact List.mem_map.2 ⟨p, List.mem_filter.2 ⟨hp, decide_eq_true rfl⟩, rfl⟩

/-! ## Main result -/

theorem processLoop_groups {E : Env} (hE : ∀ call, E.invoke call = .ok ()) (index : ℕ) {batch : List Value}
    (hbatch : ∀ change ∈ batch, Dispatchable change) :
    ∃ groups, processLoop E index batch = (.ok, groups.flatten) ∧
      List.Forall₂ (fun change calls => ∀ subscriptions, Subscribed change subscriptions →
        Partition change subscriptions calls) batch groups := by
  induction batch generalizing index with
  | nil => exact ⟨[], rfl, .nil⟩
  | cons change batch ih =>
    obtain ⟨a, calls, ha, hcalls, hsent⟩ := processChange_sent hE index (hbatch change List.mem_cons_self)
    obtain ⟨groups, hgroups, hparts⟩ := ih (index + 1) fun c hc => hbatch c (List.mem_cons_of_mem change hc)
    refine ⟨calls :: groups, ?_, .cons ?_ hparts⟩
    · simp only [processLoop, hcalls, hgroups, List.flatten_cons]
    · rintro subscriptions ⟨a', ha', hcarries⟩
      obtain rfl : a = a' := Option.some.inj (ha.symm.trans ha')
      rw [nodes_eq hcarries] at hsent
      exact partition_of_sent hcarries (E.nodeOrder_perm index _) hsent

/-- **Dispatch partition.** When the calls succeed, a batch is dispatched change by change: every change whose subscriptions
carry string ids is sent exactly once to every node they name, with exactly the ids subscribed on that node; and the
filter of the query host lets it through to a query exactly when the query is among its subscriptions. -/
theorem dispatch_partition (E : Env) (hE : ∀ call, E.invoke call = .ok ()) (batch : List Value)
    (hbatch : ∀ change ∈ batch, Dispatchable change) :
    ∃ groups, processChanges E (.array batch) = (.ok, groups.flatten) ∧
      List.Forall₂ (fun change calls => ∀ subscriptions, Subscribed change subscriptions →
        Partition change subscriptions calls) batch groups :=
  processLoop_groups hE 0 hbatch

/-- calls that succeed, and the nodes in the order of their last subscriptions -/
def Env.reliable (traceparent : String) : Env where
  traceparent := traceparent
  startNs _ := 0
  endNs _ _ := 0
  nodeOrder _ nodes := nodes.dedup
  nodeOrder_perm _ _ := .refl _
  invoke _ := .ok ()

/-- an insert of a node, as the router publishes it -/
def insertEvent : DispatchEvent where
  sourceId := "src"
  type := .string "i"
  elementType := .string "node"
  subscriptions := 0
  seq := .number (.posInt 1)
  ms := 0
  before := .null
  after := .null
  sourceNs := .null
  reactivatorStart := .null
  reactivatorEnd := .null
  traceparent := ""

/-- two queries on one node and one on another, and then only the latter -/
def twoNodes : List Subscription × List Subscription :=
  ([⟨"n1", "q1"⟩, ⟨"n2", "q3"⟩, ⟨"n1", "q2"⟩], [⟨"n2", "q3"⟩])

theorem dispatch_partition_two_nodes :
    ∃ calls calls', processChanges (.reliable "") (.array [routerEvent insertEvent "1" twoNodes.1 0 0,
        routerEvent insertEvent "2" twoNodes.2 0 0]) = (.ok, calls ++ calls') ∧
      Partition (routerEvent insertEvent "1" twoNodes.1 0 0) twoNodes.1 calls ∧
      Partition (routerEvent insertEvent "2" twoNodes.2 0 0) twoNodes.2 calls' := by
  have h₁ := routerEvent_dispatchable insertEvent "1" twoNodes.1 0 0
  have h₂ := routerEvent_dispatchable insertEvent "2" twoNodes.2 0 0
  obtain ⟨groups, hgroups, hparts⟩ := dispatch_partition (.reliable "") (fun _ => rfl)
    [routerEvent insertEvent "1" twoNodes.1 0 0, routerEvent insertEvent "2" twoNodes.2 0 0] (by simp [h₁.1, h₂.1])
  cases hparts with
  | cons hcalls hrest =>
    cases hrest with
    | cons hcalls' hnil =>
      cases hnil
      rw [List.flatten_cons, List.flatten_cons, List.flatten_nil, List.append_nil] at hgroups
      exact ⟨_, _, hgroups, hcalls _ h₁.2, hcalls' _ h₂.2⟩

end DrasiPlatform.Dispatcher
