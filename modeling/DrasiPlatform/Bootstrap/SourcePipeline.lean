/-
The way of a source's changes to one of its queries, with the steps of the query's subscription beside it
(`sources/shared/query-api/src/main.rs`, `sources/shared/change-router/src/main.rs`, and the start of the worker in
`query-container/query-host/src/query_worker.rs`).

A change is committed at the source, enqueued on the source's change topic by the reactivator, routed by the change router
(`receive`, the router's own program) to the dispatch topic, appended by the dispatcher and the publish-api to the Redis
stream of the query's node, and consumed by the query's consumer group. Beside that the query host takes its start timestamp
and clears its index, the query-api publishes the subscription on the same change topic and asks the proxy for the
elements, they are streamed into the index, and the group is created at the entry id `startTimestamp-0`.

The proxy reads each element at any moment between the start of the acquire call and the end of the stream (`window`).
Redis ids come from the host's clock. Topics are first in, first out; no step fails. A batch of changes is routed one
change at a time, which is the same by `Router.receive_append`; the dispatcher names to a node its own queries, as
`Dispatcher.dispatch_partition` has it.

- `namedOf_routed`: the router dispatches a change to the query exactly when the label map has the query.
- `names_receive`: the label maps only grow; `names_receive_subscribe`: the subscription puts the query under its labels.
- `consumable_entryOf`: the entry of a dispatched change is consumed when its id is above the group's position.
- `consumable_split`: what the next entry leaves to be consumed.
-/
import Mathlib.Tactic
import DrasiPlatform.ChangeStream.Redis
import DrasiPlatform.Router.Routing

namespace DrasiPlatform.HandOver

open Json Router ChangeStream

/-! ## Changes and messages -/

/-- the elements of a source, with one label each, and the subscription of a query to it -/
structure Setup (Elem : Type) where
  elementType : Elem → ElementType
  label : Elem → String
  query : Subscription
  nodeLabels : List String
  relLabels : List String
  sourceId : String
  traceparent : String

variable {Elem Val : Type}

def Setup.env (P : Setup Elem) : Env := .reliable P.sourceId P.traceparent

/-- the query subscribes to the label of the element -/
def Setup.Wants (P : Setup Elem) (e : Elem) : Prop := P.label e ∈ (P.elementType e).pick P.nodeLabels P.relLabels

/-- a change with the full element, as the router reads it; a deleted element has no value -/
structure Change (P : Setup Elem) (Val : Type) where
  elem : Elem
  value : Option Val
  event : Value
  data : IsData event (P.elementType elem) [P.label elem]

/-- a message on the source's change topic -/
inductive Message (P : Setup Elem) (Val : Type) where
  | change (c : Change P Val)
  | control (event : Value) (h : IsControlEvent event)

def Message.event {P : Setup Elem} : Message P Val → Value
  | .change c => c.event
  | .control event _ => event

def Message.change? {P : Setup Elem} : Message P Val → Option (Change P Val)
  | .change c => some c
  | .control _ _ => none

/-- a message on the dispatch topic -/
structure Dispatched (P : Setup Elem) (Val : Type) where
  change : Change P Val
  event : DispatchEvent

/-- an entry of the stream of the query's node -/
structure Entry (P : Setup Elem) (Val : Type) where
  id : EntryId
  change : Change P Val
  queries : Multiset String

/-! ## States and steps -/

inductive Phase (Elem Val : Type) where
  | configured
  | started (startTimestamp : ℕ)
  | subscribed (startTimestamp : ℕ)
  /-- the values each element has had since the acquire call started, and the elements in the index -/
  | acquiring (startTimestamp : ℕ) (window : Elem → List (Option Val)) (loaded : List Elem)
  | bootstrapped (startTimestamp : ℕ)
  | running (startTimestamp : ℕ) (position : EntryId)

structure State (P : Setup Elem) (Val : Type) where
  store : Elem → Option Val
  backlog : List (Change P Val)
  topic : List (Message P Val)
  router : AppState
  dispatch : List (Dispatched P Val)
  entries : List (Entry P Val)
  clock : ℕ
  phase : Phase Elem Val
  index : Elem → Option Val

inductive Op (P : Setup Elem) (Val : Type) where
  | commit (c : Change P Val)
  | enqueue
  | control (event : Value) (h : IsControlEvent event)
  | route
  | dispatch
  | tick
  | start
  | subscribe
  | acquire
  | load (e : Elem) (v : Val)
  | finish
  | createGroup
  | consume

section Step

variable {P : Setup Elem}

/-- the id of the top entry -/
def topId (entries : List (Entry P Val)) : EntryId := (entries.getLast?.map (·.id)).getD .zero

/-- the id that `XADD *` gives: the clock's, unless the top one is in the same millisecond or ahead of it -/
def autoId (clock : ℕ) (top : EntryId) : EntryId :=
  if (ofLex top).1 < clock then toLex (clock, 0) else toLex ((ofLex top).1, (ofLex top).2 + 1)

def State.nextId (s : State P Val) : EntryId := autoId s.clock (topId s.entries)

/-- what the router publishes for a message -/
def routed (r : AppState) : Message P Val → List (Dispatched P Val)
  | .change c => ((receive P.env r [c.event]).published.drop r.published.length).map fun event => ⟨c, event⟩
  | .control _ _ => []

/-- the queries of the node that a dispatched change names -/
def queriesOf (d : Dispatched P Val) : Multiset String :=
  (d.event.subscriptions.filter fun p => p.queryNodeId = P.query.queryNodeId).map (·.queryId)

/-- the entry of a dispatched change, when it names a query of the node -/
def entryOf (id : EntryId) (d : Dispatched P Val) : List (Entry P Val) :=
  if queriesOf d = 0 then [] else [⟨id, d.change, queriesOf d⟩]

variable [DecidableEq Elem]

/-- the proxy sees a committed change -/
def Phase.see (c : Change P Val) : Phase Elem Val → Phase Elem Val
  | .acquiring ts window loaded => .acquiring ts (Function.update window c.elem (window c.elem ++ [c.value])) loaded
  | phase => phase

def subscribeMessage (P : Setup Elem) (Val : Type) : Message P Val :=
  .control (subscribeEvent P.query P.nodeLabels P.relLabels) (.inl ⟨_, _, _, isSubscribe_subscribeEvent _ _ _⟩)

/-- the next entry above the position is processed, when it names the query -/
def consume (s : State P Val) (ts : ℕ) (position : EntryId) : State P Val :=
  match s.entries.find? fun x => position < x.id with
  | none => s
  | some x =>
    { s with
      index := if P.query.queryId ∈ x.queries then Function.update s.index x.change.elem x.change.value else s.index
      phase := .running ts x.id }

def step (s : State P Val) : Op P Val → State P Val
  | .commit c =>
    { s with
      store := Function.update s.store c.elem c.value
      backlog := s.backlog ++ [c]
      phase := s.phase.see c }
  | .enqueue =>
    match s.backlog with
    | [] => s
    | c :: backlog => { s with backlog := backlog, topic := s.topic ++ [.change c] }
  | .control event h => { s with topic := s.topic ++ [.control event h] }
  | .route =>
    match s.topic with
    | [] => s
    | m :: topic =>
      { s with topic := topic, router := receive P.env s.router [m.event], dispatch := s.dispatch ++ routed s.router m }
  | .dispatch =>
    match s.dispatch with
    | [] => s
    | d :: dispatch => { s with dispatch := dispatch, entries := s.entries ++ entryOf s.nextId d }
  | .tick => { s with clock := s.clock + 1 }
  | .start =>
    match s.phase with
    | .configured => { s with phase := .started s.clock, index := fun _ => none }
    | _ => s
  | .subscribe =>
    match s.phase with
    | .started ts => { s with phase := .subscribed ts, topic := s.topic ++ [subscribeMessage P Val] }
    | _ => s
  | .acquire =>
    match s.phase with
    | .subscribed ts => { s with phase := .acquiring ts (fun e => [s.store e]) [] }
    | _ => s
  | .load e v =>
    match s.phase with
    | .acquiring ts window loaded =>
      { s with index := Function.update s.index e (some v), phase := .acquiring ts window (e :: loaded) }
    | _ => s
  | .finish =>
    match s.phase with
    | .acquiring ts _ _ => { s with phase := .bootstrapped ts }
    | _ => s
  | .createGroup =>
    match s.phase with
    | .bootstrapped ts => { s with phase := .running ts (toLex (ts, 0)) }
    | _ => s
  | .consume =>
    match s.phase with
    | .running ts position => consume s ts position
    | _ => s

/-- what the proxy sends: a subscribed element at most once, with a value it had since the call started, and at the end no
element is left out that has existed all the time -/
def Legal (s : State P Val) : Op P Val → Prop
  | .load e v => ∀ ts window loaded, s.phase = .acquiring ts window loaded → P.Wants e ∧ e ∉ loaded ∧ some v ∈ window e
  | .finish => ∀ ts window loaded, s.phase = .acquiring ts window loaded →
      ∀ e, P.Wants e → e ∉ loaded → none ∈ window e
  | _ => True

end Step

/-! ## Routing -/

section Routing

variable {P : Setup Elem}

/-- the label map of the element's label has the query -/
def Names (P : Setup Elem) (r : AppState) (e : Elem) : Prop :=
  P.query ∈ (r.subscriber (P.elementType e)).subscribers (P.label e)

instance (r : AppState) (e : Elem) : Decidable (Names P r e) :=
  inferInstanceAs (Decidable (P.query ∈ (r.subscriber (P.elementType e)).subscribers (P.label e)))

/-- the changes that the dispatched events name the query for -/
def namedOf (l : List (Dispatched P Val)) : List (Change P Val) :=
  (l.filter fun d => P.query ∈ d.event.subscriptions).map (·.change)

/-- the changes that the stream entries above a position name the query for -/
def consumable (position : EntryId) (l : List (Entry P Val)) : List (Change P Val) :=
  (l.filter fun x => position < x.id ∧ P.query.queryId ∈ x.queries).map (·.change)

/-- the router after the messages -/
def routerAfter (r : AppState) (topic : List (Message P Val)) : AppState := receiveEach P.env r (topic.map (·.event))

/-- the changes of a topic that the router will dispatch to the query -/
def named (r : AppState) : List (Message P Val) → List (Change P Val)
  | [] => []
  | .change c :: topic => (if Names P r c.elem then [c] else []) ++ named (receive P.env r [c.event]) topic
  | .control event _ :: topic => named (receive P.env r [event]) topic

theorem routerAfter_cons (r : AppState) (m : Message P Val) (topic : List (Message P Val)) :
    routerAfter r (m :: topic) = routerAfter (receive P.env r [m.event]) topic := rfl

theorem routerAfter_append (r : AppState) (a b : List (Message P Val)) :
    routerAfter r (a ++ b) = routerAfter (routerAfter r a) b := by
  simp [routerAfter, receiveEach, List.foldl_append]

theorem subscriber_receive_change (r : AppState) (c : Change P Val) (t : ElementType) :
    (receive P.env r [c.event]).subscriber t = r.subscriber t := by
  rw [receive_singleton, Setup.env, handleChange_data c.data]
  cases t <;> rfl

theorem names_receive_change (r : AppState) (c : Change P Val) (e : Elem) :
    Names P (receive P.env r [c.event]) e ↔ Names P r e := by
  rw [Names, Names, subscriber_receive_change]

theorem names_receive_control {event : Value} (h : IsControlEvent event) (r : AppState) (e : Elem) :
    Names P (receive P.env r [event]) e ↔ Names P r e ∨ Subscribed [event] (P.elementType e) P.query (P.label e) :=
  mem_subscriber_receiveEach [event] (fun _ hc => List.mem_singleton.1 hc ▸ h) r (P.elementType e) P.query (P.label e)

/-- **The label maps only grow.** -/
theorem names_receive {r : AppState} {e : Elem} (m : Message P Val) (h : Names P r e) :
    Names P (receive P.env r [m.event]) e := by
  cases m with
  | change c => exact (names_receive_change r c e).2 h
  | control event hc => exact (names_receive_control hc r e).2 (.inl h)

/-- after the subscription of the query its labels have it -/
theorem names_receive_subscribe (r : AppState) {e : Elem} (h : P.Wants e) :
    Names P (receive P.env r [(subscribeMessage P Val).event]) e := by
  refine (names_receive_control (.inl ⟨_, _, _, isSubscribe_subscribeEvent _ _ _⟩) r e).2 (.inr ?_)
  exact ⟨_, List.mem_singleton_self _, _, _, isSubscribe_subscribeEvent _ _ _, h⟩

/-- the subscribers of the one label of a change: of a label without any, there is no answer -/
theorem getSubscribers_label (m : SubscriberMap) (label : String) :
    m.getSubscribersForLabels [label] = none ∧ m.subscribers label = ∅ ∨
      m.getSubscribersForLabels [label] = some (m.subscribers label).val := by
  rcases (m.subscribers label).eq_empty_or_nonempty with hempty | hknown
  · exact .inl ⟨SubscriberMap.getSubscribersForLabels_unknown m _ label (List.mem_singleton_self _) hempty, hempty⟩
  · right
    rw [SubscriberMap.getSubscribersForLabels_known _ _ (by simpa using hknown)]
    simp

/-- **The router dispatches a change to the query exactly when the label map has the query.** -/
theorem namedOf_routed (r : AppState) (c : Change P Val) :
    namedOf (routed r (.change c)) = if Names P r c.elem then [c] else [] := by
  obtain ⟨tsNs, hts⟩ := Option.isSome_iff_exists.1 c.data.tsNs
  have hpublished : (receive P.env r [c.event]).published.drop r.published.length = Router.dispatched P.env r c.event := by
    rw [receive_singleton, Setup.env, handleChange_data c.data]
    exact List.drop_left
  rw [routed, hpublished, Router.dispatched, subscriptionsOf_data c.data, hts]
  rcases getSubscribers_label (r.subscriber (P.elementType c.elem)) (P.label c.elem) with ⟨hnone, hempty⟩ | hsome
  · have hnot : ¬ Names P r c.elem := by rw [Names, hempty]; exact Finset.notMem_empty _
    rw [hnone, if_neg hnot]
    rfl
  · rw [hsome]
    by_cases hnames : Names P r c.elem
    · have hmem : P.query ∈ (r.subscriber (P.elementType c.elem)).subscribers (P.label c.elem) := hnames
      simp [namedOf, changeDispatchEvent, hnames, hmem]
    · have hmem : P.query ∉ (r.subscriber (P.elementType c.elem)).subscribers (P.label c.elem) := hnames
      simp [namedOf, changeDispatchEvent, hnames, hmem]

theorem namedOf_append (a b : List (Dispatched P Val)) : namedOf (a ++ b) = namedOf a ++ namedOf b := by
  rw [namedOf, List.filter_append, List.map_append, namedOf, namedOf]

theorem named_append (r : AppState) (a b : List (Message P Val)) :
    named r (a ++ b) = named r a ++ named (routerAfter r a) b := by
  induction a generalizing r with
  | nil => rfl
  | cons m a ih =>
    cases m with
    | change c => rw [List.cons_append, named, named, ih, routerAfter_cons, List.append_assoc]; rfl
    | control event h => rw [List.cons_append, named, named, ih, routerAfter_cons]; rfl

/-- the router takes a message: what it dispatches to the query moves on -/
theorem named_cons (r : AppState) (m : Message P Val) (topic : List (Message P Val)) :
    named r (m :: topic) = namedOf (routed r m) ++ named (receive P.env r [m.event]) topic := by
  cases m with
  | change c => rw [named, namedOf_routed]; rfl
  | control event h => rfl

/-- a dispatched change names the query to the query's node exactly when it names it -/
theorem mem_queriesOf (d : Dispatched P Val) : P.query.queryId ∈ queriesOf d ↔ P.query ∈ d.event.subscriptions := by
  rw [queriesOf, Multiset.mem_map]
  constructor
  · rintro ⟨p, hp, hid⟩
    obtain ⟨hmem, hnode⟩ := Multiset.mem_filter.1 hp
    have heq : p = P.query := by
      cases p
      cases hq : P.query
      simp_all
    exact heq ▸ hmem
  · intro h
    exact ⟨P.query, Multiset.mem_filter.2 ⟨h, rfl⟩, rfl⟩

theorem consumable_append (position : EntryId) (a b : List (Entry P Val)) :
    consumable position (a ++ b) = consumable position a ++ consumable position b := by
  rw [consumable, List.filter_append, List.map_append, consumable, consumable]

/-- a dispatched change that names the query stays under way when its entry stands above the position -/
theorem consumable_entryOf {position id : EntryId} {d : Dispatched P Val}
    (h : P.query ∈ d.event.subscriptions → position < id) : consumable position (entryOf id d) = namedOf [d] := by
  by_cases hnames : P.query ∈ d.event.subscriptions
  · have hqueries : P.query.queryId ∈ queriesOf d := (mem_queriesOf d).2 hnames
    have hne : queriesOf d ≠ 0 := by
      intro hzero
      rw [hzero] at hqueries
      exact Multiset.notMem_zero _ hqueries
    rw [entryOf, if_neg hne]
    simp [consumable, namedOf, h hnames, hqueries, hnames]
  · have hqueries : P.query.queryId ∉ queriesOf d := fun hq => hnames ((mem_queriesOf d).1 hq)
    rw [entryOf]
    split
    · simp [consumable, namedOf, hnames]
    · simp [consumable, namedOf, hqueries, hnames]

/-- two positions that leave the same entries to be read -/
theorem consumable_congr {position position' : EntryId} {l : List (Entry P Val)}
    (h : ∀ x ∈ l, position < x.id ↔ position' < x.id) : consumable position l = consumable position' l := by
  rw [consumable, consumable]
  congr 1
  refine List.filter_congr fun x hx => ?_
  simp only [h x hx]

theorem consumable_of_le {position : EntryId} {l : List (Entry P Val)} (h : ∀ x ∈ l, ¬ position < x.id) :
    consumable position l = [] := by
  rw [consumable, List.filter_eq_nil_iff.2]
  · rfl
  · intro x hx
    simp [h x hx]

/-- the next entry above a position: it comes first, and what is above it after it -/
theorem consumable_split {position : EntryId} {a b : List (Entry P Val)} {x : Entry P Val}
    (hsorted : (a ++ x :: b).Pairwise fun y z => y.id < z.id) (hx : position < x.id) :
    consumable position (a ++ x :: b) =
      consumable position a ++ (if P.query.queryId ∈ x.queries then [x.change] else []) ++
        consumable x.id (a ++ x :: b) := by
  obtain ⟨-, hxb, hax⟩ := List.pairwise_append.1 hsorted
  have hbelow : ∀ y ∈ a, ¬ x.id < y.id := fun y hy => (hax y hy x List.mem_cons_self).le.not_gt
  have habove : ∀ z ∈ b, x.id < z.id := (List.pairwise_cons.1 hxb).1
  have hself : consumable position [x] = if P.query.queryId ∈ x.queries then [x.change] else [] := by
    by_cases hquery : P.query.queryId ∈ x.queries <;> simp [consumable, hx, hquery]
  have hnone : consumable x.id [x] = [] := consumable_of_le fun y hy => by
    rw [List.mem_singleton.1 hy]
    exact lt_irrefl _
  have hrest : consumable position b = consumable x.id b :=
    consumable_congr fun z hz => ⟨fun _ => habove z hz, fun _ => hx.trans (habove z hz)⟩
  rw [← List.singleton_append, consumable_append, consumable_append, consumable_append, consumable_append, hself, hrest,
    consumable_of_le hbelow, hnone, List.nil_append, List.nil_append, List.append_assoc]

theorem lt_autoId (clock : ℕ) (top : EntryId) : top < autoId clock top := by
  rw [autoId]
  split
  · rename_i h
    exact Prod.Lex.lt_iff.2 (.inl h)
  · exact Prod.Lex.lt_iff.2 (.inr ⟨rfl, Nat.lt_succ_self _⟩)

/-- an id given after the clock read `ts` is not below `ts-0` -/
theorem le_autoId {ts clock : ℕ} (h : ts ≤ clock) (top : EntryId) : toLex (ts, 0) ≤ autoId clock top := by
  rw [autoId]
  split
  · rw [Prod.Lex.le_iff]
    rcases h.lt_or_eq with hlt | rfl
    · exact .inl hlt
    · exact .inr ⟨rfl, le_refl _⟩
  · rename_i htop
    rw [Prod.Lex.le_iff]
    rcases (h.trans (not_lt.1 htop)).lt_or_eq with hlt | heq
    · exact .inl hlt
    · exact .inr ⟨heq, Nat.zero_le _⟩

theorem le_topId {entries : List (Entry P Val)} (hsorted : entries.Pairwise fun a b => a.id < b.id) {x : Entry P Val}
    (hx : x ∈ entries) : x.id ≤ topId entries := by
  rcases List.eq_nil_or_concat entries with rfl | ⟨l, t, rfl⟩
  · cases hx
  · rw [List.concat_eq_append] at hx hsorted ⊢
    simp only [topId, List.getLast?_concat, Option.map_some, Option.getD_some]
    rcases List.mem_append.1 hx with hx | hx
    · exact ((List.pairwise_append.1 hsorted).2.2 x hx t (List.mem_singleton_self t)).le
    · rw [List.mem_singleton.1 hx]

end Routing

end DrasiPlatform.HandOver
