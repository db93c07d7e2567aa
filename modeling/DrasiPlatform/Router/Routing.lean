/-
Routing of data changes: to whom does the change router dispatch a change, after any sequence of subscriptions?

`receiveEach` processes control events one batch each, as the query-api publishes them. `Subscribed events e p label` says
that one of them subscribes the pair `p` to `label` for the element type `e` (node or relation).

- `mem_subscriber_history`: the label maps hold exactly this relation. Unsubscriptions take nothing out.
- `routed_exactly_iff`: a change goes to exactly the pairs that subscribed to one of its labels, each once, if and only if
  either EVERY label of it has a subscriber and no pair subscribed to two of them, or none of its labels has one.
Witness: `unknown_label_suppresses` (an unknown second label takes the change away from the subscriber of the first; a
subscriber of two of the labels is named twice).
-/
import Mathlib.Tactic
import DrasiPlatform.Router.ProcessChanges

namespace DrasiPlatform.Router

open Json

/-- the router after the control events `events`, each in a batch of its own as the query-api publishes them -/
def receiveEach (E : Env) (r : AppState) (events : List Value) : AppState :=
  events.foldl (fun r c => receive E r [c]) r

/-- the pairs the change `c` is dispatched to -/
def dispatchedTo (E : Env) (r : AppState) (c : Value) : Multiset Subscription :=
  (((receive E r [c]).published.drop r.published.length).map (·.subscriptions)).sum

/-- one of the events subscribes `p` to `label`, for the element type -/
def Subscribed (events : List Value) (e : ElementType) (p : Subscription) (label : String) : Prop :=
  ∃ c ∈ events, ∃ nodeLabels relLabels, IsSubscribe c p nodeLabels relLabels ∧ label ∈ e.pick nodeLabels relLabels

theorem IsSubscribe.unique {c : Value} {p p' : Subscription} {nl rl nl' rl' : List String}
    (h : IsSubscribe c p nl rl) (h' : IsSubscribe c p' nl' rl') : p = p' ∧ nl = nl' ∧ rl = rl' := by
  have hn := h.queryNodeId.symm.trans h'.queryNodeId
  have hq := h.queryId.symm.trans h'.queryId
  have hnl := h.nodeLabels.symm.trans h'.nodeLabels
  have hrl := h.relLabels.symm.trans h'.relLabels
  simp only [Option.some.injEq] at hn hq hnl hrl
  exact ⟨by cases p; cases p'; simp_all, hnl, hrl⟩

theorem IsUnsubscribe.not_subscribe {c : Value} {p p' : Subscription} {nl rl : List String} (h : IsUnsubscribe c p) :
    ¬ IsSubscribe c p' nl rl := by
  intro h'
  have := h.op.symm.trans h'.op
  simp at this

/-- a subscription or an unsubscription -/
def IsControlEvent (c : Value) : Prop := (∃ p nl rl, IsSubscribe c p nl rl) ∨ ∃ p, IsUnsubscribe c p

section Reliable

variable {sourceId traceparent : String}

/-- **The label maps hold every subscription ever made**: an unsubscription takes nothing out of them. -/
theorem mem_subscriber_receiveEach (events : List Value) (h : ∀ c ∈ events, IsControlEvent c) (r : AppState)
    (e : ElementType) (p : Subscription) (label : String) :
    p ∈ ((receiveEach (.reliable sourceId traceparent) r events).subscriber e).subscribers label ↔
      p ∈ (r.subscriber e).subscribers label ∨ Subscribed events e p label := by
  induction events generalizing r with
  | nil => simp [receiveEach, Subscribed]
  | cons c events ih =>
    have hcons : receiveEach (.reliable sourceId traceparent) r (c :: events) =
        receiveEach (.reliable sourceId traceparent) (receive (.reliable sourceId traceparent) r [c]) events := rfl
    have hsplit : Subscribed (c :: events) e p label ↔
        (∃ nl rl, IsSubscribe c p nl rl ∧ label ∈ e.pick nl rl) ∨ Subscribed events e p label := by
      simp only [Subscribed, List.mem_cons, exists_eq_or_imp]
    rw [hcons, ih fun c' h' => h c' (List.mem_cons_of_mem c h'), receive_singleton, hsplit, ← or_assoc]
    refine or_congr_left ?_
    rcases h c List.mem_cons_self with ⟨p', nl, rl, hc⟩ | ⟨p', hc⟩
    · rw [handleChange_subscribe hc]
      have hone : (∃ nl' rl', IsSubscribe c p nl' rl' ∧ label ∈ e.pick nl' rl') ↔ label ∈ e.pick nl rl ∧ p = p' := by
        constructor
        · rintro ⟨nl', rl', h', hl⟩
          obtain ⟨rfl, rfl, rfl⟩ := h'.unique hc
          exact ⟨hl, rfl⟩
        · rintro ⟨hl, rfl⟩; exact ⟨nl, rl, hc, hl⟩
      rw [hone]
      cases e <;> exact SubscriberMap.mem_subscribers_addLabels _ _ _ _ _ _
    · rw [handleChange_unsubscribe hc]
      have hnone : ¬ ∃ nl rl, IsSubscribe c p nl rl ∧ label ∈ e.pick nl rl := by
        rintro ⟨nl, rl, h', -⟩; exact hc.not_subscribe h'
      cases e <;> simp [AppState.subscriber, hnone]

/-- the label maps after a history of control events, from the empty router -/
theorem mem_subscriber_history (events : List Value) (h : ∀ c ∈ events, IsControlEvent c) (e : ElementType)
    (p : Subscription) (label : String) :
    p ∈ ((receiveEach (.reliable sourceId traceparent) .empty events).subscriber e).subscribers label ↔
      Subscribed events e p label := by
  rw [mem_subscriber_receiveEach events h]
  cases e <;> simp [AppState.subscriber, AppState.empty]

/-- a change is dispatched to what `get_subscribers_for_labels` answers, and to nobody when that is `None` -/
theorem dispatchedTo_data {c : Value} {e : ElementType} {labels : List String} (h : IsData c e labels) (r : AppState) :
    dispatchedTo (.reliable sourceId traceparent) r c =
      ((r.subscriber e).getSubscribersForLabels labels).getD 0 := by
  obtain ⟨tsNs, hts⟩ := Option.isSome_iff_exists.1 h.tsNs
  rw [dispatchedTo, receive_singleton, handleChange_data h]
  simp only [List.drop_left', dispatched, subscriptionsOf_data h, hts]
  cases (r.subscriber e).getSubscribersForLabels labels <;> simp [changeDispatchEvent]

/-! ## Exactness -/

/-- the change goes to exactly the pairs that subscribed to at least one of its labels, each once -/
def RoutedExactly (E : Env) (events : List Value) (c : Value) (e : ElementType) (labels : List String) : Prop :=
  (dispatchedTo E (receiveEach E .empty events) c).Nodup ∧
    ∀ p, p ∈ dispatchedTo E (receiveEach E .empty events) c ↔ ∃ label ∈ labels, Subscribed events e p label

/-- every label of the change has a subscriber, and no pair subscribed to two of the labels -/
def EachLabelItsOwn (events : List Value) (e : ElementType) (labels : List String) : Prop :=
  (∀ label ∈ labels, ∃ p, Subscribed events e p label) ∧
    labels.Pairwise fun label label' => ∀ p, Subscribed events e p label → ¬ Subscribed events e p label'

/-- **Routing exactness.** After any sequence of subscriptions, a change with any labels goes to exactly the pairs that
subscribed to at least one of them, each once, if and only if every label has a subscriber and no pair subscribed to two
of them, or none of the labels has a subscriber. -/
theorem routed_exactly_iff (events : List Value) (h : ∀ c ∈ events, ∃ p nl rl, IsSubscribe c p nl rl) (c : Value)
    (e : ElementType) (labels : List String) (hc : IsData c e labels) :
    RoutedExactly (.reliable sourceId traceparent) events c e labels ↔
      EachLabelItsOwn events e labels ∨ ∀ label ∈ labels, ∀ p, ¬ Subscribed events e p label := by
  have hctl : ∀ c ∈ events, IsControlEvent c := fun c hc => .inl (h c hc)
  set m := (receiveEach (.reliable sourceId traceparent) .empty events).subscriber e with hm
  have hsub : ∀ p label, p ∈ m.subscribers label ↔ Subscribed events e p label :=
    fun p label => mem_subscriber_history events hctl e p label
  have hknown : ∀ label, (m.subscribers label).Nonempty ↔ ∃ p, Subscribed events e p label := fun label => by
    simp only [Finset.Nonempty, hsub]
  unfold RoutedExactly
  rw [dispatchedTo_data hc, ← hm]
  by_cases hall : ∀ label ∈ labels, (m.subscribers label).Nonempty
  · -- every label is known: the answer is the sets one after the other, and it has no duplicate iff they are disjoint
    have hmem : ∀ p, p ∈ (labels : Multiset String).bind (fun l => (m.subscribers l).val) ↔
        ∃ label ∈ labels, Subscribed events e p label := fun p => by
      simp only [Multiset.mem_bind, Multiset.mem_coe, Finset.mem_val, hsub]
    rw [SubscriberMap.getSubscribersForLabels_known m labels hall, Option.getD_some, and_iff_left hmem]
    have hnodup : ((labels : Multiset String).bind fun l => (m.subscribers l).val).Nodup ↔
        labels.Pairwise fun l l' => ∀ p, Subscribed events e p l → ¬ Subscribed events e p l' := by
      rw [SubscriberMap.nodup_bind_subscribers]
      simp only [Finset.disjoint_left, hsub]
    rw [hnodup]
    constructor
    · intro hp; exact .inl ⟨fun l hl => (hknown l).1 (hall l hl), hp⟩
    · rintro (⟨-, hp⟩ | hnone)
      · exact hp
      · -- a known label of which no pair is a subscriber: there is no label at all
        have hnil : labels = [] := List.eq_nil_iff_forall_not_mem.2 fun l hl => by
          obtain ⟨p, hp⟩ := (hknown l).1 (hall l hl)
          exact hnone l hl p hp
        rw [hnil]; exact List.Pairwise.nil
  · -- one label is unknown: nothing is dispatched
    push Not at hall
    obtain ⟨label, hl, hempty⟩ := hall
    rw [SubscriberMap.getSubscribersForLabels_unknown m labels label hl hempty, Option.getD_none]
    have hun : ¬ ∃ p, Subscribed events e p label := by rw [← hknown, hempty]; simp
    constructor
    · rintro ⟨-, hp⟩
      exact .inr fun l' hl' p hs => absurd ((hp p).2 ⟨l', hl', hs⟩) (Multiset.notMem_zero p)
    · rintro (⟨hk, -⟩ | hnone)
      · exact absurd (hk label hl) hun
      · refine ⟨Multiset.nodup_zero, fun p => ⟨fun hp => absurd hp (Multiset.notMem_zero p), ?_⟩⟩
        rintro ⟨l', hl', hs⟩; exact absurd hs (hnone l' hl' p)

end Reliable

theorem routed_exactly_one_label :
    RoutedExactly (.reliable "shop" "") [subscribeEvent ⟨"c", "q"⟩ ["Item"] []] (insertEvent "node" ["Item"]) .node
      ["Item"] := by
  refine (routed_exactly_iff _ ?_ _ _ _ (isData_insertEvent_node _)).2 (.inl ⟨?_, List.pairwise_singleton _ _⟩)
  · simp only [List.mem_singleton, forall_eq]
    exact ⟨_, _, _, isSubscribe_subscribeEvent _ _ _⟩
  · simp only [List.mem_singleton, forall_eq]
    exact ⟨⟨"c", "q"⟩, _, List.mem_singleton_self _, _, _, isSubscribe_subscribeEvent _ _ _, List.mem_singleton_self _⟩

/-- **An unknown label suppresses the delivery, and two known labels duplicate it.** The query subscribed to `Item`: an
element labelled `Item` and `Draft` is not dispatched to it. It subscribed to `Item` and `Order`: an element with both
labels is dispatched to it twice. -/
theorem unknown_label_suppresses :
    IsSubscribe (subscribeEvent ⟨"c", "q"⟩ ["Item"] []) ⟨"c", "q"⟩ ["Item"] [] ∧
    IsData (insertEvent "node" ["Item", "Draft"]) .node ["Item", "Draft"] ∧
    ¬ RoutedExactly (.reliable "shop" "") [subscribeEvent ⟨"c", "q"⟩ ["Item"] []] (insertEvent "node" ["Item", "Draft"])
        .node ["Item", "Draft"] ∧
    ¬ RoutedExactly (.reliable "shop" "") [subscribeEvent ⟨"c", "q"⟩ ["Item", "Order"] []]
        (insertEvent "node" ["Item", "Order"]) .node ["Item", "Order"] := by
  refine ⟨isSubscribe_subscribeEvent _ _ _, isData_insertEvent_node _, ?_, ?_⟩
  · rintro ⟨-, h⟩
    have hsub : Subscribed [subscribeEvent ⟨"c", "q"⟩ ["Item"] []] .node ⟨"c", "q"⟩ "Item" :=
      ⟨_, List.mem_singleton_self _, _, _, isSubscribe_subscribeEvent _ _ _, List.mem_singleton_self _⟩
    have hmem := (h ⟨"c", "q"⟩).2 ⟨"Item", by simp, hsub⟩
    revert hmem
    decide
  · rintro ⟨h, -⟩
    revert h
    decide

end DrasiPlatform.Router
