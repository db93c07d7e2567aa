/-
Unsubscription in the change router: after the `d` event of a pair has been processed, is anything still dispatched to the
pair, and do the other pairs keep their deliveries?

The run is a list of batches, each with the answers of its remote calls (`Batch`), from any router state. The `d` event
stands in a batch `xs ++ d :: ys` whose loop gets through `xs` (`GoesThrough`), and its `delete_state` succeeds.

- `handleChange_alike`: one turn of the loop looks only at the label maps, never at the store. So the run goes on as if
  the unsubscription had not been there: NO delivery changes, to the pair or to any other.
- `handleChange_remembers`: what a pair is subscribed to in memory stays the same until it subscribes again.
- `unsubscription_takes_effect_iff`: for a `d` event at the end of its batch, nothing is ever dispatched to the pair again
  (until it subscribes) and the others keep their deliveries, if and only if the pair is in no label set in memory.
- `restart_forgets_unsubscribed`: the unsubscription takes effect at the next start of the router.
Witness: `unsubscribed_still_served` (a subscription to `Item`, the unsubscription, an `Item`: it is dispatched; and in
one batch, the unsubscription takes the change behind it away from another query).
-/
import Mathlib.Tactic
import DrasiPlatform.Core.Run
import DrasiPlatform.Router.Restart

namespace DrasiPlatform.Router

open Json Run

/-! ## Model -/

/-- a batch as the pub/sub hands it to the router, with the answers of the remote calls made for it -/
structure Batch where
  env : Env
  changes : List Value

def Batch.step (r : AppState) (b : Batch) : AppState := receive b.env r b.changes

/-- an `i` event of the pair, also one whose label arrays are missing -/
def Resubscribes (c : Value) (p : Subscription) : Prop :=
  isControl c = true ∧ (op c).asStr = some "i" ∧ ((after c).get "queryNodeId").asStr = some p.queryNodeId ∧
    ((after c).get "queryId").asStr = some p.queryId

/-- the loop gets through the events: none of them returns from the batch -/
def GoesThrough (E : Env) (r : AppState) : List Value → Prop
  | [] => True
  | c :: cs => (handleChange E r c).1 = .next ∧ GoesThrough E (handleChange E r c).2 cs

/-- what `q` gets of the published events: each event that names it, with its own entries only -/
def deliveries (q : Subscription) (events : List DispatchEvent) : List DispatchEvent :=
  (events.filter fun ev => q ∈ ev.subscriptions).map fun ev =>
    { ev with subscriptions := ev.subscriptions.filter (· = q) }

/-- the unsubscription `d` of `p`, processed in the batch `xs ++ d :: ys`, takes effect in the run that goes on with
`later`: nothing published after it names `p`, and every other pair gets what it gets without `d` -/
structure TakesEffect (E : Env) (r : AppState) (xs : List Value) (d : Value) (ys : List Value) (p : Subscription)
    (later : List Batch) : Prop where
  silent : ∀ ev ∈ (run Batch.step (receive E r (xs ++ d :: ys)) later).published.drop
    (receive E r (xs ++ d :: ys)).published.length, p ∉ ev.subscriptions
  others : ∀ q ≠ p, deliveries q (run Batch.step (receive E r (xs ++ d :: ys)) later).published =
    deliveries q (run Batch.step (receive E r (xs ++ ys)) later).published

/-- the unsubscription takes effect, whatever the run goes on with until the pair subscribes again -/
def Unsubscribes (E : Env) (r : AppState) (xs : List Value) (d : Value) (ys : List Value) (p : Subscription) : Prop :=
  ∀ later : List Batch, (∀ b ∈ later, ∀ c ∈ b.changes, ¬ Resubscribes c p) → TakesEffect E r xs d ys p later

/-! ## The loop -/

theorem processLoop_goesThrough {E : Env} {r : AppState} {xs : List Value} (h : GoesThrough E r xs) (ys : List Value) :
    processLoop E r (xs ++ ys) = processLoop E (receive E r xs) ys := by
  induction xs generalizing r with
  | nil => rfl
  | cons c cs ih =>
    obtain ⟨hc, hcs⟩ := h
    rcases he : handleChange E r c with ⟨flow, r'⟩
    rw [he] at hc hcs
    subst hc
    rw [List.cons_append, processLoop, he, receive_eq, processLoop, he]
    exact ih hcs

/-- what every turn of the loop keeps, the batch keeps -/
theorem receive_inv {E : Env} {P : AppState → Prop} {cs : List Value}
    (h : ∀ r, ∀ c ∈ cs, P r → P (handleChange E r c).2) (r : AppState) (hr : P r) : P (receive E r cs) := by
  rw [receive_eq]
  induction cs generalizing r with
  | nil => exact hr
  | cons c cs ih =>
    have hturn := h r c List.mem_cons_self hr
    rw [processLoop]
    rcases he : handleChange E r c with ⟨_ | res, r'⟩ <;> rw [he] at hturn
    · exact ih (fun r'' c' hc' => h r'' c' (List.mem_cons_of_mem c hc')) r' hturn
    · exact hturn

/-! ## The store is not read -/

/-- the same label maps and the same published events; the store and the log may differ -/
structure Alike (r r' : AppState) : Prop where
  node : r.nodeSubscriber = r'.nodeSubscriber
  rel : r.relSubscriber = r'.relSubscriber
  published : r.published = r'.published

theorem Alike.refl (r : AppState) : Alike r r := ⟨rfl, rfl, rfl⟩

theorem handleControl_alike {r r' : AppState} (h : Alike r r') (E : Env) (c : Value) :
    (handleControl E r c).1 = (handleControl E r' c).1 ∧ Alike (handleControl E r c).2 (handleControl E r' c).2 := by
  obtain ⟨hn, hr, hp⟩ := h
  unfold handleControl
  split
  · unfold handleInsert
    split; · exact ⟨rfl, hn, hr, hp⟩
    split; · exact ⟨rfl, hn, hr, hp⟩
    split; · exact ⟨rfl, hn, hr, hp⟩
    simp only [hn]
    split; · exact ⟨rfl, rfl, hr, hp⟩
    simp only [hr]
    split <;> exact ⟨rfl, rfl, rfl, hp⟩
  · unfold handleDelete
    split; · exact ⟨rfl, hn, hr, hp⟩
    split; · exact ⟨rfl, hn, hr, hp⟩
    split <;> exact ⟨rfl, hn, hr, hp⟩
  · exact ⟨rfl, hn, hr, hp⟩

theorem handleData_alike {r r' : AppState} (h : Alike r r') (E : Env) (c : Value) :
    (handleData E r c).1 = (handleData E r' c).1 ∧ Alike (handleData E r c).2 (handleData E r' c).2 := by
  have hsub : subscriptionsOf r c = subscriptionsOf r' c := by
    simp only [subscriptionsOf, subscriberMapOf, h.node, h.rel]
  unfold handleData
  rw [hsub]
  split; · exact ⟨rfl, h⟩
  · exact ⟨rfl, h⟩
  split; · exact ⟨rfl, h⟩
  simp only [h.published]
  split
  · exact ⟨rfl, h.node, h.rel, rfl⟩
  · exact ⟨rfl, h⟩

/-- **One turn looks only at the label maps.** -/
theorem handleChange_alike {r r' : AppState} (h : Alike r r') (E : Env) (c : Value) :
    (handleChange E r c).1 = (handleChange E r' c).1 ∧ Alike (handleChange E r c).2 (handleChange E r' c).2 := by
  unfold handleChange
  have h' : Alike { r with handled := r.handled ++ [c] } { r' with handled := r'.handled ++ [c] } := ⟨h.1, h.2, h.3⟩
  by_cases hc : isControl c = true
  · simp only [hc, if_true]; exact handleControl_alike h' E c
  · simp only [hc]; exact handleData_alike h' E c

theorem receive_alike {r r' : AppState} (h : Alike r r') (E : Env) (cs : List Value) :
    Alike (receive E r cs) (receive E r' cs) := by
  rw [receive_eq, receive_eq]
  induction cs generalizing r r' with
  | nil => exact h
  | cons c cs ih =>
    obtain ⟨hflow, hstate⟩ := handleChange_alike h E c
    rw [processLoop, processLoop]
    rcases he : handleChange E r c with ⟨flow, r₁⟩
    rcases he' : handleChange E r' c with ⟨flow', r₁'⟩
    rw [he, he'] at hflow hstate
    obtain rfl : flow = flow' := hflow
    cases flow with
    | next => exact ih hstate
    | ret res => exact hstate

theorem run_alike {r r' : AppState} (h : Alike r r') (later : List Batch) :
    Alike (run Batch.step r later) (run Batch.step r' later) := by
  induction later generalizing r r' with
  | nil => exact h
  | cons b later ih => exact ih (receive_alike h b.env b.changes)

/-! ## What a turn can do -/

/-- a subscription adds labels of the pair it names to the maps; with a missing label array to fewer of them or to none -/
theorem handleInsert_state (E : Env) (r : AppState) (c : Value) :
    (handleInsert E r c).2 = r ∨ ∃ (p : Subscription) (nodeLabels relLabels : List String) (store : _),
      ((after c).get "queryNodeId").asStr = some p.queryNodeId ∧ ((after c).get "queryId").asStr = some p.queryId ∧
      (handleInsert E r c).2 = { r with
        nodeSubscriber := r.nodeSubscriber.addLabels nodeLabels p.queryNodeId p.queryId
        relSubscriber := r.relSubscriber.addLabels relLabels p.queryNodeId p.queryId
        store := store } := by
  unfold handleInsert
  split; · exact .inl rfl
  rename_i nodeLabels _
  split; · exact .inl rfl
  rename_i queryNodeId hn
  split; · exact .inl rfl
  rename_i queryId hq
  right
  dsimp only
  split
  · exact ⟨⟨queryNodeId, queryId⟩, nodeLabels, [], r.store, hn, hq, rfl⟩
  · rename_i relLabels _
    split
    · exact ⟨⟨queryNodeId, queryId⟩, nodeLabels, relLabels, _, hn, hq, rfl⟩
    · exact ⟨⟨queryNodeId, queryId⟩, nodeLabels, relLabels, r.store, hn, hq, rfl⟩

/-- an unsubscription touches the store only -/
theorem handleDelete_state (E : Env) (r : AppState) (c : Value) :
    ∃ store, (handleDelete E r c).2 = { r with store := store } := by
  unfold handleDelete
  split; · exact ⟨r.store, rfl⟩
  split; · exact ⟨r.store, rfl⟩
  split
  · exact ⟨_, rfl⟩
  · exact ⟨r.store, rfl⟩

/-- a data change publishes at most one event, to what the label map answers -/
theorem handleData_state (E : Env) (r : AppState) (c : Value) :
    (handleData E r c).2 = r ∨ ∃ subs tsNs, subscriptionsOf r c = some (some subs) ∧
      (handleData E r c).2 = { r with published := r.published ++ [changeDispatchEvent E c subs tsNs] } := by
  unfold handleData
  split; · exact .inl rfl
  · exact .inl rfl
  rename_i subs hsubs
  split; · exact .inl rfl
  rename_i tsNs _
  dsimp only
  split
  · exact .inr ⟨subs, tsNs, hsubs, rfl⟩
  · exact .inl rfl

/-- **What one turn can do**, the log apart: add labels of the pair that an `i` event names, change the store, or publish
one event to the answer of a label map. -/
theorem handleChange_state (E : Env) (r : AppState) (c : Value) :
    (∃ p nodeLabels relLabels store handled, Resubscribes c p ∧ (handleChange E r c).2 = { r with
      nodeSubscriber := r.nodeSubscriber.addLabels nodeLabels p.queryNodeId p.queryId
      relSubscriber := r.relSubscriber.addLabels relLabels p.queryNodeId p.queryId
      store := store, handled := handled }) ∨
    (∃ store handled, (handleChange E r c).2 = { r with store := store, handled := handled }) ∨
    ∃ subs tsNs handled, subscriptionsOf r c = some (some subs) ∧ (handleChange E r c).2 = { r with
      published := r.published ++ [changeDispatchEvent E c subs tsNs], handled := handled } := by
  unfold handleChange
  by_cases hctl : isControl c = true
  · simp only [hctl, if_true]
    unfold handleControl
    split
    · rename_i hop
      rcases handleInsert_state E { r with handled := r.handled ++ [c] } c with h | ⟨p, nl, rl, store, hn, hq, h⟩
      · exact .inr (.inl ⟨r.store, _, h⟩)
      · exact .inl ⟨p, nl, rl, store, _, ⟨hctl, hop, hn, hq⟩, h⟩
    · obtain ⟨store, h⟩ := handleDelete_state E { r with handled := r.handled ++ [c] } c
      exact .inr (.inl ⟨store, _, h⟩)
    · exact .inr (.inl ⟨r.store, _, rfl⟩)
  · simp only [hctl]
    rcases handleData_state E { r with handled := r.handled ++ [c] } c with h | ⟨subs, tsNs, hsubs, h⟩
    · exact .inr (.inl ⟨r.store, _, h⟩)
    · exact .inr (.inr ⟨subs, tsNs, _, hsubs, h⟩)

/-! ## What a pair is subscribed to in memory -/

/-- what `p` is subscribed to in memory is `held` -/
def Remembers (p : Subscription) (held : ElementType → String → Prop) (r : AppState) : Prop :=
  ∀ e label, p ∈ (r.subscriber e).subscribers label ↔ held e label

/-- **A turn leaves what `p` is subscribed to**, unless it is a subscription of `p`: in particular the turn of its
unsubscription does. -/
theorem handleChange_remembers {c : Value} {p : Subscription} (hc : ¬ Resubscribes c p)
    {held : ElementType → String → Prop} {r : AppState} (h : Remembers p held r) (E : Env) :
    Remembers p held (handleChange E r c).2 := by
  rcases handleChange_state E r c with ⟨q, nl, rl, _, _, hq, hs⟩ | ⟨_, _, hs⟩ | ⟨_, _, _, -, hs⟩
  · have hne : p ≠ ⟨q.queryNodeId, q.queryId⟩ := by
      rintro rfl
      exact hc hq
    have hadd : ∀ (map : SubscriberMap) (labels : List String) (label : String),
        p ∈ (map.addLabels labels q.queryNodeId q.queryId).subscribers label ↔ p ∈ map.subscribers label := by
      intro map labels label
      rw [SubscriberMap.mem_subscribers_addLabels, or_iff_left fun h => hne h.2]
    rw [hs]
    rintro (_ | _) label
    · exact (hadd _ _ label).trans (h .node label)
    · exact (hadd _ _ label).trans (h .rel label)
  · rw [hs]; exact fun e label => h e label
  · rw [hs]; exact fun e label => h e label

/-! ## What is published -/

theorem mem_getSubscribersForLabels {m : SubscriberMap} {labels : List String} {subs : Multiset Subscription}
    (h : m.getSubscribersForLabels labels = some subs) {p : Subscription} (hp : p ∈ subs) :
    ∃ label ∈ labels, p ∈ m.subscribers label := by
  by_cases hall : ∀ label ∈ labels, (m.subscribers label).Nonempty
  · rw [SubscriberMap.getSubscribersForLabels_known m labels hall, Option.some.injEq] at h
    subst h
    simpa using hp
  · push Not at hall
    obtain ⟨label, hl, he⟩ := hall
    rw [SubscriberMap.getSubscribersForLabels_unknown m labels label hl he] at h
    cases h

/-- a change is matched against one of the two label maps -/
theorem mem_subscriptionsOf {r : AppState} {c : Value} {subs : Multiset Subscription}
    (h : subscriptionsOf r c = some (some subs)) {p : Subscription} (hp : p ∈ subs) :
    ∃ e label, p ∈ (r.subscriber e).subscribers label := by
  have hmap : ∀ m, subscriberMapOf r c = some m → ∃ e, m = r.subscriber e := by
    intro m hm
    unfold subscriberMapOf at hm
    split at hm
    · exact ⟨.node, (Option.some.inj hm).symm⟩
    · split at hm
      · exact ⟨.rel, (Option.some.inj hm).symm⟩
      · cases hm
  unfold subscriptionsOf at h
  split at h
  · simp at h
  · rename_i m hm
    obtain ⟨e, rfl⟩ := hmap m hm
    rcases hl : changeLabels c with _ | _ | labels <;> rw [hl] at h
    · simp at h
    · simp at h
    · obtain ⟨label, -, hmem⟩ := mem_getSubscribersForLabels (Option.some.inj h) hp
      exact ⟨e, label, hmem⟩

/-- `p` is in no label set, and nothing published behind the first `n` events names it -/
structure Unheard (p : Subscription) (n : ℕ) (r : AppState) : Prop where
  absent : Remembers p (fun _ _ => False) r
  past : n ≤ r.published.length
  silent : ∀ ev ∈ r.published.drop n, p ∉ ev.subscriptions

theorem handleChange_unheard {c : Value} {p : Subscription} (hc : ¬ Resubscribes c p) {n : ℕ} {r : AppState}
    (h : Unheard p n r) (E : Env) : Unheard p n (handleChange E r c).2 := by
  refine ⟨handleChange_remembers hc h.absent E, ?_, ?_⟩
  all_goals
    rcases handleChange_state E r c with ⟨_, _, _, _, _, -, hs⟩ | ⟨_, _, hs⟩ | ⟨subs, _, _, hsubs, hs⟩ <;> rw [hs]
  · exact h.past
  · exact h.past
  · exact h.past.trans (by simp)
  · exact h.silent
  · exact h.silent
  · -- the event goes to pairs of the label maps, and `p` is not one of them
    intro ev hev hp
    rw [List.drop_append_of_le_length h.past, List.mem_append, List.mem_singleton] at hev
    rcases hev with hev | rfl
    · exact h.silent ev hev hp
    · obtain ⟨e, label, hmem⟩ := mem_subscriptionsOf hsubs hp
      exact (h.absent e label).1 hmem

theorem run_unheard {p : Subscription} {n : ℕ} {later : List Batch}
    (hl : ∀ b ∈ later, ∀ c ∈ b.changes, ¬ Resubscribes c p) {r : AppState} (h : Unheard p n r) :
    Unheard p n (run Batch.step r later) := by
  induction later generalizing r with
  | nil => exact h
  | cons b later ih =>
    refine ih (fun b' hb' => hl b' (List.mem_cons_of_mem b hb')) (receive_inv ?_ r h)
    intro r' c hc h'
    exact handleChange_unheard (hl b List.mem_cons_self c hc) h' b.env

/-! ## Unsubscription -/

/-- the turn of an unsubscription whose `delete_state` succeeds: the record goes, the batch is left -/
theorem handleChange_unsubscribe_ok {E : Env} {d : Value} {p : Subscription} (hd : IsUnsubscribe d p)
    (hok : E.deleteState (stateKey p.queryNodeId p.queryId) = .ok ()) (r : AppState) :
    handleChange E r d = (.ret (.ok ()),
      { r with store := r.store.erase (stateKey p.queryNodeId p.queryId), handled := r.handled ++ [d] }) := by
  simp [handleChange, hd.control, handleControl, hd.op, handleDelete, hd.queryNodeId, hd.queryId, hok]

/-- the batch up to the unsubscription, and the unsubscription -/
theorem receive_unsubscribe {E : Env} {r : AppState} {xs : List Value} (hx : GoesThrough E r xs) {d : Value}
    {p : Subscription} (hd : IsUnsubscribe d p) (hok : E.deleteState (stateKey p.queryNodeId p.queryId) = .ok ())
    (ys : List Value) :
    receive E r (xs ++ d :: ys) = { receive E r xs with
      store := (receive E r xs).store.erase (stateKey p.queryNodeId p.queryId)
      handled := (receive E r xs).handled ++ [d] } := by
  rw [receive_eq, processLoop_goesThrough hx, processLoop, handleChange_unsubscribe_ok hd hok]

theorem isData_insertEvent (e : ElementType) (labels : List String) : IsData (insertEvent e.table labels) e labels := by
  cases e <;> exact ⟨rfl, rfl, congrArg (Option.map some) (Value.labels_ofStrings labels), rfl⟩

/-- an element of the label is dispatched to every pair subscribed to it -/
theorem dispatched_insertEvent {r : AppState} {e : ElementType} {label : String} {p : Subscription}
    (h : p ∈ (r.subscriber e).subscribers label) (sourceId traceparent : String) :
    ∃ ev ∈ dispatched (.reliable sourceId traceparent) r (insertEvent e.table [label]), p ∈ ev.subscriptions := by
  have hdata := isData_insertEvent e [label]
  obtain ⟨tsNs, hts⟩ := Option.isSome_iff_exists.1 hdata.tsNs
  have hknown : ∀ l ∈ [label], ((r.subscriber e).subscribers l).Nonempty := by
    simp only [List.mem_singleton, forall_eq]
    exact ⟨p, h⟩
  simp only [dispatched, subscriptionsOf_data hdata, SubscriberMap.getSubscribersForLabels_known _ _ hknown, hts,
    List.mem_singleton, exists_eq_left, changeDispatchEvent]
  simpa using h

/-- **Unsubscription takes effect exactly for pairs without a label.** In every run of the router, from any state and
through any batches with any answers of the remote calls: after the `d` event of `p`, the last of its batch, has been
processed successfully, nothing is dispatched to `p` until it subscribes again, and every other pair gets what it gets
without the unsubscription, if and only if `p` is in no label set in memory when the event is processed. -/
theorem unsubscription_takes_effect_iff (E : Env) (r : AppState) (xs : List Value) (d : Value) (p : Subscription)
    (hx : GoesThrough E r xs) (hd : IsUnsubscribe d p)
    (hok : E.deleteState (stateKey p.queryNodeId p.queryId) = .ok ()) :
    Unsubscribes E r xs d [] p ↔ ∀ e label, p ∉ ((receive E r xs).subscriber e).subscribers label := by
  have hafter := receive_unsubscribe hx hd hok []
  constructor
  · -- an element with the label, once the event has been processed, goes to `p`
    intro h e label hmem
    have hdata := isData_insertEvent e [label]
    have hnot : ∀ b ∈ [(⟨.reliable "" "", [insertEvent e.table [label]]⟩ : Batch)],
        ∀ c ∈ b.changes, ¬ Resubscribes c p := by
      simp only [List.mem_singleton, forall_eq]
      intro hr
      exact absurd (hdata.data.symm.trans hr.1) (by decide)
    have hsilent := (h _ hnot).silent
    rw [hafter, run_cons, run_nil, Batch.step, receive_singleton, handleChange_data hdata] at hsilent
    obtain ⟨ev, hev, hp⟩ := dispatched_insertEvent
      (r := { receive E r xs with
        store := (receive E r xs).store.erase (stateKey p.queryNodeId p.queryId)
        handled := (receive E r xs).handled ++ [d] }) (e := e) hmem "" ""
    exact hsilent ev (by simpa using hev) hp
  · intro h later hl
    constructor
    · have hstart : Unheard p (receive E r xs).published.length (receive E r (xs ++ [d])) := by
        rw [hafter]
        exact ⟨fun e label => iff_false_intro (h e label), le_rfl, by simp⟩
      have hlen : (receive E r (xs ++ [d])).published.length = (receive E r xs).published.length := by rw [hafter]
      rw [hlen]
      exact (run_unheard hl hstart).silent
    · intro q _
      have halike : Alike (receive E r (xs ++ [d])) (receive E r (xs ++ [])) := by
        rw [hafter, List.append_nil]
        exact ⟨rfl, rfl, rfl⟩
      rw [(run_alike halike later).published]

theorem unsubscription_takes_effect_unknown_pair :
    Unsubscribes (.reliable "shop" "") .empty [insertEvent "node" ["Item"]] (unsubscribeEvent ⟨"c", "q"⟩) []
      ⟨"c", "q"⟩ := by
  refine (unsubscription_takes_effect_iff _ _ _ _ _ ?_ (isUnsubscribe_unsubscribeEvent _) rfl).2 ?_
  · refine ⟨?_, trivial⟩
    rw [handleChange_data (isData_insertEvent_node _)]
  · intro e label
    rw [receive_singleton, handleChange_data (isData_insertEvent_node _)]
    cases e <;> simp [AppState.subscriber, AppState.empty]

/-- **An unsubscribed query is still served.** The query subscribed to `Item` and unsubscribes: the next `Item` is
dispatched to it. And when the change stands behind the unsubscription in one batch, another query that subscribed to
`Item` does not get it. -/
theorem unsubscribed_still_served :
    IsUnsubscribe (unsubscribeEvent ⟨"c", "q"⟩) ⟨"c", "q"⟩ ∧
    ¬ Unsubscribes (.reliable "shop" "")
        (receiveEach (.reliable "shop" "") .empty [subscribeEvent ⟨"c", "q"⟩ ["Item"] []])
        [] (unsubscribeEvent ⟨"c", "q"⟩) [] ⟨"c", "q"⟩ ∧
    ¬ Unsubscribes (.reliable "shop" "")
        (receiveEach (.reliable "shop" "") .empty [subscribeEvent ⟨"c", "q'"⟩ ["Item"] []])
        [] (unsubscribeEvent ⟨"c", "q"⟩) [insertEvent "node" ["Item"]] ⟨"c", "q"⟩ := by
  refine ⟨isUnsubscribe_unsubscribeEvent _, ?_, ?_⟩
  · intro h
    have hnot : ∀ b ∈ [(⟨.reliable "shop" "", [insertEvent "node" ["Item"]]⟩ : Batch)],
        ∀ c ∈ b.changes, ¬ Resubscribes c ⟨"c", "q"⟩ := by
      simp only [List.mem_singleton, forall_eq]
      intro hr
      exact absurd hr.1 (by decide)
    have hs := (h _ hnot).silent
    revert hs
    decide
  · intro h
    have ho := congrArg List.length ((h [] (by simp)).others ⟨"c", "q'"⟩ (by decide))
    revert ho
    decide

/-- **The unsubscription takes effect at the next start**: after any history of control events that ends with it, the
pair is in no label set of the maps rebuilt from the store. -/
theorem restart_forgets_unsubscribed {sourceId traceparent : String} (events : List Value)
    (h : ∀ c ∈ events, IsControlEvent c) (d : Value) (p : Subscription) (hd : IsUnsubscribe d p) (e : ElementType)
    (label : String) :
    p ∉ ((startUp (receiveEach (.reliable sourceId traceparent) .empty (events ++ [d])).store).subscriber e).subscribers
      label := by
  have hall : ∀ c ∈ events ++ [d], IsControlEvent c := by
    intro c hc
    rcases List.mem_append.1 hc with hc | hc
    · exact h c hc
    · rw [List.mem_singleton.1 hc]; exact .inr ⟨p, hd⟩
  rw [mem_startUp_history _ hall]
  rintro ⟨c, nl, rl, hlast, hsub, -⟩
  -- `d` has the key of every subscription of the pair, so it is the last event with that key
  rw [lastWithKey_concat, hsub.eventKey, hd.eventKey, if_pos rfl, Option.some.injEq] at hlast
  subst hlast
  exact hd.not_subscribe hsub

end DrasiPlatform.Router
