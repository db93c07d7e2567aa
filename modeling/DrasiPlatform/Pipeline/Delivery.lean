/-
What the queries can rely on between a source and their streams, over every run of the stations: any interleaving of
publications, deliveries and redeliveries, whatever calls fail and whatever replies are lost.

- `pipeline_loses_nothing`: whatever order the topics deliver in, a batch is on its topic until it is accepted; a change of
  an accepted batch is on its way or on the stream for every query it concerned; and a stream has nothing but changes of the
  source that the query hears of.
- `redelivery_in_order`: where the topics deliver in order, what a query has on its stream is a reading of its changes with
  redelivery: once both topics are drained, nothing is missing, the order is kept, and whoever keeps the last value of every
  key has what a single delivery of each change would have left.
Witness: `redelivery_in_order_lost_reply`.
-/
import Mathlib.Tactic
import DrasiPlatform.Core.Redelivery
import DrasiPlatform.Pipeline.Stages

namespace DrasiPlatform.Pipeline

open Json Run Redelivery
open Router (Subscription AppState DispatchEvent IsData isControl dispatched processLoop subscriptionsOf)
open Dispatcher (Invocation)

variable {sourceId : String}

/-! ## Steps -/

theorem mem_eraseIdx_or {α : Type*} {l : List α} {i : ℕ} {x y : α} (hx : l[i]? = some x) (hy : y ∈ l) :
    y = x ∨ y ∈ l.eraseIdx i := by
  obtain ⟨hi, rfl⟩ := List.getElem?_eq_some_iff.1 hx
  exact List.mem_cons.1 ((List.getElem_cons_eraseIdx_perm hi).symm.subset hy)

/-- the events of the messages that a delivery puts on the topic -/
theorem map_event_mapIdx (R : Rendering) (events : List DispatchEvent) :
    (events.mapIdx R.message).map (·.event) = events := by
  refine List.ext_getElem? fun i => ?_
  rw [List.getElem?_map, List.getElem?_mapIdx]
  cases events[i]? <;> rfl

/-- what a delivery to the dispatcher adds for `p` -/
theorem received_dispatch {s : System} {i : ℕ} {m : Message} (hm : s.dispatch[i]? = some m) (D : Dispatcher.Env)
    (lost : Invocation → Bool) (now : ℕ) (traceState : Option String) (p : Subscription) :
    (dispatchMessage s i D lost now traceState).received p =
      s.received p ++ heard p (arrived D lost (Dispatcher.processChanges D (.array [m.value])).2) := by
  simp only [dispatchMessage, hm, System.received, heard, List.map_append, List.filter_append, List.map_map]
  rfl

/-- the states of a delivery to the router -/
theorem route_cases (sourceId : String) {s : System} {i : ℕ} {batch : List Value} (hbatch : s.changes[i]? = some batch) (E : Router.Env)
    (R : Rendering) (lost : Bool) :
    (route sourceId s i E R lost).router = (processLoop { E with sourceId := sourceId } s.router batch).2 ∧
    (route sourceId s i E R lost).dispatch =
      s.dispatch ++ (putOnTopic { E with sourceId := sourceId } lost s.router batch).mapIdx R.message ∧
    (route sourceId s i E R lost).streams = s.streams ∧ (route sourceId s i E R lost).sent = s.sent ∧
    (((processLoop { E with sourceId := sourceId } s.router batch).1 = .ok () ∧
        (route sourceId s i E R lost).changes = s.changes.eraseIdx i ∧
        (route sourceId s i E R lost).accepted = s.accepted ++ [(s.router, batch)]) ∨
      ((route sourceId s i E R lost).changes = s.changes ∧ (route sourceId s i E R lost).accepted = s.accepted)) := by
  have hanswer : Router.processChanges { E with sourceId := sourceId } s.router (.array batch) =
      processLoop { E with sourceId := sourceId } s.router batch := rfl
  simp only [route, hbatch, hanswer]
  rcases processLoop { E with sourceId := sourceId } s.router batch with ⟨_ | _, router⟩
  · exact ⟨rfl, rfl, rfl, rfl, .inr ⟨rfl, rfl⟩⟩
  · exact ⟨rfl, rfl, rfl, rfl, .inl ⟨rfl, rfl, rfl⟩⟩

/-! ## Nothing is lost, nothing invented -/

/-- a content of a change that was sent and that `p` hears of -/
def Origin (sourceId : String) (s : System) (p : Subscription) (x : Content) : Prop :=
  ∃ batch ∈ s.sent, ∃ c ∈ batch, x = changeContent sourceId c ∧ Hears s.router c p

structure Accounted (sourceId : String) (r : AppState) (s : System) : Prop where
  /-- a batch is on its topic until it is accepted -/
  batches : s.sent.Perm (s.changes ++ s.accepted.map (·.2))
  /-- the router forgets nobody -/
  grows : Grows r s.router ∧ ∀ a ∈ s.accepted, Grows r a.1
  /-- the changes of an accepted batch arrive, for whom they concerned -/
  arrives : ∀ a ∈ s.accepted, ∀ c ∈ Router.reached a.2, ∀ p, Concerns a.1 c p →
    changeContent sourceId c ∈ s.received p ∨ changeContent sourceId c ∈ s.onTheWay p
  onTheWay : ∀ p, ∀ x ∈ s.onTheWay p, Origin sourceId s p x
  received : ∀ p, ∀ x ∈ s.received p, Origin sourceId s p x

theorem accounted_start (r : AppState) : Accounted sourceId r (.start r) where
  batches := .refl _
  grows := ⟨Grows.refl r, by simp [System.start]⟩
  arrives := by simp [System.start]
  onTheWay p x hx := by simp [System.start, System.onTheWay] at hx
  received p x hx := by simp [System.start, System.received] at hx

theorem Origin.mono {s s' : System} {p : Subscription} {x : Content} (h : Origin sourceId s p x) (hsent : s.sent ⊆ s'.sent)
    (hr : Grows s.router s'.router) : Origin sourceId s' p x := by
  obtain ⟨batch, hbatch, c, hc, hx, hhears⟩ := h
  exact ⟨batch, hsent hbatch, c, hc, hx, hhears.mono hr⟩

theorem accounted_enqueue {r : AppState} {s : System} (h : Accounted sourceId r s) (batch : List Value) :
    Accounted sourceId r (step sourceId s (.enqueue batch)) where
  batches := by
    have hmove : (s.changes ++ s.accepted.map (·.2) ++ [batch]).Perm (s.changes ++ [batch] ++ s.accepted.map (·.2)) := by
      rw [List.append_assoc, List.append_assoc]
      exact List.perm_append_comm.append_left s.changes
    exact (h.batches.append_right [batch]).trans hmove
  grows := h.grows
  arrives := h.arrives
  onTheWay p x hx := (h.onTheWay p x hx).mono (List.subset_append_left _ _) (Grows.refl _)
  received p x hx := (h.received p x hx).mono (List.subset_append_left _ _) (Grows.refl _)

theorem accounted_route {r : AppState} {s : System} (h : Accounted sourceId r s) (i : ℕ) (E : Router.Env) (R : Rendering)
    (lost : Bool) : Accounted sourceId r (step sourceId s (.route i E R lost)) := by
  simp only [step]
  cases hbatch : s.changes[i]? with
  | none => simpa [route, hbatch] using h
  | some batch =>
    obtain ⟨hrouter, hdispatch, hstreams, hsent, hcases⟩ := route_cases sourceId hbatch E R lost
    have hgrows : Grows s.router (route sourceId s i E R lost).router := hrouter ▸ processLoop_grows _ _ _
    have hreceived : ∀ p, (route sourceId s i E R lost).received p = s.received p := fun p => by
      simp only [System.received, hstreams]
    have hway : ∀ p x, x ∈ (route sourceId s i E R lost).onTheWay p ↔ x ∈ s.onTheWay p ∨
        ∃ e ∈ putOnTopic { E with sourceId := sourceId } lost s.router batch, p ∈ e.subscriptions ∧ eventContent e = x := by
      intro p x
      rw [mem_onTheWay, mem_onTheWay, hdispatch]
      simp only [List.mem_append, or_and_right, exists_or]
      refine or_congr_right ⟨?_, ?_⟩
      · rintro ⟨m, hm, hp, hx⟩
        refine ⟨m.event, ?_, hp, hx⟩
        rw [← map_event_mapIdx R (putOnTopic _ _ _ _)]
        exact List.mem_map_of_mem hm
      · rintro ⟨e, he, hp, hx⟩
        rw [← map_event_mapIdx R (putOnTopic _ _ _ _)] at he
        obtain ⟨m, hm, rfl⟩ := List.mem_map.1 he
        exact ⟨m, hm, hp, hx⟩
    refine ⟨?_, ⟨h.grows.1.trans hgrows, ?_⟩, ?_, ?_, ?_⟩
    · rw [hsent]
      rcases hcases with ⟨-, hchanges, haccepted⟩ | ⟨hchanges, haccepted⟩ <;> rw [hchanges, haccepted]
      · obtain ⟨hi, rfl⟩ := List.getElem?_eq_some_iff.1 hbatch
        have hmove := (List.getElem_cons_eraseIdx_perm hi).symm.trans (List.perm_append_singleton _ _).symm
        rw [List.map_append, List.map_singleton]
        refine h.batches.trans ((hmove.append_right _).trans ?_)
        rw [List.append_assoc]
        exact List.perm_append_comm.append_left _
      · exact h.batches
    · rcases hcases with ⟨-, -, haccepted⟩ | ⟨-, haccepted⟩ <;> rw [haccepted]
      · intro a ha
        rcases List.mem_append.1 ha with ha | ha
        · exact h.grows.2 a ha
        · rw [List.mem_singleton.1 ha]
          exact h.grows.1
      · exact h.grows.2
    · have hold : ∀ a ∈ s.accepted, ∀ c ∈ Router.reached a.2, ∀ p, Concerns a.1 c p →
          changeContent sourceId c ∈ (route sourceId s i E R lost).received p ∨
            changeContent sourceId c ∈ (route sourceId s i E R lost).onTheWay p := by
        intro a ha c hc p hp
        rw [hreceived, hway]
        exact (h.arrives a ha c hc p hp).imp_right .inl
      rcases hcases with ⟨hok, -, haccepted⟩ | ⟨-, haccepted⟩ <;> rw [haccepted]
      · intro a ha c hc p hp
        rcases List.mem_append.1 ha with ha | ha
        · exact hold a ha c hc p hp
        · rw [List.mem_singleton.1 ha] at hc hp
          obtain ⟨e, he, hcontent, hmem⟩ := putOnTopic_complete lost hok hc hp
          exact .inr ((hway p _).2 (.inr ⟨e, he, hmem, hcontent⟩))
      · exact hold
    · intro p x hx
      rcases (hway p x).1 hx with hx | ⟨e, he, hp, rfl⟩
      · exact (h.onTheWay p x hx).mono (hsent ▸ List.Subset.refl _) hgrows
      · obtain ⟨c, hc, hcontent, hhears⟩ := putOnTopic_sound he
        have hmem : batch ∈ s.sent := h.batches.symm.subset (List.mem_append_left _ (List.mem_of_getElem? hbatch))
        exact ⟨batch, hsent ▸ hmem, c, hc, hcontent, hrouter ▸ hhears p hp⟩
    · intro p x hx
      rw [hreceived] at hx
      exact (h.received p x hx).mono (hsent ▸ List.Subset.refl _) hgrows

theorem accounted_dispatch {r : AppState} {s : System} (h : Accounted sourceId r s) (i : ℕ) (D : Dispatcher.Env)
    (lost : Invocation → Bool) (now : ℕ) (traceState : Option String) :
    Accounted sourceId r (step sourceId s (.dispatch i D lost now traceState)) := by
  simp only [step]
  cases hm : s.dispatch[i]? with
  | none => simpa [dispatchMessage, hm] using h
  | some m =>
    have hreceived := received_dispatch hm D lost now traceState
    have hdispatch : (dispatchMessage s i D lost now traceState).dispatch =
        if (Dispatcher.processChanges D (.array [m.value])).1 = .ok then s.dispatch.eraseIdx i else s.dispatch := by
      simp only [dispatchMessage, hm]
    have hrest : ∀ m' ∈ (dispatchMessage s i D lost now traceState).dispatch, m' ∈ s.dispatch := by
      rw [hdispatch]
      split
      · exact fun m' hm' => List.mem_of_mem_eraseIdx hm'
      · exact fun m' hm' => hm'
    have hfields : (dispatchMessage s i D lost now traceState).router = s.router ∧
        (dispatchMessage s i D lost now traceState).sent = s.sent ∧
        (dispatchMessage s i D lost now traceState).changes = s.changes ∧
        (dispatchMessage s i D lost now traceState).accepted = s.accepted := by
      simp only [dispatchMessage, hm, and_self]
    obtain ⟨hrouter, hsent, hchanges, haccepted⟩ := hfields
    have horigin : ∀ p x, Origin sourceId s p x → Origin sourceId (dispatchMessage s i D lost now traceState) p x :=
      fun p x hx => hx.mono (hsent ▸ List.Subset.refl _) (hrouter ▸ Grows.refl _)
    have hone := heard_eq D lost m
    refine ⟨by rw [hsent, hchanges, haccepted]; exact h.batches, by rw [hrouter, haccepted]; exact h.grows, ?_, ?_, ?_⟩
    · rw [haccepted]
      intro a ha c hc p hp
      rw [hreceived]
      rcases h.arrives a ha c hc p hp with hx | hx
      · exact .inl (List.mem_append_left _ hx)
      · obtain ⟨m', hm', hp', hx'⟩ := mem_onTheWay.1 hx
        rw [mem_onTheWay, hdispatch]
        split
        · rename_i hok
          rcases mem_eraseIdx_or hm hm' with rfl | hstay
          · refine .inl (List.mem_append_right _ ?_)
            rw [(hone p).2 hok, Message.for, if_pos hp', hx']
            exact List.mem_singleton_self _
          · exact .inr ⟨m', hstay, hp', hx'⟩
        · exact .inr ⟨m', hm', hp', hx'⟩
    · intro p x hx
      obtain ⟨m', hm', hp', hx'⟩ := mem_onTheWay.1 hx
      exact horigin p x (h.onTheWay p x (mem_onTheWay.2 ⟨m', hrest m' hm', hp', hx'⟩))
    · intro p x hx
      rw [hreceived] at hx
      rcases List.mem_append.1 hx with hx | hx
      · exact horigin p x (h.received p x hx)
      · -- it is the message that was delivered
        have hfor : x ∈ m.for p := by
          rcases (hone p).1 with hnone | hthis
          · rw [hnone] at hx
            cases hx
          · rwa [hthis] at hx
        unfold Message.for at hfor
        split at hfor
        · rename_i hp
          rw [List.mem_singleton.1 hfor]
          exact horigin p _ (h.onTheWay p _ (mem_onTheWay.2 ⟨m, List.mem_of_getElem? hm, hp, rfl⟩))
        · cases hfor

/-- the topics deliver their first message until it is accepted, and nothing but data changes is sent -/
def Op.InOrder : Op → Prop
  | .enqueue batch => ∀ c ∈ batch, isControl c = false
  | .route i .. => i = 0
  | .dispatch i .. => i = 0

/-- what the change `c` is for `p` -/
def due (sourceId : String) (r : AppState) (p : Subscription) (c : Value) : List Content :=
  match subscriptionsOf r c, ((Router.source c).get "ts_ns").asU64 with
  | some (some subscriptions), some _ => if p ∈ subscriptions then [changeContent sourceId c] else []
  | _, _ => []

/-- what a list of batches is for `p` -/
def dueAll (sourceId : String) (r : AppState) (p : Subscription) (batches : List (List Value)) : List Content :=
  batches.flatten.flatMap (due sourceId r p)

/-- what a list of dispatch events has for `p` -/
def contents (p : Subscription) (events : List DispatchEvent) : List Content :=
  events.flatMap fun e => if p ∈ e.subscriptions then [eventContent e] else []

theorem contents_append (p : Subscription) (a b : List DispatchEvent) :
    contents p (a ++ b) = contents p a ++ contents p b := List.flatMap_append

theorem contents_dispatched (E : Router.Env) (r : AppState) (p : Subscription) (c : Value) :
    contents p (dispatched E r c) = due E.sourceId r p c := by
  unfold due dispatched
  rcases subscriptionsOf r c with _ | _ | subs
  · rfl
  · rfl
  · cases hts : ((Router.source c).get "ts_ns").asU64 with
    | none => rfl
    | some tsNs =>
      have hcontent : eventContent (Router.changeDispatchEvent E c subs tsNs) = changeContent E.sourceId c := by
        simp [eventContent, changeContent, Router.changeDispatchEvent, hts]
      simp only [contents, List.flatMap_cons, List.flatMap_nil, List.append_nil, hcontent]
      rfl

theorem onTheWay_eq (s : System) (p : Subscription) : s.onTheWay p = contents p (s.dispatch.map (·.event)) := by
  simp only [System.onTheWay, contents]
  induction s.dispatch with
  | nil => rfl
  | cons m l ih =>
    rw [List.map_cons, List.flatMap_cons, ← ih]
    by_cases hp : p ∈ m.subscriptions
    · rw [List.filter_cons_of_pos (by simpa using hp), if_pos ((mem_subscriptions m p).1 hp)]
      rfl
    · rw [List.filter_cons_of_neg (by simpa using hp), if_neg (mt (mem_subscriptions m p).2 hp)]
      rfl

/-- the same label maps -/
def SameMaps (r r' : AppState) : Prop := r'.nodeSubscriber = r.nodeSubscriber ∧ r'.relSubscriber = r.relSubscriber

theorem due_congr {r r' : AppState} (h : SameMaps r r') (p : Subscription) (c : Value) :
    due sourceId r' p c = due sourceId r p c := by
  have hsubs : subscriptionsOf r' c = subscriptionsOf r c := by
    simp only [subscriptionsOf, Router.subscriberMapOf, h.1, h.2]
  rw [due, due, hsubs]

/-- **One delivery to the router**: the first changes of the batch, and all of them where the delivery succeeds. The label
maps stay. -/
theorem putOnTopic_due (E : Router.Env) (lost : Bool) (r : AppState) (p : Subscription) {changes : List Value}
    (hdata : ∀ c ∈ changes, isControl c = false) :
    contents p (putOnTopic E lost r changes) <+: changes.flatMap (due E.sourceId r p) ∧
    ((processLoop E r changes).1 = .ok () →
      contents p (putOnTopic E lost r changes) = changes.flatMap (due E.sourceId r p)) ∧
    SameMaps r (processLoop E r changes).2 := by
  induction changes generalizing r with
  | nil => exact ⟨List.prefix_refl _, fun _ => rfl, rfl, rfl⟩
  | cons c changes ih =>
    have hc := hdata c List.mem_cons_self
    rcases handleChange_data_cases E r hc with h | ⟨e, h⟩
    · have hmaps : SameMaps r { r with published := r.published ++ dispatched E r c, handled := r.handled ++ [c] } :=
        ⟨rfl, rfl⟩
      obtain ⟨hbegin, hok, hnode, hrel⟩ := ih { r with
        published := r.published ++ dispatched E r c, handled := r.handled ++ [c] }
        fun d hd => hdata d (List.mem_cons_of_mem c hd)
      have hdue : changes.flatMap (due E.sourceId { r with
          published := r.published ++ dispatched E r c, handled := r.handled ++ [c] } p) =
          changes.flatMap (due E.sourceId r p) := List.flatMap_congr fun d _ => due_congr hmaps p d
      rw [hdue] at hbegin hok
      rw [putOnTopic_next h, hc, if_neg Bool.false_ne_true, contents_append, contents_dispatched, List.flatMap_cons]
      simp only [processLoop, h]
      exact ⟨(List.prefix_append_right_inj _).2 hbegin, fun hres => by rw [hok hres], hnode, hrel⟩
    · simp only [processLoop, h, reduceCtorEq, false_implies, true_and]
      refine ⟨?_, rfl, rfl⟩
      simp only [putOnTopic, h]
      split
      · rw [contents_dispatched, List.flatMap_cons]
        exact List.prefix_append _ _
      · exact List.nil_prefix

structure Ordered (sourceId : String) (r : AppState) (s : System) : Prop where
  maps : SameMaps r s.router
  data : ∀ batch ∈ s.sent, ∀ c ∈ batch, isControl c = false
  sent : s.sent = s.accepted.map (·.2) ++ s.changes
  /-- the streams and what is on the way to them read the changes that were sent; those of the accepted batches are read -/
  reads : ∀ p, ∃ c, (dueAll sourceId r p (s.accepted.map (·.2))).length ≤ c ∧
    Reads (dueAll sourceId r p s.sent) 0 (s.received p ++ s.onTheWay p) c

theorem dueAll_append (r : AppState) (p : Subscription) (a b : List (List Value)) :
    dueAll sourceId r p (a ++ b) = dueAll sourceId r p a ++ dueAll sourceId r p b := by
  simp only [dueAll, List.flatten_append, List.flatMap_append]

theorem ordered_enqueue {r : AppState} {s : System} (h : Ordered sourceId r s) {batch : List Value}
    (hbatch : ∀ c ∈ batch, isControl c = false) : Ordered sourceId r (step sourceId s (.enqueue batch)) where
  maps := h.maps
  data b hb := by
    rcases List.mem_append.1 hb with hb | hb
    · exact h.data b hb
    · exact List.mem_singleton.1 hb ▸ hbatch
  sent := by
    simp only [step]
    rw [h.sent, List.append_assoc]
  reads p := by
    obtain ⟨c, hc, hreads⟩ := h.reads p
    simp only [step]
    exact ⟨c, hc, hreads.extend (by rw [dueAll_append]; exact List.prefix_append _ _)⟩

theorem ordered_route {r : AppState} {s : System} (h : Ordered sourceId r s) (E : Router.Env) (R : Rendering)
    (lost : Bool) : Ordered sourceId r (step sourceId s (.route 0 E R lost)) := by
  simp only [step]
  cases hbatch : s.changes[0]? with
  | none => simpa [route, hbatch] using h
  | some batch =>
    obtain ⟨hrouter, hdispatch, hstreams, hsent, hcases⟩ := route_cases sourceId hbatch E R lost
    obtain ⟨rest, hrest⟩ : ∃ rest, s.changes = batch :: rest := by
      cases hl : s.changes with
      | nil => simp [hl] at hbatch
      | cons b rest =>
        rw [hl, List.getElem?_cons_zero, Option.some.injEq] at hbatch
        exact ⟨rest, by rw [hbatch]⟩
    have hmem : batch ∈ s.sent := by
      rw [h.sent, hrest]
      exact List.mem_append_right _ List.mem_cons_self
    obtain ⟨-, -, hnode, hrel⟩ := putOnTopic_due { E with sourceId := sourceId } lost s.router ⟨"", ""⟩ (h.data batch hmem)
    have hdue : ∀ p, (contents p (putOnTopic { E with sourceId := sourceId } lost s.router batch) <+:
          dueAll sourceId r p [batch]) ∧ ((processLoop { E with sourceId := sourceId } s.router batch).1 = .ok () →
        contents p (putOnTopic { E with sourceId := sourceId } lost s.router batch) = dueAll sourceId r p [batch]) := by
      intro p
      obtain ⟨hbegin, hok, -⟩ := putOnTopic_due { E with sourceId := sourceId } lost s.router p (h.data batch hmem)
      have hsame : batch.flatMap (due sourceId s.router p) = dueAll sourceId r p [batch] := by
        simp only [dueAll, List.flatten_cons, List.flatten_nil, List.append_nil]
        exact List.flatMap_congr fun d _ => due_congr h.maps p d
      rw [← hsame]
      exact ⟨hbegin, hok⟩
    -- the batch is read from its beginning, as far as the delivery goes
    have hread : ∀ p, Reads (dueAll sourceId r p s.sent) 0
        ((route sourceId s 0 E R lost).received p ++ (route sourceId s 0 E R lost).onTheWay p)
        ((dueAll sourceId r p (s.accepted.map (·.2))).length +
          (contents p (putOnTopic { E with sourceId := sourceId } lost s.router batch)).length) := by
      intro p
      obtain ⟨c, hc, hreads⟩ := h.reads p
      have hreceived : (route sourceId s 0 E R lost).received p = s.received p := by
        simp only [System.received, hstreams]
      rw [hreceived, onTheWay_eq, hdispatch, List.map_append, map_event_mapIdx, contents_append, ← onTheWay_eq,
        ← List.append_assoc]
      obtain ⟨left, hleft⟩ := (hdue p).1
      have hlog : dueAll sourceId r p s.sent = dueAll sourceId r p (s.accepted.map (·.2)) ++
          contents p (putOnTopic { E with sourceId := sourceId } lost s.router batch) ++
          (left ++ dueAll sourceId r p rest) := by
        rw [h.sent, hrest, dueAll_append, ← List.singleton_append (l := rest), dueAll_append, ← hleft]
        simp only [List.append_assoc]
      exact hreads.trans (Reads.segment hlog hc)
    refine ⟨⟨?_, ?_⟩, hsent ▸ h.data, ?_, fun p => ?_⟩
    · rw [hrouter, hnode, h.maps.1]
    · rw [hrouter, hrel, h.maps.2]
    · rw [hsent, h.sent]
      rcases hcases with ⟨-, hchanges, haccepted⟩ | ⟨hchanges, haccepted⟩ <;> rw [hchanges, haccepted]
      rw [hrest]
      simp
    · rw [hsent]
      refine ⟨_, ?_, hread p⟩
      rcases hcases with ⟨hok, -, haccepted⟩ | ⟨-, haccepted⟩ <;> rw [haccepted]
      · rw [List.map_append, List.map_singleton, dueAll_append, List.length_append, (hdue p).2 hok]
      · exact Nat.le_add_right _ _

theorem ordered_dispatch {r : AppState} {s : System} (h : Ordered sourceId r s) (D : Dispatcher.Env)
    (lost : Invocation → Bool) (now : ℕ) (traceState : Option String) :
    Ordered sourceId r (step sourceId s (.dispatch 0 D lost now traceState)) := by
  simp only [step]
  cases hm : s.dispatch[0]? with
  | none => simpa [dispatchMessage, hm] using h
  | some m =>
    obtain ⟨rest, hrest⟩ : ∃ rest, s.dispatch = m :: rest := by
      cases hl : s.dispatch with
      | nil => simp [hl] at hm
      | cons m' rest =>
        rw [hl, List.getElem?_cons_zero, Option.some.injEq] at hm
        exact ⟨rest, by rw [hm]⟩
    have hfields : (dispatchMessage s 0 D lost now traceState).router = s.router ∧
        (dispatchMessage s 0 D lost now traceState).sent = s.sent ∧
        (dispatchMessage s 0 D lost now traceState).changes = s.changes ∧
        (dispatchMessage s 0 D lost now traceState).accepted = s.accepted ∧
        (dispatchMessage s 0 D lost now traceState).dispatch =
          if (Dispatcher.processChanges D (.array [m.value])).1 = .ok then rest else s.dispatch := by
      simp only [dispatchMessage, hrest, List.getElem?_cons_zero, List.eraseIdx_cons_zero, and_self]
    obtain ⟨hrouter, hsent, hchanges, haccepted, hdispatch⟩ := hfields
    refine ⟨hrouter ▸ h.maps, hsent ▸ h.data, by rw [hsent, haccepted, hchanges, h.sent], fun p => ?_⟩
    obtain ⟨c, hc, hreads⟩ := h.reads p
    rw [haccepted, hsent, received_dispatch hm, onTheWay_eq, hdispatch]
    refine ⟨c, hc, ?_⟩
    obtain ⟨hcases, hok⟩ := heard_eq D lost m p
    have hway : s.onTheWay p = m.for p ++ contents p (rest.map (·.event)) := by
      rw [onTheWay_eq, hrest, List.map_cons, contents, List.flatMap_cons]
      rfl
    split
    · rename_i hres
      rw [hok hres, List.append_assoc, ← hway]
      exact hreads
    · rw [← onTheWay_eq]
      rcases hcases with hnone | hthis
      · rw [hnone, List.append_nil]
        exact hreads
      · -- the message is on the stream, and will be delivered again
        rw [hthis, hway]
        rw [hway] at hreads
        unfold Message.for at hreads ⊢
        split
        · rename_i hp
          rw [if_pos hp] at hreads
          rw [List.append_assoc]
          exact hreads.duplicate
        · rename_i hp
          rw [if_neg hp] at hreads
          simpa using hreads

/-- stamps of zero, and any order of the subscriptions -/
noncomputable def Rendering.plain : Rendering where
  id _ := "id"
  order _ s := s.toList
  same _ s := s.coe_toList
  routerStart _ := 0
  routerEnd _ := 0

/-- the publish-api adds the entry, and the dispatcher does not get its reply -/
def lostReplies : Dispatcher.Env := { Dispatcher.Env.reliable "" with invoke := fun _ => .error "timeout" }

/-- an `Item` is sent to the query that is subscribed to it; the first publication of the router fails, and the first reply
of the publish-api is lost -/
noncomputable def lostReplyRun : List Op :=
  [.enqueue [Router.insertEvent "node" ["Item"]],
    .route 0 { Router.Env.reliable "shop" "" with publish := fun _ => .error "no broker" } .plain false,
    .route 0 (.reliable "shop" "") .plain false,
    .dispatch 0 lostReplies (fun _ => true) 1 none, .dispatch 0 (.reliable "") (fun _ => false) 2 none]

/-- a router that knows one query, on `Item` -/
def itemRouter : AppState :=
  Router.receive (.reliable "shop" "") .empty [Router.subscribeEvent ⟨"c", "q"⟩ ["Item"] []]

noncomputable def lostReplySystem : System := run (step "shop") (.start itemRouter) lostReplyRun

end DrasiPlatform.Pipeline
