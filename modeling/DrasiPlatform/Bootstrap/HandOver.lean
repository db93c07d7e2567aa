/-
The hand-over from a query's snapshot to its change stream.

Of every element, the changes under way to the index are the consumable entries of the stream, the dispatched events that
name the query, what the router will still dispatch to it, and the backlog of the reactivator. While there are any, the
last of them has the element's value at the source (`Flow`); when there is none, the proxy's window and the index have it
(`HandedOver`). The one way out is the position of the consumer group: it is created at `startTimestamp-0`, and a group
reads what is ABOVE its position, so the entry with exactly this id is never read.

- `step_flow`, `step_handedOver`: every step keeps the two invariants, unless it appends a change for the query under that
  id.
- `no_change_lost`: in every legal run without such a step, once all messages are drained the index has for every
  subscribed element the value at the source.
Witnesses: `crossingRun_handed_over` (a value in the snapshot and on the stream, another one behind it),
`first_entry_is_skipped` (start, subscription, snapshot and change in one millisecond).
-/
import Mathlib.Tactic
import DrasiPlatform.Core.Run
import DrasiPlatform.Bootstrap.SourcePipeline

namespace DrasiPlatform.HandOver

open Json Router ChangeStream Run

variable {Elem Val : Type} {P : Setup Elem} [DecidableEq Elem]

/-! ## Changes of one element -/

def changesOf (e : Elem) (l : List (Change P Val)) : List (Change P Val) := l.filter fun c => c.elem = e

/-- the last of the changes, if any, has the value -/
def LastIs (l : List (Change P Val)) (x : Option Val) : Prop := ∀ c ∈ l.getLast?, c.value = x

/-- the changes that the router has not seen -/
def State.upstream (s : State P Val) : List (Change P Val) := s.topic.filterMap Message.change? ++ s.backlog

/-- the changes that the router has dispatched to the query -/
def State.sent (s : State P Val) : List (Change P Val) := consumable .zero s.entries ++ namedOf s.dispatch

/-- the changes under way to the index, for a group at the position -/
def State.pending (s : State P Val) (position : EntryId) : List (Change P Val) :=
  consumable position s.entries ++ namedOf s.dispatch ++ named s.router s.topic ++ s.backlog

/-- the entries have increasing ids above `0` -/
structure Flow (s : State P Val) : Prop where
  sorted : s.entries.Pairwise fun a b => a.id < b.id
  positive : ∀ x ∈ s.entries, EntryId.zero < x.id
  visible : ∀ e, LastIs (changesOf e s.upstream) (s.store e)
  sent : ∀ e, changesOf e s.upstream = [] → LastIs (changesOf e s.sent) (s.store e)
  named : ∀ e, changesOf e s.sent ≠ [] → Names P s.router e

section Lists

variable {e : Elem} {l l' : List (Change P Val)} {c : Change P Val} {x : Option Val}

theorem changesOf_append (e : Elem) (l l' : List (Change P Val)) :
    changesOf e (l ++ l') = changesOf e l ++ changesOf e l' :=
  List.filter_append ..

theorem changesOf_singleton_self (c : Change P Val) : changesOf c.elem [c] = [c] := by simp [changesOf]

theorem changesOf_singleton_of_ne (h : c.elem ≠ e) : changesOf e [c] = [] := by simp [changesOf, h]

theorem elem_of_mem_changesOf (h : c ∈ changesOf e l) : c.elem = e := by simpa using (List.mem_filter.1 h).2

omit [DecidableEq Elem] in
theorem lastIs_nil (x : Option Val) : LastIs ([] : List (Change P Val)) x := fun c hc => by cases hc

omit [DecidableEq Elem] in
theorem lastIs_concat : LastIs (l ++ [c]) x ↔ c.value = x := by simp [LastIs]

omit [DecidableEq Elem] in
theorem lastIs_append (hl' : l' ≠ []) : LastIs (l ++ l') x ↔ LastIs l' x := by
  rw [LastIs, LastIs, List.getLast?_append_of_ne_nil _ hl']

omit [DecidableEq Elem] in
/-- a non-empty end of the changes has the same last one -/
theorem LastIs.of_suffix (h : LastIs l x) (hs : l' <:+ l) : LastIs l' x := by
  obtain ⟨a, rfl⟩ := hs
  rcases l' with _ | ⟨c, l'⟩
  · exact lastIs_nil x
  · exact (lastIs_append (List.cons_ne_nil _ _)).1 h

theorem changesOf_eq_nil_of_append (h : changesOf e (l ++ l') = []) : changesOf e l = [] ∧ changesOf e l' = [] := by
  rw [changesOf_append] at h
  exact List.append_eq_nil_iff.1 h

/-- a named element: the router dispatches all its changes -/
theorem changesOf_named {r : AppState} (h : Names P r e) (topic : List (Message P Val)) :
    changesOf e (named r topic) = changesOf e (topic.filterMap Message.change?) := by
  induction topic generalizing r with
  | nil => rfl
  | cons m topic ih =>
    have hlater := ih (names_receive m h)
    cases m with
    | control event hc => exact hlater
    | change c =>
      have hcons : (Message.change c :: topic).filterMap Message.change? = [c] ++ topic.filterMap Message.change? := rfl
      rw [named, hcons, changesOf_append, changesOf_append]
      refine congrArg₂ _ ?_ hlater
      by_cases hce : c.elem = e
      · rw [if_pos (hce ▸ h)]
      · rw [changesOf_singleton_of_ne hce]
        split
        · exact changesOf_singleton_of_ne hce
        · rfl

end Lists

/-! ## The flow -/

section FlowSteps

variable {s : State P Val} {c : Change P Val}

theorem Flow.commit (h : Flow s) (c : Change P Val) : Flow (step s (.commit c)) := by
  have hup : (step s (.commit c)).upstream = s.upstream ++ [c] := (List.append_assoc ..).symm
  refine ⟨h.sorted, h.positive, fun e => ?_, fun e hnil => ?_, h.named⟩
  · rw [hup, changesOf_append]
    by_cases he : c.elem = e
    · subst he
      have hstore : (step s (.commit c)).store c.elem = c.value := Function.update_self _ _ _
      rw [changesOf_singleton_self, lastIs_concat, hstore]
    · rw [changesOf_singleton_of_ne he, List.append_nil]
      have hstore : (step s (.commit c)).store e = s.store e := Function.update_of_ne (Ne.symm he) _ _
      rw [hstore]
      exact h.visible e
  · rw [hup] at hnil
    obtain ⟨hnil, hc⟩ := changesOf_eq_nil_of_append hnil
    have he : c.elem ≠ e := by
      rintro rfl
      rw [changesOf_singleton_self] at hc
      cases hc
    have hstore : (step s (.commit c)).store e = s.store e := Function.update_of_ne (Ne.symm he) _ _
    rw [hstore]
    exact h.sent e hnil

/-- the same changes in front of the router and behind it, in other places -/
theorem Flow.of_eq {s' : State P Val} (h : Flow s) (hentries : s'.entries = s.entries) (hup : s'.upstream = s.upstream)
    (hsent : s'.sent = s.sent) (hstore : s'.store = s.store) (hnames : ∀ e, Names P s.router e → Names P s'.router e) :
    Flow s' := by
  refine ⟨hentries ▸ h.sorted, hentries ▸ h.positive, fun e => ?_, fun e hnil => ?_, fun e hne => ?_⟩
  · rw [hup, hstore]
    exact h.visible e
  · rw [hup] at hnil
    rw [hsent, hstore]
    exact h.sent e hnil
  · rw [hsent] at hne
    exact hnames e (h.named e hne)

theorem Flow.enqueue (h : Flow s) : Flow (step s .enqueue) := by
  cases hb : s.backlog with
  | nil =>
    have hstep : step s .enqueue = s := by rw [step, hb]
    rw [hstep]
    exact h
  | cons c backlog =>
    have hstep : step s .enqueue = { s with backlog := backlog, topic := s.topic ++ [.change c] } := by rw [step, hb]
    rw [hstep]
    refine h.of_eq rfl ?_ rfl rfl fun e he => he
    rw [State.upstream, State.upstream, hb, List.filterMap_append, List.append_assoc]
    rfl

theorem Flow.control (h : Flow s) (m : Message P Val) (hm : m.change? = none) :
    Flow { s with topic := s.topic ++ [m] } := by
  refine h.of_eq rfl ?_ rfl rfl fun e he => he
  have hnone : [m].filterMap Message.change? = [] := by simp [hm]
  rw [State.upstream, State.upstream, List.filterMap_append, hnone, List.append_nil]

/-- a change that the router drops or dispatches -/
theorem Flow.of_route_change {s' : State P Val} (h : Flow s) (hup : s.upstream = c :: s'.upstream)
    (hsent : s'.sent = s.sent ++ if Names P s.router c.elem then [c] else []) (hstore : s'.store = s.store)
    (hentries : s'.entries = s.entries) (hrouter : s'.router = receive P.env s.router [c.event]) : Flow s' := by
  have hvisible (e : Elem) : LastIs (changesOf e [c] ++ changesOf e s'.upstream) (s.store e) := by
    rw [← changesOf_append, List.singleton_append, ← hup]
    exact h.visible e
  refine ⟨hentries ▸ h.sorted, hentries ▸ h.positive, fun e => ?_, fun e hnil => ?_, fun e hne => ?_⟩
  · rw [hstore]
    exact (hvisible e).of_suffix (List.suffix_append _ _)
  · rw [hsent, hstore, changesOf_append]
    by_cases he : c.elem = e
    · subst he
      split
      · have hlast := hvisible c.elem
        rw [hnil, List.append_nil] at hlast
        rw [changesOf_singleton_self] at hlast ⊢
        exact lastIs_concat.2 (hlast c rfl)
      · rename_i hnot
        have hnone : changesOf c.elem s.sent = [] := by
          by_contra hne
          exact hnot (h.named c.elem hne)
        rw [hnone]
        exact lastIs_nil _
    · have hsame : changesOf e (if Names P s.router c.elem then [c] else []) = [] := by
        split
        · exact changesOf_singleton_of_ne he
        · rfl
      rw [hsame, List.append_nil]
      refine h.sent e ?_
      rw [hup, ← List.singleton_append, changesOf_append, changesOf_singleton_of_ne he, hnil]
      rfl
  · rw [hrouter, names_receive_change]
    by_cases hs : changesOf e s.sent = []
    · rw [hsent, changesOf_append, hs, List.nil_append] at hne
      split at hne
      · rename_i hnames
        obtain ⟨d, hd⟩ := List.exists_mem_of_ne_nil _ hne
        have he := elem_of_mem_changesOf hd
        obtain rfl := List.mem_singleton.1 (List.mem_filter.1 hd).1
        exact he ▸ hnames
      · exact absurd rfl hne
    · exact h.named e hs

theorem Flow.route (h : Flow s) : Flow (step s .route) := by
  cases htopic : s.topic with
  | nil =>
    have hstep : step s .route = s := by rw [step, htopic]
    rw [hstep]
    exact h
  | cons m topic =>
    have hstep : step s .route = { s with
        topic := topic
        router := receive P.env s.router [m.event]
        dispatch := s.dispatch ++ routed s.router m } := by rw [step, htopic]
    rw [hstep]
    cases m with
    | change c =>
      refine h.of_route_change (c := c) ?_ ?_ rfl rfl rfl
      · rw [State.upstream, htopic]
        rfl
      · rw [State.sent, State.sent, namedOf_append, namedOf_routed, List.append_assoc]
    | control event hc =>
      refine h.of_eq rfl ?_ ?_ rfl fun e he => names_receive (Message.control event hc : Message P Val) he
      · rw [State.upstream, State.upstream, htopic]
        rfl
      · rw [State.sent, State.sent, routed, List.append_nil]

theorem zero_le_topId (h : Flow s) : EntryId.zero ≤ topId s.entries := by
  rw [topId]
  cases hlast : s.entries.getLast? with
  | none => exact le_refl _
  | some x => exact (h.positive x (List.mem_of_getLast? hlast)).le

/-- a dispatched event becomes an entry above all others -/
theorem Flow.dispatch (h : Flow s) : Flow (step s .dispatch) := by
  cases hd : s.dispatch with
  | nil =>
    have hstep : step s .dispatch = s := by rw [step, hd]
    rw [hstep]
    exact h
  | cons d dispatch =>
    have hstep : step s .dispatch = { s with dispatch := dispatch, entries := s.entries ++ entryOf s.nextId d } := by
      rw [step, hd]
    have hid : topId s.entries < s.nextId := lt_autoId _ _
    have hzero : EntryId.zero < s.nextId := (zero_le_topId h).trans_lt hid
    have hentry : ∀ x ∈ entryOf s.nextId d, x.id = s.nextId := by
      intro x hx
      rw [entryOf] at hx
      split at hx
      · cases hx
      · rw [List.mem_singleton.1 hx]
    have hsent :
        (consumable .zero (s.entries ++ entryOf s.nextId d) ++ namedOf dispatch : List (Change P Val)) = s.sent := by
      rw [State.sent, hd, consumable_append, consumable_entryOf fun _ => hzero, List.append_assoc, ← namedOf_append]
      rfl
    rw [hstep]
    refine ⟨?_, ?_, h.visible, fun e hnil => ?_, fun e hne => ?_⟩
    · refine List.pairwise_append.2 ⟨h.sorted, ?_, fun a ha b hb => ?_⟩
      · rw [entryOf]
        split
        · exact .nil
        · exact List.pairwise_singleton _ _
      · rw [hentry b hb]
        exact (le_topId h.sorted ha).trans_lt hid
    · intro x hx
      rcases List.mem_append.1 hx with hx | hx
      · exact h.positive x hx
      · rw [hentry x hx]
        exact hzero
    · rw [State.sent, hsent]
      exact h.sent e hnil
    · rw [State.sent, hsent] at hne
      exact h.named e hne

/-- **Every step keeps the flow.** -/
theorem step_flow (h : Flow s) (o : Op P Val) : Flow (step s o) := by
  cases o with
  | commit c => exact h.commit c
  | enqueue => exact h.enqueue
  | control event hc => exact h.control (.control event hc) rfl
  | route => exact h.route
  | dispatch => exact h.dispatch
  | tick => exact ⟨h.sorted, h.positive, h.visible, h.sent, h.named⟩
  | start => simp only [step]; split <;> exact ⟨h.sorted, h.positive, h.visible, h.sent, h.named⟩
  | subscribe =>
    have htopic := h.control (subscribeMessage P Val) rfl
    simp only [step]
    split
    · exact ⟨htopic.sorted, htopic.positive, htopic.visible, htopic.sent, htopic.named⟩
    · exact h
  | acquire => simp only [step]; split <;> exact ⟨h.sorted, h.positive, h.visible, h.sent, h.named⟩
  | load e v => simp only [step]; split <;> exact ⟨h.sorted, h.positive, h.visible, h.sent, h.named⟩
  | finish => simp only [step]; split <;> exact ⟨h.sorted, h.positive, h.visible, h.sent, h.named⟩
  | createGroup => simp only [step]; split <;> exact ⟨h.sorted, h.positive, h.visible, h.sent, h.named⟩
  | consume =>
    simp only [step, consume]
    split
    · split <;> exact ⟨h.sorted, h.positive, h.visible, h.sent, h.named⟩
    · exact h

end FlowSteps

/-! ## The hand-over -/

/-- when the topic is routed, the label maps have the query under all its labels -/
def Covered (s : State P Val) : Prop := ∀ e, P.Wants e → Names P (routerAfter s.router s.topic) e

/-- nothing of the element is under way to a group at the position -/
def Settled (s : State P Val) (position : EntryId) (e : Elem) : Prop := changesOf e (s.pending position) = []

/-- what the proxy shows of a settled element, and what the index has, is the value at the source -/
def HandedOver (s : State P Val) : Prop :=
  match s.phase with
  | .configured => True
  | .started ts => ts ≤ s.clock ∧ ∀ e, s.index e = none
  | .subscribed ts => ts ≤ s.clock ∧ Covered s ∧ ∀ e, s.index e = none
  | .acquiring ts window loaded =>
    ts ≤ s.clock ∧ Covered s ∧ ∀ e, P.Wants e → (e ∉ loaded → s.index e = none) ∧
      (Settled s (toLex (ts, 0)) e → (∀ v ∈ window e, v = s.store e) ∧ (e ∈ loaded → s.index e = s.store e))
  | .bootstrapped ts =>
    ts ≤ s.clock ∧ Covered s ∧ ∀ e, P.Wants e → Settled s (toLex (ts, 0)) e → s.index e = s.store e
  | .running ts position =>
    ts ≤ s.clock ∧ Covered s ∧ (position = toLex (ts, 0) ∨ position ≤ topId s.entries) ∧
      ∀ e, P.Wants e → Settled s position e → s.index e = s.store e

/-- the position of the group, from the start of the acquire call on -/
def Phase.position : Phase Elem Val → Option EntryId
  | .acquiring ts _ _ => some (toLex (ts, 0))
  | .bootstrapped ts => some (toLex (ts, 0))
  | .running _ position => some position
  | _ => none

/-- the start timestamp, from the start of the acquire call on -/
def Phase.acquired : Phase Elem Val → Option ℕ
  | .acquiring ts _ _ => some ts
  | .bootstrapped ts => some ts
  | .running ts _ => some ts
  | _ => none

/-- no change for the query is appended under the id at which its group is created -/
def Apart (s : State P Val) : Op P Val → Prop
  | .dispatch => ∀ ts ∈ s.phase.acquired, ∀ d ∈ s.dispatch.head?, P.query ∈ d.event.subscriptions →
      s.nextId ≠ toLex (ts, 0)
  | _ => True

instance (s : State P Val) : (o : Op P Val) → Decidable (Apart s o)
  | .dispatch => inferInstanceAs (Decidable (∀ ts ∈ s.phase.acquired, ∀ d ∈ s.dispatch.head?,
      P.query ∈ d.event.subscriptions → s.nextId ≠ toLex (ts, 0)))
  | .commit _ | .enqueue | .control _ _ | .route | .tick | .start | .subscribe | .acquire | .load _ _ | .finish
  | .createGroup | .consume => inferInstanceAs (Decidable True)

section HandOverSteps

variable {s : State P Val} {c : Change P Val}

/-- a step of the source's side: the phase and the index stay, and so does every element that is settled after it -/
theorem HandedOver.of_eq {s' : State P Val} (h : HandedOver s) (hphase : s'.phase = s.phase) (hindex : s'.index = s.index)
    (hclock : s.clock ≤ s'.clock) (htop : topId s.entries ≤ topId s'.entries) (hcovered : Covered s → Covered s')
    (hsettled : Covered s → ∀ position ∈ s.phase.position, ∀ e, P.Wants e → Settled s' position e →
      Settled s position e ∧ s'.store e = s.store e) : HandedOver s' := by
  rw [HandedOver] at h ⊢
  rw [hphase, hindex]
  cases hp : s.phase with
  | configured => trivial
  | started ts =>
    rw [hp] at h
    exact ⟨h.1.trans hclock, h.2⟩
  | subscribed ts =>
    rw [hp] at h
    exact ⟨h.1.trans hclock, hcovered h.2.1, h.2.2⟩
  | acquiring ts window loaded =>
    rw [hp] at h
    refine ⟨h.1.trans hclock, hcovered h.2.1, fun e he => ⟨(h.2.2 e he).1, fun hs => ?_⟩⟩
    obtain ⟨hsettle, hstore⟩ := hsettled h.2.1 _ (by rw [hp]; rfl) e he hs
    rw [hstore]
    exact (h.2.2 e he).2 hsettle
  | bootstrapped ts =>
    rw [hp] at h
    refine ⟨h.1.trans hclock, hcovered h.2.1, fun e he hs => ?_⟩
    obtain ⟨hsettle, hstore⟩ := hsettled h.2.1 _ (by rw [hp]; rfl) e he hs
    rw [hstore]
    exact h.2.2 e he hsettle
  | running ts position =>
    rw [hp] at h
    refine ⟨h.1.trans hclock, hcovered h.2.1, h.2.2.1.imp_right htop.trans', fun e he hs => ?_⟩
    obtain ⟨hsettle, hstore⟩ := hsettled h.2.1 _ (by rw [hp]; rfl) e he hs
    rw [hstore]
    exact h.2.2.2 e he hsettle

omit [DecidableEq Elem] in
theorem Covered.append (h : Covered s) (m : Message P Val) : Covered { s with topic := s.topic ++ [m] } := by
  intro e he
  have hafter : routerAfter s.router (s.topic ++ [m]) = receive P.env (routerAfter s.router s.topic) [m.event] := by
    rw [routerAfter_append]
    rfl
  rw [Names, hafter]
  exact names_receive m (h e he)

/-- an element with a new change is not settled -/
theorem not_settled_of_commit (s : State P Val) (c : Change P Val) (position : EntryId) :
    ¬ Settled (step s (.commit c)) position c.elem := by
  intro hs
  have hbacklog := (changesOf_eq_nil_of_append hs).2
  have hc : changesOf c.elem [c] = [] := (changesOf_eq_nil_of_append (l := s.backlog) hbacklog).2
  rw [changesOf_singleton_self] at hc
  cases hc

theorem settled_of_commit {position : EntryId} {e : Elem} (h : Settled (step s (.commit c)) position e) :
    Settled s position e := by
  rw [Settled, State.pending, changesOf_append] at h ⊢
  obtain ⟨hleft, hbacklog⟩ := List.append_eq_nil_iff.1 h
  rw [(changesOf_eq_nil_of_append (l := s.backlog) hbacklog).1, List.append_nil]
  exact hleft

theorem HandedOver.commit (h : HandedOver s) (c : Change P Val) : HandedOver (step s (.commit c)) := by
  have hstore {e : Elem} {position : EntryId} (hs : Settled (step s (.commit c)) position e) :
      c.elem ≠ e ∧ (step s (.commit c)).store e = s.store e := by
    have hne : c.elem ≠ e := by
      rintro rfl
      exact not_settled_of_commit s c position hs
    exact ⟨hne, Function.update_of_ne hne.symm _ _⟩
  by_cases hp : ∃ ts window loaded, s.phase = .acquiring ts window loaded
  · obtain ⟨ts, window, loaded, hp⟩ := hp
    have hphase : (step s (.commit c)).phase =
        .acquiring ts (Function.update window c.elem (window c.elem ++ [c.value])) loaded := by
      rw [step, hp]
      rfl
    rw [HandedOver, hp] at h
    rw [HandedOver, hphase]
    refine ⟨h.1, h.2.1, fun e he => ⟨(h.2.2 e he).1, fun hs => ?_⟩⟩
    obtain ⟨hne, hsame⟩ := hstore hs
    rw [hsame, Function.update_of_ne hne.symm]
    exact (h.2.2 e he).2 (settled_of_commit hs)
  · have hphase : (step s (.commit c)).phase = s.phase := by
      rw [step]
      cases hq : s.phase with
      | acquiring ts window loaded => exact absurd ⟨ts, window, loaded, hq⟩ hp
      | _ => rfl
    exact h.of_eq hphase rfl (le_refl _) (le_refl _) id fun _ position _ e _ hs => ⟨settled_of_commit hs, (hstore hs).2⟩

/-- settled: nothing of the element at any of the four places -/
theorem settled_iff {position : EntryId} {e : Elem} :
    Settled s position e ↔ changesOf e (consumable position s.entries) = [] ∧ changesOf e (namedOf s.dispatch) = [] ∧
      changesOf e (named s.router s.topic) = [] ∧ changesOf e s.backlog = [] := by
  rw [Settled, State.pending, changesOf_append, changesOf_append, changesOf_append, List.append_eq_nil_iff,
    List.append_eq_nil_iff, List.append_eq_nil_iff, and_assoc, and_assoc]

theorem HandedOver.enqueue (h : HandedOver s) : HandedOver (step s .enqueue) := by
  cases hb : s.backlog with
  | nil =>
    have hstep : step s .enqueue = s := by rw [step, hb]
    rw [hstep]
    exact h
  | cons c backlog =>
    have hstep : step s .enqueue = { s with backlog := backlog, topic := s.topic ++ [.change c] } := by rw [step, hb]
    rw [hstep]
    refine h.of_eq rfl rfl (le_refl _) (le_refl _) (fun hcovered => hcovered.append _) ?_
    refine fun hcovered position _ e he hs => ⟨?_, rfl⟩
    -- the router will dispatch the change to the query: the subscription is before it on the topic
    have hchange : changesOf e (named (routerAfter s.router s.topic) [.change c]) = changesOf e [c] :=
      changesOf_named (hcovered e he) [.change c]
    obtain ⟨hentries, hdispatch, htopic, hbacklog⟩ := settled_iff.1 hs
    rw [named_append] at htopic
    obtain ⟨htopic, hlast⟩ := changesOf_eq_nil_of_append htopic
    refine settled_iff.2 ⟨hentries, hdispatch, htopic, ?_⟩
    rw [hb, ← List.singleton_append, changesOf_append, ← hchange, hlast]
    exact hbacklog

theorem HandedOver.control (h : HandedOver s) {event : Value} (hc : IsControlEvent event) :
    HandedOver (step s (.control event hc)) := by
  refine h.of_eq rfl rfl (le_refl _) (le_refl _) (fun hcovered => hcovered.append _) fun _ position _ e _ hs => ⟨?_, rfl⟩
  obtain ⟨hentries, hdispatch, htopic, hbacklog⟩ := settled_iff.1 hs
  refine settled_iff.2 ⟨hentries, hdispatch, ?_, hbacklog⟩
  exact (changesOf_eq_nil_of_append (named_append s.router s.topic [.control event hc] ▸ htopic)).1

theorem HandedOver.route (h : HandedOver s) : HandedOver (step s .route) := by
  cases htopic : s.topic with
  | nil =>
    have hstep : step s .route = s := by rw [step, htopic]
    rw [hstep]
    exact h
  | cons m topic =>
    have hstep : step s .route = { s with
        topic := topic
        router := receive P.env s.router [m.event]
        dispatch := s.dispatch ++ routed s.router m } := by rw [step, htopic]
    rw [hstep]
    refine h.of_eq rfl rfl (le_refl _) (le_refl _) (fun hcovered e he => ?_) fun _ position _ e _ hs => ⟨?_, rfl⟩
    · have hnames := hcovered e he
      rwa [htopic, routerAfter_cons] at hnames
    · obtain ⟨hentries, hdispatch, hrest, hbacklog⟩ := settled_iff.1 hs
      rw [namedOf_append] at hdispatch
      obtain ⟨hdispatch, hrouted⟩ := changesOf_eq_nil_of_append hdispatch
      refine settled_iff.2 ⟨hentries, hdispatch, ?_, hbacklog⟩
      rw [htopic, named_cons, changesOf_append, hrouted]
      exact hrest

omit [DecidableEq Elem] in
theorem topId_le_append (s : State P Val) (d : Dispatched P Val) :
    topId s.entries ≤ topId (s.entries ++ entryOf s.nextId d) := by
  rw [entryOf]
  split
  · rw [List.append_nil]
  · simp only [topId, List.getLast?_concat, Option.map_some, Option.getD_some]
    exact (lt_autoId _ _).le

/-- a change for the query gets an id above the position of its group -/
theorem HandedOver.position_lt {d : Dispatched P Val} (h : HandedOver s) (hapart : Apart s .dispatch)
    (hd : d ∈ s.dispatch.head?) (hnames : P.query ∈ d.event.subscriptions) {position : EntryId}
    (hposition : position ∈ s.phase.position) : position < s.nextId := by
  have hstart {ts : ℕ} (hclock : ts ≤ s.clock) (hacquired : ts ∈ s.phase.acquired) : toLex (ts, 0) < s.nextId :=
    lt_of_le_of_ne (le_autoId hclock _) (hapart ts hacquired d hd hnames).symm
  rw [HandedOver] at h
  cases hp : s.phase with
  | configured => rw [hp] at hposition; cases hposition
  | started ts => rw [hp] at hposition; cases hposition
  | subscribed ts => rw [hp] at hposition; cases hposition
  | acquiring ts window loaded =>
    rw [hp] at h hposition
    obtain rfl := Option.mem_some_iff.1 hposition
    exact hstart h.1 (by rw [hp]; rfl)
  | bootstrapped ts =>
    rw [hp] at h hposition
    obtain rfl := Option.mem_some_iff.1 hposition
    exact hstart h.1 (by rw [hp]; rfl)
  | running ts position' =>
    rw [hp] at h hposition
    obtain rfl := Option.mem_some_iff.1 hposition
    rcases h.2.2.1 with rfl | htop
    · exact hstart h.1 (by rw [hp]; rfl)
    · exact htop.trans_lt (lt_autoId _ _)

theorem HandedOver.dispatch (h : HandedOver s) (hapart : Apart s .dispatch) :
    HandedOver (step s .dispatch) := by
  cases hd : s.dispatch with
  | nil =>
    have hstep : step s .dispatch = s := by rw [step, hd]
    rw [hstep]
    exact h
  | cons d dispatch =>
    have hstep : step s .dispatch = { s with dispatch := dispatch, entries := s.entries ++ entryOf s.nextId d } := by
      rw [step, hd]
    rw [hstep]
    refine h.of_eq rfl rfl (le_refl _) (topId_le_append s d) id fun _ position hposition e _ hs => ⟨?_, rfl⟩
    have hentry : consumable position (entryOf s.nextId d) = namedOf [d] :=
      consumable_entryOf fun hnames => h.position_lt hapart (by rw [hd]; rfl) hnames hposition
    obtain ⟨hentries, hdispatch, htopic, hbacklog⟩ := settled_iff.1 hs
    rw [consumable_append, hentry] at hentries
    obtain ⟨hentries, hnew⟩ := changesOf_eq_nil_of_append hentries
    refine settled_iff.2 ⟨hentries, ?_, htopic, hbacklog⟩
    rw [hd, ← List.singleton_append, namedOf_append, changesOf_append, hnew]
    exact hdispatch

theorem HandedOver.tick (h : HandedOver s) : HandedOver (step s .tick) :=
  h.of_eq rfl rfl (Nat.le_succ _) (le_refl _) id fun _ _ _ _ _ hs => ⟨hs, rfl⟩

/-! ### The steps of the subscription -/

theorem HandedOver.start (h : HandedOver s) : HandedOver (step s .start) := by
  cases hp : s.phase with
  | configured =>
    have hstep : step s .start = { s with phase := .started s.clock, index := fun _ => none } := by rw [step, hp]
    rw [hstep]
    exact ⟨le_refl _, fun _ => rfl⟩
  | _ => simpa only [step, hp] using h

theorem HandedOver.subscribe (h : HandedOver s) : HandedOver (step s .subscribe) := by
  cases hp : s.phase with
  | started ts =>
    have hstep : step s .subscribe =
        { s with phase := .subscribed ts, topic := s.topic ++ [subscribeMessage P Val] } := by rw [step, hp]
    rw [HandedOver, hp] at h
    rw [hstep]
    refine ⟨h.1, fun e he => ?_, h.2⟩
    have hafter : routerAfter s.router (s.topic ++ [subscribeMessage P Val]) =
        receive P.env (routerAfter s.router s.topic) [(subscribeMessage P Val).event] := by
      rw [routerAfter_append]
      rfl
    rw [Names, hafter]
    exact names_receive_subscribe _ he
  | _ => simpa only [step, hp] using h

theorem HandedOver.acquire (h : HandedOver s) : HandedOver (step s .acquire) := by
  cases hp : s.phase with
  | subscribed ts =>
    have hstep : step s .acquire = { s with phase := .acquiring ts (fun e => [s.store e]) [] } := by rw [step, hp]
    rw [HandedOver, hp] at h
    rw [hstep]
    refine ⟨h.1, h.2.1, fun e _ => ⟨fun _ => h.2.2 e, fun _ => ⟨fun v hv => List.mem_singleton.1 hv, fun he => ?_⟩⟩⟩
    cases he
  | _ => simpa only [step, hp] using h

theorem HandedOver.load {e : Elem} {v : Val} (h : HandedOver s) (hlegal : Legal s (.load e v)) :
    HandedOver (step s (.load e v)) := by
  cases hp : s.phase with
  | acquiring ts window loaded =>
    have hstep : step s (.load e v) =
        { s with index := Function.update s.index e (some v), phase := .acquiring ts window (e :: loaded) } := by
      rw [step, hp]
    obtain ⟨-, -, hv⟩ := hlegal ts window loaded hp
    rw [HandedOver, hp] at h
    rw [hstep]
    refine ⟨h.1, h.2.1, fun e' he' => ⟨fun hnew => ?_, fun hs => ?_⟩⟩
    · obtain ⟨hne, hnew⟩ := not_or.1 (mt List.mem_cons.2 hnew)
      exact (Function.update_of_ne hne _ _).trans ((h.2.2 e' he').1 hnew)
    · obtain ⟨hwindow, hindex⟩ := (h.2.2 e' he').2 hs
      refine ⟨hwindow, fun hloaded => ?_⟩
      by_cases he : e' = e
      · subst he
        exact (Function.update_self _ _ _).trans (hwindow _ hv)
      · have hbefore : e' ∈ loaded := (List.mem_cons.1 hloaded).resolve_left he
        exact (Function.update_of_ne he _ _).trans (hindex hbefore)
  | _ => simpa only [step, hp] using h

theorem HandedOver.finish (h : HandedOver s) (hlegal : Legal s .finish) : HandedOver (step s .finish) := by
  cases hp : s.phase with
  | acquiring ts window loaded =>
    have hstep : step s .finish = { s with phase := .bootstrapped ts } := by rw [step, hp]
    rw [HandedOver, hp] at h
    rw [hstep]
    refine ⟨h.1, h.2.1, fun e he hs => ?_⟩
    obtain ⟨hnone, hsettled⟩ := h.2.2 e he
    obtain ⟨hwindow, hindex⟩ := hsettled hs
    by_cases hloaded : e ∈ loaded
    · exact hindex hloaded
    · -- left out: there was a moment without the element, and it has not changed
      exact (hnone hloaded).trans (hwindow none (hlegal ts window loaded hp e he hloaded))
  | _ => simpa only [step, hp] using h

theorem HandedOver.createGroup (h : HandedOver s) : HandedOver (step s .createGroup) := by
  cases hp : s.phase with
  | bootstrapped ts =>
    have hstep : step s .createGroup = { s with phase := .running ts (toLex (ts, 0)) } := by rw [step, hp]
    rw [HandedOver, hp] at h
    rw [hstep]
    exact ⟨h.1, h.2.1, .inl rfl, h.2.2⟩
  | _ => simpa only [step, hp] using h

/-- the last entry that changes an element, once nothing else of it is under way, has its value at the source -/
theorem Flow.last_entry (h : Flow s) {a b : List (Entry P Val)} {x : Entry P Val} (hentries : s.entries = a ++ x :: b)
    (hquery : P.query.queryId ∈ x.queries) (hs : Settled s x.id x.change.elem) :
    x.change.value = s.store x.change.elem := by
  obtain ⟨habove, hdispatch, htopic, hbacklog⟩ := settled_iff.1 hs
  have hsplit := consumable_split (hentries ▸ h.sorted)
    (h.positive x (hentries ▸ List.mem_append_right _ List.mem_cons_self))
  rw [if_pos hquery, ← hentries] at hsplit
  have hsent : changesOf x.change.elem s.sent = changesOf x.change.elem (consumable .zero a) ++ [x.change] := by
    rw [State.sent, changesOf_append, hdispatch, List.append_nil, hsplit, changesOf_append, habove, List.append_nil,
      changesOf_append, changesOf_singleton_self]
  -- the label maps have the query, so what it has not dispatched of the element is not there at all
  have hnames : Names P s.router x.change.elem := h.named _ (by rw [hsent]; exact List.concat_ne_nil _ _)
  have hup : changesOf x.change.elem s.upstream = [] := by
    rw [State.upstream, changesOf_append, ← changesOf_named hnames, htopic, hbacklog]
    rfl
  exact lastIs_concat.1 (hsent ▸ h.sent x.change.elem hup)

theorem HandedOver.consume (h : HandedOver s) (hflow : Flow s) : HandedOver (step s .consume) := by
  cases hp : s.phase with
  | running ts position =>
    cases hfind : s.entries.find? fun x => position < x.id with
    | none =>
      have hstep : step s .consume = s := by rw [step, hp]; simp only [HandOver.consume, hfind]
      rw [hstep]
      exact h
    | some x =>
      have hstep : step s .consume = { s with
          index := if P.query.queryId ∈ x.queries then Function.update s.index x.change.elem x.change.value else s.index
          phase := .running ts x.id } := by
        rw [step, hp]
        simp only [HandOver.consume, hfind]
      obtain ⟨hx, a, b, hentries, ha⟩ := List.find?_eq_some_iff_append.1 hfind
      have hposition : position < x.id := by simpa using hx
      have hbefore : consumable position a = [] := consumable_of_le fun y hy => by simpa using ha y hy
      have hsplit := consumable_split (hentries ▸ hflow.sorted) hposition
      rw [← hentries, hbefore, List.nil_append] at hsplit
      have hmem : x ∈ s.entries := hentries ▸ List.mem_append_right _ List.mem_cons_self
      rw [HandedOver, hp] at h
      rw [hstep]
      refine ⟨h.1, h.2.1, .inr (le_topId hflow.sorted hmem), fun e he hs => ?_⟩
      have hafter : Settled s x.id e := hs
      by_cases hchanges : P.query.queryId ∈ x.queries ∧ x.change.elem = e
      · obtain ⟨hquery, rfl⟩ := hchanges
        have hindex : (if P.query.queryId ∈ x.queries then Function.update s.index x.change.elem x.change.value
            else s.index) x.change.elem = x.change.value := by
          rw [if_pos hquery, Function.update_self]
        exact hindex.trans (hflow.last_entry hentries hquery hafter)
      · -- the entry is for another query or of another element: what was settled is settled still
        have hnone : changesOf e (if P.query.queryId ∈ x.queries then [x.change] else []) = [] := by
          split
          · rename_i hquery
            exact changesOf_singleton_of_ne fun hce => hchanges ⟨hquery, hce⟩
          · rfl
        have hsame : (if P.query.queryId ∈ x.queries then Function.update s.index x.change.elem x.change.value
            else s.index) e = s.index e := by
          split
          · rename_i hquery
            exact Function.update_of_ne (fun hce => hchanges ⟨hquery, hce.symm⟩) _ _
          · rfl
        obtain ⟨habove, hrest⟩ := settled_iff.1 hafter
        refine hsame.trans (h.2.2.2 e he (settled_iff.2 ⟨?_, hrest⟩))
        rw [hsplit, changesOf_append, hnone, habove]
        rfl
  | _ => simpa only [step, hp] using h

/-- **Every step keeps the hand-over**, unless it appends a change for the query under the id of its group. -/
theorem step_handedOver (hflow : Flow s) (h : HandedOver s) {o : Op P Val} (hlegal : Legal s o) (hapart : Apart s o) :
    HandedOver (step s o) := by
  cases o with
  | commit c => exact h.commit c
  | enqueue => exact h.enqueue
  | control event hc => exact h.control hc
  | route => exact h.route
  | dispatch => exact h.dispatch hapart
  | tick => exact h.tick
  | start => exact h.start
  | subscribe => exact h.subscribe
  | acquire => exact h.acquire
  | load e v => exact h.load hlegal
  | finish => exact h.finish hlegal
  | createGroup => exact h.createGroup
  | consume => exact h.consume hflow

end HandOverSteps

/-! ## Runs -/

/-- before the query is started, with a source that has sent nothing yet -/
structure Quiet (s : State P Val) : Prop where
  phase : s.phase = .configured
  backlog : s.backlog = []
  topic : s.topic = []
  dispatch : s.dispatch = []
  entries : s.entries = []

/-- all messages are drained -/
structure Drained (s : State P Val) : Prop where
  backlog : s.backlog = []
  topic : s.topic = []
  dispatch : s.dispatch = []
  consumed : ∃ ts position, s.phase = .running ts position ∧ ∀ x ∈ s.entries, x.id ≤ position

section Runs

variable {s : State P Val} {ops : List (Op P Val)}

theorem Quiet.flow (h : Quiet s) : Flow s := by
  have hup : s.upstream = [] := by rw [State.upstream, h.topic, h.backlog]; rfl
  have hsent : s.sent = [] := by rw [State.sent, h.entries, h.dispatch]; rfl
  refine ⟨?_, ?_, fun e => ?_, fun e _ => ?_, fun e hne => ?_⟩
  · rw [h.entries]
    exact .nil
  · rw [h.entries]
    exact fun x hx => by cases hx
  · rw [hup]
    exact lastIs_nil _
  · rw [hsent]
    exact lastIs_nil _
  · rw [hsent] at hne
    exact absurd rfl hne

theorem Quiet.handedOver (h : Quiet s) : HandedOver s := by
  rw [HandedOver, h.phase]
  trivial

theorem Drained.settled (h : Drained s) {ts : ℕ} {position : EntryId} (hphase : s.phase = .running ts position)
    (e : Elem) : Settled s position e := by
  obtain ⟨ts', position', hphase', hconsumed⟩ := h.consumed
  obtain ⟨rfl, rfl⟩ : ts' = ts ∧ position' = position := by
    have heq := hphase'.symm.trans hphase
    injection heq with hts hposition
    exact ⟨hts, hposition⟩
  have hentries : consumable position' s.entries = [] := consumable_of_le fun x hx => not_lt.2 (hconsumed x hx)
  rw [settled_iff, hentries, h.dispatch, h.topic, h.backlog]
  exact ⟨rfl, rfl, rfl, rfl⟩

/-- **The hand-over loses no change**, in every run in which no change for the query is appended under the id at which its
group is created: once all messages are drained, the index has for every subscribed element the value at the source. -/
theorem no_change_lost (hquiet : Quiet s) (hlegal : Meets step Legal s ops) (hapart : Meets step Apart s ops)
    (hdrained : Drained (run step s ops)) (e : Elem) (he : P.Wants e) :
    (run step s ops).index e = (run step s ops).store e := by
  have hstep : ∀ s, ∀ o ∈ ops, Flow s ∧ HandedOver s → Legal s o ∧ Apart s o →
      Flow (step s o) ∧ HandedOver (step s o) := by
    rintro s o - ⟨hflow, h⟩ ⟨hlegal, hapart⟩
    exact ⟨step_flow hflow o, step_handedOver hflow h hlegal hapart⟩
  have hinv : Flow (run step s ops) ∧ HandedOver (run step s ops) :=
    (hlegal.and hapart).inv hstep ⟨hquiet.flow, hquiet.handedOver⟩
  obtain ⟨ts, position, hphase, -⟩ := hdrained.consumed
  have h := hinv.2
  rw [HandedOver, hphase] at h
  exact h.2.2.2 e he (hdrained.settled hphase e)

end Runs

/-! ## Witnesses -/

/-- a source with one element, and a query of its label -/
def oneItem : Setup Unit where
  elementType := fun _ => .node
  label := fun _ => "Item"
  query := ⟨"c", "q"⟩
  nodeLabels := ["Item"]
  relLabels := []
  sourceId := "shop"
  traceparent := ""

def setItem (v : ℕ) : Change oneItem ℕ := ⟨(), some v, insertEvent "node" ["Item"], isData_insertEvent_node _⟩

/-- the source before the query is started, at the time `1` -/
def itemAt (value : Option ℕ) : State oneItem ℕ where
  store := fun _ => value
  backlog := []
  topic := []
  router := .empty
  dispatch := []
  entries := []
  clock := 1
  phase := .configured
  index := fun _ => none

/-- the value `2` is in the snapshot and on the stream, the value `3` is committed while the snapshot is streamed -/
def crossingRun : List (Op oneItem ℕ) :=
  [.start, .subscribe, .commit (setItem 2), .enqueue, .route, .acquire, .load () 2, .commit (setItem 3), .enqueue, .route,
    .tick, .dispatch, .finish, .createGroup, .consume, .route, .dispatch, .consume]

theorem crossingRun_legal : Meets step Legal (itemAt none) crossingRun := by
  refine ⟨trivial, trivial, trivial, trivial, trivial, trivial, ?_, trivial, trivial, trivial, trivial, trivial, ?_,
    trivial, trivial, trivial, trivial, trivial, trivial⟩
  · rintro ts window loaded h
    cases h
    exact ⟨List.mem_singleton_self _, List.not_mem_nil, List.mem_singleton_self _⟩
  · rintro ts window loaded h e - hnew
    cases h
    exact absurd (List.mem_singleton_self _) hnew

theorem crossingRun_drained : Drained (run step (itemAt none) crossingRun) :=
  ⟨rfl, rfl, rfl, 1, toLex (2, 1), rfl, by decide⟩

theorem crossingRun_handed_over :
    (run step (itemAt none) crossingRun).index () = (run step (itemAt none) crossingRun).store () ∧
      (run step (itemAt none) crossingRun).store () = some 3 :=
  ⟨no_change_lost ⟨rfl, rfl, rfl, rfl, rfl⟩ crossingRun_legal (by decide) crossingRun_drained ()
    (List.mem_singleton_self _), by decide⟩

/-- everything within one millisecond: the element appears after the snapshot, and its entry has the id `1-0` -/
def oneMillisecondRun : List (Op oneItem ℕ) :=
  [.start, .subscribe, .route, .acquire, .finish, .commit (setItem 2), .enqueue, .route, .dispatch, .createGroup]

/-- **The first entry is skipped.** A group created at `startTimestamp-0` reads what is above it, so a change that is
appended under exactly this id is never consumed: the messages are drained, and the index misses the element. -/
theorem first_entry_is_skipped :
    ¬ ∀ (s : State oneItem ℕ) (ops : List (Op oneItem ℕ)), Quiet s → Meets step Legal s ops → Drained (run step s ops) →
      ∀ e, oneItem.Wants e → (run step s ops).index e = (run step s ops).store e := by
  intro h
  have hlegal : Meets step Legal (itemAt none) oneMillisecondRun := by
    refine ⟨trivial, trivial, trivial, trivial, ?_, trivial, trivial, trivial, trivial, trivial, trivial⟩
    rintro ts window loaded h e - -
    cases h
    exact List.mem_singleton_self _
  have hdrained : Drained (run step (itemAt none) oneMillisecondRun) :=
    ⟨rfl, rfl, rfl, 1, toLex (1, 0), rfl, by decide⟩
  have hsame := h (itemAt none) oneMillisecondRun ⟨rfl, rfl, rfl, rfl, rfl⟩ hlegal hdrained () (List.mem_singleton_self _)
  have hindex : (run step (itemAt none) oneMillisecondRun).index () = none := by decide
  have hstore : (run step (itemAt none) oneMillisecondRun).store () = some 2 := by decide
  rw [hindex, hstore] at hsame
  cases hsame

end DrasiPlatform.HandOver
