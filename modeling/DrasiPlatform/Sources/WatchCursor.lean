/-
The cursors of the kubernetes reactivator: the monitor tasks (`spawn_monitor_task`), the channel between them and the
change stream (`my_stream`), and the publish loop of the SDK (`Reactivator::start`).

Every kind has a task that sends the changes of each watch event into a channel of capacity one, which all the tasks share,
and persists its cursor when the watch gives a bookmark. The loop takes a change from the channel and publishes it; a
publication that fails ends the process. A restart watches on from the persisted cursors: of the events of a watch, those
before its cursor are not given again.

- `step_inv`: a change of an event behind the cursor's position is published, still to be sent, in the channel, with the
  publisher, or dropped.
- `behind_iff_published`: along every run, the changes of all events before the persisted cursors are published in every
  state exactly when, at each bookmark that is persisted, no change of its kind in the channel, with the publisher or
  dropped is unpublished.
Witness: `bookmark_overtakes`, a bookmark right after an event whose change is still in the channel.
-/
import Mathlib.Tactic
import DrasiPlatform.Core.Run
import DrasiPlatform.Sources.KubernetesReactivator

namespace DrasiPlatform.KubernetesReactivator

open Run

/-! ## The tasks, the channel and the publisher -/

/-- an object that the watch reports, and when it is received -/
structure WatchEvent where
  op : ChangeOp
  now : ℕ
  object : KubeObject

/-- a change on its way, with the place of its event in the watch and its place in the event -/
structure Item (K : Type) where
  kind : K
  event : ℕ
  part : ℕ
  change : SourceChange

variable {K : Type}

def itemsOf (kind : K) (n : ℕ) (e : WatchEvent) : List (Item K) :=
  (changesOf e.op e.now e.object).zipIdx.map fun c => ⟨kind, n, c.2, c.1⟩

structure Monitor (K : Type) where
  cursor : K → String
  /-- the events of each watch up to now, in its order -/
  delivered : K → List WatchEvent
  /-- the changes of the event in hand that are not sent yet -/
  sending : K → List (Item K)
  channel : List (Item K)
  publishing : Option (Item K)
  published : List (Item K)
  /-- changes that are lost: not accepted by the channel, not published, or left in a closed channel -/
  dropped : List (Item K)
  receiving : Bool
  /-- the persisted cursor of each kind, and how many events of the watch come before it -/
  stored : K → Option (String × ℕ)

namespace Monitor

def start : Monitor K where
  cursor _ := "0"
  delivered _ := []
  sending _ := []
  channel := []
  publishing := none
  published := []
  dropped := []
  receiving := true
  stored _ := none

def precede (s : Monitor K) (k : K) : ℕ :=
  match s.stored k with
  | some (_, n) => n
  | none => 0

inductive Op (K : Type) where
  | event (kind : K) (e : WatchEvent)
  | send (kind : K)
  | bookmark (kind : K) (resourceVersion : String) (put : Bool)
  /-- error 410 -/
  | expired (kind : K)
  | receive
  | publish (ok : Bool)
  | shutdown
  /-- the process ends at this point and is started again; a cursor that cannot be read is "0" -/
  | restart (read : K → Bool)

variable [DecidableEq K]

/-- a step that its party cannot take leaves the state as it is -/
def step (s : Monitor K) : Op K → Monitor K
  | .event k e =>
    if s.sending k = [] then
      { s with
        cursor := Function.update s.cursor k (e.object.resourceVersion.getD (s.cursor k))
        delivered := Function.update s.delivered k (s.delivered k ++ [e])
        sending := Function.update s.sending k (itemsOf k (s.delivered k).length e) }
    else s
  | .send k =>
    match s.sending k with
    | [] => s
    | item :: rest =>
      if s.receiving then
        if s.channel.length < 1 then
          { s with channel := s.channel ++ [item], sending := Function.update s.sending k rest }
        else s
      else { s with dropped := s.dropped ++ [item], sending := Function.update s.sending k rest }
  | .bookmark k resourceVersion put =>
    if s.sending k = [] then
      { s with
        cursor := Function.update s.cursor k resourceVersion
        stored :=
          if put then Function.update s.stored k (some (resourceVersion, (s.delivered k).length)) else s.stored }
    else s
  | .expired k => if s.sending k = [] then { s with cursor := Function.update s.cursor k "0" } else s
  | .receive =>
    match s.publishing, s.channel with
    | none, item :: rest => { s with publishing := some item, channel := rest }
    | _, _ => s
  | .publish ok =>
    match s.publishing with
    | none => s
    | some item =>
      if ok then { s with publishing := none, published := s.published ++ [item] }
      else { s with publishing := none, dropped := s.dropped ++ item :: s.channel, channel := [], receiving := false }
  | .shutdown =>
    match s.publishing with
    | none => { s with dropped := s.dropped ++ s.channel, channel := [], receiving := false }
    | some _ => s
  | .restart read =>
    { s with
      cursor := fun k => if read k then ((s.stored k).map Prod.fst).getD "0" else "0"
      delivered := fun k => (s.delivered k).take (s.precede k)
      sending := fun _ => []
      channel := []
      publishing := none
      dropped := []
      receiving := true }

/-- every change of an event before a persisted cursor is published -/
def Behind (s : Monitor K) : Prop :=
  ∀ k n e, n < s.precede k → (s.delivered k)[n]? = some e → ∀ item ∈ itemsOf k n e, item ∈ s.published

/-- what has left the tasks and is not published in this run of the process -/
def onTheWay (s : Monitor K) : List (Item K) := s.channel ++ s.publishing.toList ++ s.dropped

/-- when a bookmark is persisted, every change of its kind that is on the way has been published before -/
def Published (s : Monitor K) : Op K → Prop
  | .bookmark k _ true => s.sending k = [] → ∀ item ∈ s.onTheWay, item.kind = k → item ∈ s.published
  | _ => True

structure Inv (s : Monitor K) : Prop where
  bound : ∀ k, s.precede k ≤ (s.delivered k).length
  waiting : ∀ k n e, s.precede k ≤ n → (s.delivered k)[n]? = some e →
    ∀ item ∈ itemsOf k n e, item ∈ s.published ∨ item ∈ s.sending k ∨ item ∈ s.onTheWay
  sending : ∀ k, ∀ item ∈ s.sending k, item.kind = k ∧ ∃ e, (s.delivered k)[item.event]? = some e ∧
    item ∈ itemsOf k item.event e
  onTheWay : ∀ item ∈ s.onTheWay, ∃ e, (s.delivered item.kind)[item.event]? = some e ∧
    item ∈ itemsOf item.kind item.event e

/-! ## What a step keeps -/

/-- changes only move on: from a task to the channel, from there to the publisher, to what is published or dropped -/
structure Moves (s s' : Monitor K) : Prop where
  delivered : s'.delivered = s.delivered
  stored : s'.stored = s.stored
  published : ∀ item ∈ s.published, item ∈ s'.published
  kept : ∀ k, ∀ item, item ∈ s.sending k ∨ item ∈ s.onTheWay →
    item ∈ s'.published ∨ item ∈ s'.sending k ∨ item ∈ s'.onTheWay
  sending : ∀ k, ∀ item ∈ s'.sending k, item ∈ s.sending k
  onTheWay : ∀ item ∈ s'.onTheWay, item ∈ s.onTheWay ∨ ∃ k, item ∈ s.sending k

variable {s s' : Monitor K}

omit [DecidableEq K] in
theorem Moves.refl (s : Monitor K) : Moves s s :=
  ⟨rfl, rfl, fun _ h => h, fun _ _ h => Or.inr h, fun _ _ h => h, fun _ h => Or.inl h⟩

omit [DecidableEq K] in
theorem Moves.precede (h : Moves s s') (k : K) : s'.precede k = s.precede k := by rw [Monitor.precede, h.stored]; rfl

omit [DecidableEq K] in
theorem Moves.inv (h : Moves s s') (hinv : s.Inv) : s'.Inv where
  bound k := by
    rw [h.precede, h.delivered]
    exact hinv.bound k
  waiting k n e hn he item hitem := by
    rw [h.precede] at hn
    rw [h.delivered] at he
    rcases hinv.waiting k n e hn he item hitem with hpub | hway
    · exact Or.inl (h.published item hpub)
    · exact h.kept k item hway
  sending k item hitem := by
    rw [h.delivered]
    exact hinv.sending k item (h.sending k item hitem)
  onTheWay item hitem := by
    rw [h.delivered]
    rcases h.onTheWay item hitem with hway | ⟨k, hk⟩
    · exact hinv.onTheWay item hway
    · obtain ⟨rfl, hknown⟩ := hinv.sending k item hk
      exact hknown

omit [DecidableEq K] in
theorem Moves.behind (h : Moves s s') (hb : s.Behind) : s'.Behind := by
  intro k n e hn he item hitem
  rw [h.precede] at hn
  rw [h.delivered] at he
  exact h.published item (hb k n e hn he item hitem)

theorem send_moves (s : Monitor K) (k : K) : Moves s (s.step (.send k)) := by
  simp only [step]
  split
  · exact Moves.refl s
  · rename_i item rest hsending
    have hrest : ∀ k', ∀ x ∈ Function.update s.sending k rest k', x ∈ s.sending k' := by
      intro k' x hx
      by_cases hk : k' = k
      · subst hk
        rw [Function.update_self] at hx
        exact hsending ▸ List.mem_cons_of_mem item hx
      · rwa [Function.update_of_ne hk] at hx
    have hsent : ∀ k' x, x ∈ s.sending k' → x = item ∨ x ∈ Function.update s.sending k rest k' := by
      intro k' x hx
      by_cases hk : k' = k
      · subst hk
        rw [hsending] at hx
        rwa [Function.update_self, ← List.mem_cons]
      · exact Or.inr (by rwa [Function.update_of_ne hk])
    have hitem : ∃ k', item ∈ s.sending k' := ⟨k, hsending ▸ List.mem_cons_self⟩
    have hkept : ∀ way : List (Item K), (∀ x, x ∈ s.onTheWay ∨ x = item → x ∈ way) →
        ∀ k' x, x ∈ s.sending k' ∨ x ∈ s.onTheWay → x ∈ Function.update s.sending k rest k' ∨ x ∈ way := by
      intro way hway k' x hx
      rcases hx with hx | hx
      · rcases hsent k' x hx with rfl | hx
        · exact Or.inr (hway x (Or.inr rfl))
        · exact Or.inl hx
      · exact Or.inr (hway x (Or.inl hx))
    split
    · split
      · refine ⟨rfl, rfl, fun x hx => hx, fun k' x hx => Or.inr (hkept _ (fun y hy => ?_) k' x hx), hrest, fun x hx => ?_⟩
        · simp only [Monitor.onTheWay, List.mem_append, List.mem_singleton] at hy ⊢
          tauto
        · simp only [Monitor.onTheWay, List.mem_append, List.mem_singleton] at hx ⊢
          rcases hx with ((hx | rfl) | hx) | hx
          · exact Or.inl (Or.inl (Or.inl hx))
          · exact Or.inr hitem
          · exact Or.inl (Or.inl (Or.inr hx))
          · exact Or.inl (Or.inr hx)
      · exact Moves.refl s
    · refine ⟨rfl, rfl, fun x hx => hx, fun k' x hx => Or.inr (hkept _ (fun y hy => ?_) k' x hx), hrest, fun x hx => ?_⟩
      · simp only [Monitor.onTheWay, List.mem_append, List.mem_singleton] at hy ⊢
        tauto
      · simp only [Monitor.onTheWay, List.mem_append, List.mem_singleton] at hx ⊢
        rcases hx with hx | hx | rfl
        · exact Or.inl (Or.inl hx)
        · exact Or.inl (Or.inr hx)
        · exact Or.inr hitem

theorem receive_moves (s : Monitor K) : Moves s (s.step .receive) := by
  simp only [step]
  split
  · rename_i item rest hpublishing hchannel
    have hway : ∀ x, x ∈ rest ++ [item] ++ s.dropped ↔ x ∈ s.onTheWay := by
      intro x
      simp only [Monitor.onTheWay, hpublishing, hchannel, List.mem_append, List.mem_cons, Option.toList_none]
      tauto
    refine ⟨rfl, rfl, fun x hx => hx, fun k x hx => Or.inr (hx.imp_right (hway x).2), fun _ _ hx => hx,
      fun x hx => Or.inl ((hway x).1 hx)⟩
  · exact Moves.refl s

theorem publish_moves (s : Monitor K) (ok : Bool) : Moves s (s.step (.publish ok)) := by
  simp only [step]
  split
  · exact Moves.refl s
  · rename_i item hpublishing
    cases ok with
    | true =>
      refine ⟨rfl, rfl, fun x hx => List.mem_append_left _ hx, fun k x hx => ?_, fun _ _ hx => hx, fun x hx => ?_⟩
      · simp only [Monitor.onTheWay, hpublishing, if_true, List.mem_append, Option.toList_some, List.mem_singleton,
          Option.toList_none, List.not_mem_nil, or_false] at hx ⊢
        tauto
      · simp only [Monitor.onTheWay, hpublishing, if_true, List.mem_append, Option.toList_none, List.not_mem_nil,
          or_false] at hx ⊢
        tauto
    | false =>
      have hway : ∀ x, x ∈ [] ++ [] ++ (s.dropped ++ item :: s.channel) ↔ x ∈ s.onTheWay := by
        intro x
        simp only [Monitor.onTheWay, hpublishing, List.mem_append, List.mem_cons, Option.toList_some, List.not_mem_nil]
        tauto
      exact ⟨rfl, rfl, fun x hx => hx, fun k x hx => Or.inr (hx.imp_right (hway x).2), fun _ _ hx => hx,
        fun x hx => Or.inl ((hway x).1 hx)⟩

theorem shutdown_moves (s : Monitor K) : Moves s (s.step .shutdown) := by
  simp only [step]
  split
  · rename_i hpublishing
    have hway : ∀ x, x ∈ [] ++ s.publishing.toList ++ (s.dropped ++ s.channel) ↔ x ∈ s.onTheWay := by
      intro x
      simp only [Monitor.onTheWay, hpublishing, List.mem_append, Option.toList_none, List.not_mem_nil]
      tauto
    exact ⟨rfl, rfl, fun x hx => hx, fun k x hx => Or.inr (hx.imp_right (hway x).2), fun _ _ hx => hx,
      fun x hx => Or.inl ((hway x).1 hx)⟩
  · exact Moves.refl s

theorem expired_moves (s : Monitor K) (k : K) : Moves s (s.step (.expired k)) := by
  simp only [step]
  split
  · exact ⟨rfl, rfl, fun _ h => h, fun _ _ h => Or.inr h, fun _ _ h => h, fun _ h => Or.inl h⟩
  · exact Moves.refl s

theorem getElem?_delivered {k : K} {e : WatchEvent} (k' : K) {n : ℕ} {x : WatchEvent}
    (h : (s.delivered k')[n]? = some x) :
    (Function.update s.delivered k (s.delivered k ++ [e]) k')[n]? = some x := by
  by_cases hk : k' = k
  · subst hk
    rw [Function.update_self]
    exact List.getElem?_append_left (List.getElem?_eq_some_iff.1 h).1 ▸ h
  · rwa [Function.update_of_ne hk]

omit [DecidableEq K] in
theorem itemsOf_place {k : K} {n : ℕ} {e : WatchEvent} {item : Item K} (h : item ∈ itemsOf k n e) :
    item.kind = k ∧ item.event = n := by
  obtain ⟨c, -, rfl⟩ := List.mem_map.1 h
  exact ⟨rfl, rfl⟩

theorem event_inv (k : K) (e : WatchEvent) (h : s.Inv) : (s.step (.event k e)).Inv := by
  simp only [step]
  split
  · rename_i hidle
    refine ⟨fun k' => ?_, fun k' n x hn hx item hitem => ?_, fun k' item hitem => ?_, fun item hitem => ?_⟩
    · by_cases hk : k' = k
      · subst hk
        simp only [Function.update_self, List.length_append, List.length_singleton]
        exact (h.bound k').trans (Nat.le_succ _)
      · simp only [Function.update_of_ne hk]
        exact h.bound k'
    · by_cases hk : k' = k
      · subst hk
        simp only [Function.update_self] at hx ⊢
        rcases lt_or_ge n (s.delivered k').length with hlt | hge
        · rw [List.getElem?_append_left hlt] at hx
          have hbefore := h.waiting k' n x hn hx item hitem
          rw [hidle] at hbefore
          rcases hbefore with hpub | hnone | hway
          · exact Or.inl hpub
          · cases hnone
          · exact Or.inr (Or.inr hway)
        · have hlast : n = (s.delivered k').length := by
            have hlen := (List.getElem?_eq_some_iff.1 hx).1
            rw [List.length_append, List.length_singleton] at hlen
            omega
          subst hlast
          rw [List.getElem?_concat_length] at hx
          cases hx
          exact Or.inr (Or.inl hitem)
      · simp only [Function.update_of_ne hk] at hx ⊢
        exact h.waiting k' n x hn hx item hitem
    · by_cases hk : k' = k
      · subst hk
        simp only [Function.update_self] at hitem ⊢
        obtain ⟨hkind, hevent⟩ := itemsOf_place hitem
        refine ⟨hkind, e, ?_, hevent ▸ hitem⟩
        rw [hevent]
        exact List.getElem?_concat_length
      · simp only [Function.update_of_ne hk] at hitem ⊢
        exact h.sending k' item hitem
    · obtain ⟨x, hx, hmem⟩ := h.onTheWay item hitem
      exact ⟨x, getElem?_delivered item.kind hx, hmem⟩
  · exact h

theorem event_behind (k : K) (e : WatchEvent) (h : s.Inv) (hb : s.Behind) : (s.step (.event k e)).Behind := by
  simp only [step]
  split
  · intro k' n x hn hx item hitem
    have hlt : n < (s.delivered k').length := lt_of_lt_of_le hn (h.bound k')
    refine hb k' n x hn ?_ item hitem
    by_cases hk : k' = k
    · subst hk
      simp only [Function.update_self] at hx
      rwa [List.getElem?_append_left hlt] at hx
    · simpa only [Function.update_of_ne hk] using hx
  · exact hb

theorem bookmark_inv (k : K) (resourceVersion : String) (put : Bool) (h : s.Inv) :
    (s.step (.bookmark k resourceVersion put)).Inv := by
  simp only [step]
  split
  · cases put with
    | false => exact ⟨h.bound, h.waiting, h.sending, h.onTheWay⟩
    | true =>
      refine ⟨fun k' => ?_, fun k' n x hn hx item hitem => ?_, h.sending, h.onTheWay⟩
      · by_cases hk : k' = k
        · subst hk
          simp [precede]
        · simpa [precede, hk] using h.bound k'
      · by_cases hk : k' = k
        · subst hk
          simp only [precede, if_true, Function.update_self] at hn
          exact absurd (List.getElem?_eq_some_iff.1 hx).1 (not_lt.2 hn)
        · refine h.waiting k' n x ?_ hx item hitem
          simpa [precede, hk] using hn
  · exact h

/-- a bookmark that is persisted keeps the cursors behind exactly when nothing of its kind on the way is unpublished -/
theorem bookmark_behind_iff (k : K) (resourceVersion : String) (put : Bool) (h : s.Inv) (hb : s.Behind) :
    (s.step (.bookmark k resourceVersion put)).Behind ↔ s.Published (.bookmark k resourceVersion put) := by
  by_cases hidle : s.sending k = []
  · cases put with
    | false =>
      refine iff_of_true ?_ trivial
      simp only [step, hidle, if_true]
      exact hb
    | true =>
      have hstep : s.step (.bookmark k resourceVersion true) =
          { s with
            cursor := Function.update s.cursor k resourceVersion
            stored := Function.update s.stored k (some (resourceVersion, (s.delivered k).length)) } := by
        simp [step, hidle]
      have hself : (s.step (.bookmark k resourceVersion true)).precede k = (s.delivered k).length := by
        simp [hstep, precede]
      have hother : ∀ k', k' ≠ k → (s.step (.bookmark k resourceVersion true)).precede k' = s.precede k' := by
        intro k' hk
        simp [hstep, precede, hk]
      constructor
      · rintro hbehind - item hway rfl
        obtain ⟨e, he, hmem⟩ := h.onTheWay item hway
        have hpub := hbehind item.kind item.event e
        rw [hself, hstep] at hpub
        exact hpub (List.getElem?_eq_some_iff.1 he).1 he item hmem
      · intro hpub k' n e hn he item hitem
        rw [hstep] at he ⊢
        by_cases hk : k' = k
        · subst hk
          rcases lt_or_ge n (s.precede k') with hlt | hge
          · exact hb k' n e hlt he item hitem
          · rcases h.waiting k' n e hge he item hitem with hdone | hsend | hway
            · exact hdone
            · rw [hidle] at hsend
              cases hsend
            · exact hpub hidle item hway (itemsOf_place hitem).1
        · rw [hother k' hk] at hn
          exact hb k' n e hn he item hitem
  · have hstep : s.step (.bookmark k resourceVersion put) = s := by simp [step, hidle]
    rw [hstep]
    refine iff_of_true hb ?_
    cases put with
    | false => trivial
    | true => exact fun hempty => absurd hempty hidle

theorem restart_inv (read : K → Bool) (h : s.Inv) : (s.step (.restart read)).Inv where
  bound k := by
    have hle := h.bound k
    simp only [step, List.length_take]
    exact le_min le_rfl hle
  waiting k n e hn he := by
    simp only [step] at hn he
    have hlt := (List.getElem?_eq_some_iff.1 he).1
    rw [List.length_take] at hlt
    exact absurd (lt_of_lt_of_le hlt (min_le_left _ _)) (not_lt.2 hn)
  sending k item hitem := by cases hitem
  onTheWay item hitem := by cases hitem

theorem restart_behind (read : K → Bool) (hb : s.Behind) : (s.step (.restart read)).Behind := by
  intro k n e hn he
  have hlt : n < s.precede k := hn
  simp only [step] at he
  rw [List.getElem?_take_of_lt hlt] at he
  exact hb k n e hlt he

theorem step_inv (s : Monitor K) (o : Op K) (h : s.Inv) : (s.step o).Inv := by
  cases o with
  | event k e => exact event_inv k e h
  | send k => exact (send_moves s k).inv h
  | bookmark k resourceVersion put => exact bookmark_inv k resourceVersion put h
  | expired k => exact (expired_moves s k).inv h
  | receive => exact (receive_moves s).inv h
  | publish ok => exact (publish_moves s ok).inv h
  | shutdown => exact (shutdown_moves s).inv h
  | restart read => exact restart_inv read h

theorem step_behind_iff (s : Monitor K) (o : Op K) (h : s.Inv) (hb : s.Behind) : (s.step o).Behind ↔ s.Published o := by
  cases o with
  | event k e => exact iff_of_true (event_behind k e h hb) trivial
  | send k => exact iff_of_true ((send_moves s k).behind hb) trivial
  | bookmark k resourceVersion put => exact bookmark_behind_iff k resourceVersion put h hb
  | expired k => exact iff_of_true ((expired_moves s k).behind hb) trivial
  | receive => exact iff_of_true ((receive_moves s).behind hb) trivial
  | publish ok => exact iff_of_true ((publish_moves s ok).behind hb) trivial
  | shutdown => exact iff_of_true ((shutdown_moves s).behind hb) trivial
  | restart read => exact iff_of_true (restart_behind read hb) trivial

omit [DecidableEq K] in
theorem start_inv : (start : Monitor K).Inv where
  bound _ := le_rfl
  waiting k n e _ he := by cases he
  sending k item hitem := by cases hitem
  onTheWay item hitem := by cases hitem

/-- **Cursors behind publication.** Along every run, whatever the interleaving of the watches, the channel, the publisher
and restarts, the changes of all events before the persisted cursors are published in every state, if and only if at each
bookmark that is persisted every change of its kind on the way (in the channel, with the publisher or dropped) has been
published before. -/
theorem behind_iff_published (ops : List (Op K)) :
    Throughout step Behind (start : Monitor K) ops ↔ Meets step Published start ops := by
  refine throughout_iff_meets Inv (fun s o h (_ : True) => step_inv s o h)
    (fun s o h _ hb => step_behind_iff s o h hb) start_inv ?_ (meets_iff_forall.2 fun _ _ => trivial)
  intro k n e hn he
  cases he

/-- a pod is added, its change is sent into the channel, and the watch gives a bookmark -/
def podThenBookmark : List (Op Unit) := [.event () ⟨.create, 0, pod []⟩, .send (), .bookmark () "2" true]

/-- the persisted cursor is past the pod, and its change is in the channel -/
theorem bookmark_overtakes : ¬Throughout step Behind (start : Monitor Unit) podThenBookmark := by
  intro h
  have hpub : ∀ item ∈ itemsOf () 0 ⟨.create, 0, pod []⟩, item ∈ (run step (start : Monitor Unit) podThenBookmark).published :=
    h.last () 0 _ (by decide) rfl
  exact absurd (hpub _ List.mem_cons_self) List.not_mem_nil

end Monitor

end DrasiPlatform.KubernetesReactivator
