/-
Handlers that put messages into a service. A handler is a program (`Programs.Prog`) for each event; a delivery of an event is
acknowledged when the program comes to its end, and not when it stops. What a request does is decided by an outcome that the
surroundings choose: whether it fails, and what has arrived all the same.

`step` lets any number of deliveries of any events run at the same time, their requests served in any order, and the process
end at any moment. `attempt` is a queue that delivers the events one after the other, each one until it is acknowledged.

- `acknowledged_ends`: what holds at every end of a handler holds of every acknowledged delivery, and what it has put is in
  the sink in this order.
- `acknowledged_endsFrom`: the same where no two events are handled at the same time.
- `InOrder.send`, `InOrder.bind`, `InOrder.forEach`: programs that put what they owe, in order and nothing else.
- `acknowledged_inOrder`: then every acknowledged delivery has put all that it owes.
- `reads_attempts`: and events that come in order arrive as a reading, with redelivery, of all that is owed.
- `apply_attempts`: which leaves the same last values behind.
-/
import Mathlib.Tactic
import DrasiPlatform.Core.Programs
import DrasiPlatform.Core.Redelivery
import DrasiPlatform.Core.Run

namespace DrasiPlatform.Forwarding

open Programs Run

variable {S Q O A E M ι : Type}

/-! ## Services and deliveries -/

/-- what a request has led to -/
structure Served (S A M : Type) where
  answer : A
  state : S
  put : List M

structure Service (S Q O A M : Type) where
  serve : S → Q → O → Served S A M
  /-- what is left of the state when the process of the handlers ends -/
  restart : S → S

/-- what one delivery of an event has put so far, and the answers to its requests -/
structure Record (A M : Type) where
  event : ℕ
  put : List M
  answers : List A

structure Delivery (Q A E M : Type) where
  record : Record A M
  rest : Prog Q A E Unit

structure State (S Q A E M : Type) where
  service : S
  inFlight : List (Delivery Q A E M)
  sink : List M
  acknowledged : List (Record A M)

inductive Op (O : Type) where
  | deliver (event : ℕ)
  | serve (index : ℕ) (o : O)
  | restart

variable (srv : Service S Q O A M) (handler : ℕ → Prog Q A E Unit)

namespace State

def new (s : S) : State S Q A E M := ⟨s, [], [], []⟩

/-- a delivery goes on, or is over -/
def place (st : State S Q A E M) (d : Delivery Q A E M) : State S Q A E M :=
  match d.rest with
  | .ret _ => { st with acknowledged := st.acknowledged ++ [d.record] }
  | .stop _ => st
  | .call .. => { st with inFlight := d :: st.inFlight }

/-- the request of a delivery is served, and the delivery taken out -/
def take (st : State S Q A E M) (index : ℕ) (served : Served S A M) : State S Q A E M :=
  { st with service := served.state, inFlight := st.inFlight.eraseIdx index, sink := st.sink ++ served.put }

end State

/-- what every acknowledged delivery has put is in the sink, and `P` holds of it and of the answers -/
def State.AtEnds (P : ℕ → List M → List A → Prop) (st : State S Q A E M) : Prop :=
  ∀ r ∈ st.acknowledged, r.put.Sublist st.sink ∧ P r.event r.put r.answers

/-- every acknowledged delivery has put what its event owes, in this order and nothing else -/
def State.LosesNothing (owed : ℕ → List M) (st : State S Q A E M) : Prop := st.AtEnds fun event put _ => put = owed event

def step (st : State S Q A E M) : Op O → State S Q A E M
  | .deliver event => st.place ⟨⟨event, [], []⟩, handler event⟩
  | .serve index o =>
    match st.inFlight[index]? with
    | some ⟨record, .call q k⟩ =>
      let served := srv.serve st.service q o
      (st.take index served).place
        ⟨⟨record.event, record.put ++ served.put, record.answers ++ [served.answer]⟩, k served.answer⟩
    | _ => st
  | .restart => { st with service := srv.restart st.service, inFlight := [] }

/-! ## The ends of a handler -/

/-- `P` holds of what has been put and of the answers wherever the program comes to its end -/
def Ends (P : List M → List A → Prop) : Prog Q A E Unit → List M → List A → Prop
  | .ret _, put, answers => P put answers
  | .stop _, _, _ => True
  | .call q k, put, answers => ∀ s o, Ends P (k (srv.serve s q o).answer) (put ++ (srv.serve s q o).put)
      (answers ++ [(srv.serve s q o).answer])

variable {srv handler}

/-- every delivery is on its way to an end with `P`, and what it has put is in the sink -/
structure Kept (srv : Service S Q O A M) (P : ℕ → List M → List A → Prop) (st : State S Q A E M) : Prop where
  inFlight : ∀ d ∈ st.inFlight, d.record.put.Sublist st.sink ∧
    Ends srv (P d.record.event) d.rest d.record.put d.record.answers
  acknowledged : st.AtEnds P

theorem Kept.place {P : ℕ → List M → List A → Prop} {st : State S Q A E M} (h : Kept srv P st) {d : Delivery Q A E M}
    (hput : d.record.put.Sublist st.sink) (hends : Ends srv (P d.record.event) d.rest d.record.put d.record.answers) :
    Kept srv P (st.place d) := by
  obtain ⟨record, rest⟩ := d
  cases rest with
  | ret a =>
    refine ⟨h.inFlight, fun r hr => ?_⟩
    rcases List.mem_append.1 hr with hr | hr
    · exact h.acknowledged r hr
    · exact List.mem_singleton.1 hr ▸ ⟨hput, hends⟩
  | stop e => exact h
  | call q k =>
    refine ⟨fun d hd => ?_, h.acknowledged⟩
    rcases List.mem_cons.1 hd with rfl | hd
    · exact ⟨hput, hends⟩
    · exact h.inFlight d hd

theorem kept_step {P : ℕ → List M → List A → Prop} (hhandler : ∀ i, Ends srv (P i) (handler i) [] [])
    (st : State S Q A E M) (op : Op O) (h : Kept srv P st) : Kept srv P (step srv handler st op) := by
  cases op with
  | deliver event => exact h.place (List.nil_sublist _) (hhandler event)
  | restart => exact ⟨fun d hd => (by cases hd), h.acknowledged⟩
  | serve index o =>
    rw [step]
    split
    · next record q k hd =>
      obtain ⟨hput, hends⟩ := h.inFlight _ (List.mem_of_getElem? hd)
      have hgrow : st.sink.Sublist (st.sink ++ (srv.serve st.service q o).put) := List.sublist_append_left _ _
      have hserved : Kept srv P (st.take index (srv.serve st.service q o)) :=
        ⟨fun d' hd' => (h.inFlight d' (List.mem_of_mem_eraseIdx hd')).imp_left (·.trans hgrow),
          fun r hr => (h.acknowledged r hr).imp_left (·.trans hgrow)⟩
      exact hserved.place (hput.append_right _) (hends st.service o)
    · exact h

/-- **What holds at every end of a handler holds of every acknowledged delivery**, whatever runs at the same time. -/
theorem acknowledged_ends {P : ℕ → List M → List A → Prop} (hhandler : ∀ i, Ends srv (P i) (handler i) [] []) (s : S)
    (ops : List (Op O)) : (run (step srv handler) (.new s) ops).AtEnds P := by
  have hnew : Kept srv P (State.new s : State S Q A E M) := ⟨fun d hd => (by cases hd), fun r hr => (by cases hr)⟩
  exact (run_inv (kept_step hhandler) _ ops hnew).acknowledged

/-! ## One delivery at a time -/

variable (srv) in
/-- as `Ends`, where no one else uses the service -/
def EndsFrom (P : List M → List A → Prop) : S → Prog Q A E Unit → List M → List A → Prop
  | _, .ret _, put, answers => P put answers
  | _, .stop _, _, _ => True
  | s, .call q k, put, answers => ∀ o, EndsFrom P (srv.serve s q o).state (k (srv.serve s q o).answer)
      (put ++ (srv.serve s q o).put) (answers ++ [(srv.serve s q o).answer])

/-- an event is delivered when no other one is handled -/
def Serial (st : State S Q A E M) : Op O → Prop
  | .deliver _ => st.inFlight = []
  | .serve _ _ => True
  | .restart => True

structure KeptSerial (srv : Service S Q O A M) (P : ℕ → List M → List A → Prop) (st : State S Q A E M) : Prop where
  single : st.inFlight.length ≤ 1
  inFlight : ∀ d ∈ st.inFlight, d.record.put.Sublist st.sink ∧
    EndsFrom srv (P d.record.event) st.service d.rest d.record.put d.record.answers
  acknowledged : st.AtEnds P

theorem KeptSerial.place {P : ℕ → List M → List A → Prop} {st : State S Q A E M} (h : KeptSerial srv P st)
    (hnone : st.inFlight = []) {d : Delivery Q A E M} (hput : d.record.put.Sublist st.sink)
    (hends : EndsFrom srv (P d.record.event) st.service d.rest d.record.put d.record.answers) :
    KeptSerial srv P (st.place d) := by
  obtain ⟨record, rest⟩ := d
  cases rest with
  | ret a =>
    refine ⟨h.single, h.inFlight, fun r hr => ?_⟩
    rcases List.mem_append.1 hr with hr | hr
    · exact h.acknowledged r hr
    · exact List.mem_singleton.1 hr ▸ ⟨hput, hends⟩
  | stop e => exact h
  | call q k =>
    refine ⟨?_, fun d hd => ?_, h.acknowledged⟩
    · rw [State.place, hnone]
      exact le_refl 1
    · rw [State.place, hnone] at hd
      obtain rfl := List.mem_singleton.1 hd
      exact ⟨hput, hends⟩

theorem keptSerial_step {P : ℕ → List M → List A → Prop} (hhandler : ∀ i s, EndsFrom srv (P i) s (handler i) [] [])
    (st : State S Q A E M) (op : Op O) (h : KeptSerial srv P st) (hserial : Serial st op) :
    KeptSerial srv P (step srv handler st op) := by
  cases op with
  | deliver event => exact h.place hserial (List.nil_sublist _) (hhandler event st.service)
  | restart => exact ⟨Nat.zero_le 1, fun d hd => (by cases hd), h.acknowledged⟩
  | serve index o =>
    rw [step]
    split
    · next record q k hd =>
      obtain ⟨hindex, hget⟩ := List.getElem?_eq_some_iff.1 hd
      have hlength := h.single
      have hnone : st.inFlight.eraseIdx index = [] := by
        rw [← List.length_eq_zero_iff, List.length_eraseIdx_of_lt hindex]
        omega
      obtain ⟨hput, hends⟩ := h.inFlight _ (List.mem_of_getElem? hd)
      have hgrow : st.sink.Sublist (st.sink ++ (srv.serve st.service q o).put) := List.sublist_append_left _ _
      have hserved : KeptSerial srv P (st.take index (srv.serve st.service q o)) := by
        refine ⟨?_, fun d' hd' => ?_, fun r hr => (h.acknowledged r hr).imp_left (·.trans hgrow)⟩
        · rw [State.take, hnone]
          exact Nat.zero_le 1
        · rw [State.take, hnone] at hd'
          cases hd'
      exact hserved.place hnone (hput.append_right _) (hends o)
    · exact h

/-- **What holds at every end of a handler that runs alone** holds of every acknowledged delivery of a run in which no two
events are handled at the same time. -/
theorem acknowledged_endsFrom {P : ℕ → List M → List A → Prop} (hhandler : ∀ i s, EndsFrom srv (P i) s (handler i) [] [])
    (s : S) {ops : List (Op O)} (hserial : Meets (step srv handler) Serial (.new s) ops) :
    (run (step srv handler) (.new s) ops).AtEnds P := by
  have hnew : KeptSerial srv P (State.new s : State S Q A E M) :=
    ⟨Nat.zero_le 1, fun d hd => (by cases hd), fun r hr => (by cases hr)⟩
  exact (hserial.inv (fun st op _ h hop => keptSerial_step hhandler st op h hop) hnew).acknowledged

/-! ## Programs that put what they owe -/

variable (srv) in
/-- whatever the outcomes, the program puts what it owes in its order, and comes to its end only when it has put all -/
def InOrder : Prog Q A E Unit → List M → Prop
  | .ret _, owed => owed = []
  | .stop _, _ => True
  | .call q k, owed => ∀ s o, ∃ rest, owed = (srv.serve s q o).put ++ rest ∧ InOrder (k (srv.serve s q o).answer) rest

namespace InOrder

theorem ret : InOrder srv (.ret () : Prog Q A E Unit) [] := rfl

theorem stop (e : E) (owed : List M) : InOrder srv (.stop e) owed := trivial

/-- a request that puts all or stops the program -/
theorem send {q : Q} {k : A → Prog Q A E Unit} {owed : List M}
    (h : ∀ s o, (srv.serve s q o).put = owed ∧ k (srv.serve s q o).answer = .ret () ∨
      (srv.serve s q o).put <+: owed ∧ ∃ e, k (srv.serve s q o).answer = .stop e) : InOrder srv (.call q k) owed := by
  intro s o
  obtain ⟨hput, hk⟩ | ⟨⟨rest, hput⟩, e, hk⟩ := h s o
  · exact ⟨[], by rw [hput, List.append_nil], hk ▸ ret⟩
  · exact ⟨rest, hput.symm, hk ▸ stop e rest⟩

theorem bind {p : Prog Q A E Unit} {f : Unit → Prog Q A E Unit} {owed owed' : List M} (hp : InOrder srv p owed)
    (hf : ∀ a, InOrder srv (f a) owed') : InOrder srv (p.bind f) (owed ++ owed') := by
  induction p generalizing owed with
  | ret a =>
    obtain rfl : owed = [] := hp
    exact hf a
  | stop e => trivial
  | call q k ih =>
    intro s o
    obtain ⟨rest, rfl, hrest⟩ := hp s o
    exact ⟨rest ++ owed', List.append_assoc _ _ _, ih _ hrest⟩

theorem forEach {f : ι → Prog Q A E Unit} {owed : ι → List M} {l : List ι} (h : ∀ i ∈ l, InOrder srv (f i) (owed i)) :
    InOrder srv (Prog.forEach f l) (l.flatMap owed) := by
  induction l with
  | nil => exact ret
  | cons i l ih =>
    rw [List.flatMap_cons]
    exact (h i List.mem_cons_self).bind fun _ => ih fun j hj => h j (List.mem_cons_of_mem i hj)

theorem forEach_map {f : ι → Prog Q A E Unit} {owed : ι → M} (h : ∀ i, InOrder srv (f i) [owed i]) (l : List ι) :
    InOrder srv (Prog.forEach f l) (l.map owed) := by
  rw [List.map_eq_flatMap]
  exact forEach fun i _ => h i

theorem ends {p : Prog Q A E Unit} {owed : List M} (h : InOrder srv p owed) {put : List M} {answers : List A} :
    Ends srv (fun put' _ => put' = put ++ owed) p put answers := by
  induction p generalizing owed put answers with
  | ret a =>
    obtain rfl : owed = [] := h
    exact (List.append_nil put).symm
  | stop e => trivial
  | call q k ih =>
    intro s o
    obtain ⟨rest, rfl, hrest⟩ := h s o
    rw [← List.append_assoc]
    exact ih _ hrest

end InOrder

/-- **Every acknowledged delivery has put all that it owes**, and nothing else. -/
theorem acknowledged_inOrder {owed : ℕ → List M} (hhandler : ∀ i, InOrder srv (handler i) (owed i)) (s : S)
    (ops : List (Op O)) : (run (step srv handler) (.new s) ops).LosesNothing owed :=
  acknowledged_ends (fun i => (hhandler i).ends) s ops

/-! ## Events in their order -/

/-- a delivery with nothing else going on: the state it leaves, what it puts, and whether it is acknowledged; the process
ends where there is no outcome -/
def alone (srv : Service S Q O A M) (s : S) : Prog Q A E Unit → List O → S × List M × Bool
  | .ret _, _ => (s, [], true)
  | .stop _, _ => (s, [], false)
  | .call _ _, [] => (srv.restart s, [], false)
  | .call q k, o :: outcomes =>
    let served := srv.serve s q o
    let after := alone srv served.state (k served.answer) outcomes
    (after.1, served.put ++ after.2.1, after.2.2)

/-- a queue that delivers the events in their order; `next` is the first one that is not acknowledged -/
structure Queue (S M : Type) where
  service : S
  next : ℕ
  sink : List M

inductive Turn (O : Type) where
  /-- the next event is delivered, and the queue hears of the acknowledgement or not -/
  | attempt (outcomes : List O) (heard : Bool)
  /-- what was acknowledged is delivered again from an event on -/
  | back (event : ℕ)

def turn (srv : Service S Q O A M) {V : Type} (handler : V → Prog Q A E Unit) (events : List V) (st : Queue S M) :
    Turn O → Queue S M
  | .attempt outcomes heard =>
    match events[st.next]? with
    | none => st
    | some event =>
      let after := alone srv st.service (handler event) outcomes
      ⟨after.1, if after.2.2 && heard then st.next + 1 else st.next, st.sink ++ after.2.1⟩
  | .back event => { st with next := min event st.next }

theorem InOrder.alone {p : Prog Q A E Unit} {owed : List M} (h : InOrder srv p owed) (s : S) (outcomes : List O) :
    (alone srv s p outcomes).2.1 <+: owed ∧
      ((Forwarding.alone srv s p outcomes).2.2 = true → (Forwarding.alone srv s p outcomes).2.1 = owed) := by
  induction p generalizing owed s outcomes with
  | ret a =>
    obtain rfl : owed = [] := h
    exact ⟨List.nil_prefix, fun _ => rfl⟩
  | stop e => exact ⟨List.nil_prefix, fun hended => (by cases hended)⟩
  | call q k ih =>
    cases outcomes with
    | nil => exact ⟨List.nil_prefix, fun hended => (by cases hended)⟩
    | cons o outcomes =>
      obtain ⟨rest, rfl, hrest⟩ := h s o
      obtain ⟨hbegin, hall⟩ := ih _ hrest (srv.serve s q o).state outcomes
      exact ⟨(List.prefix_append_right_inj _).2 hbegin, fun hended => congrArg _ (hall hended)⟩

/-- where an event begins in all that is owed -/
def offset {V : Type} (owed : V → List M) (events : List V) (i : ℕ) : ℕ := ((events.take i).flatMap owed).length

theorem offset_mono {V : Type} (owed : V → List M) (events : List V) {i j : ℕ} (h : i ≤ j) :
    offset owed events i ≤ offset owed events j := by
  have htake : (events.take i).flatMap owed <+: (events.take j).flatMap owed := by
    obtain ⟨more, hmore⟩ : events.take i <+: events.take j := List.take_prefix_take_left h
    exact ⟨more.flatMap owed, by rw [← hmore, List.flatMap_append]⟩
  exact htake.length_le

/-- **What arrives is a reading of all that is owed**, in its order and with redelivery. -/
theorem reads_attempts {V : Type} {handler : V → Prog Q A E Unit} {owed : V → List M}
    (hhandler : ∀ v, InOrder srv (handler v) (owed v)) (events : List V) (s : S) (turns : List (Turn O)) :
    let st := run (turn srv handler events) ⟨s, 0, []⟩ turns
    Redelivery.Reads (events.flatMap owed) 0 st.sink (offset owed events st.next) := by
  have hturn : ∀ (st : Queue S M) (t : Turn O),
      Redelivery.Reads (events.flatMap owed) 0 st.sink (offset owed events st.next) →
      Redelivery.Reads (events.flatMap owed) 0 (turn srv handler events st t).sink
        (offset owed events (turn srv handler events st t).next) := by
    intro st t h
    cases t with
    | back event =>
      have hend := h.trans (.back (offset_mono owed events (min_le_right event st.next)) (.stop _))
      rwa [List.append_nil] at hend
    | attempt outcomes heard =>
      rw [turn]
      cases hevent : events[st.next]? with
      | none => exact h
      | some event =>
        obtain ⟨hnext, rfl⟩ := List.getElem?_eq_some_iff.1 hevent
        obtain ⟨⟨missing, hmissing⟩, hall⟩ := (hhandler events[st.next]).alone st.service outcomes
        have hlog : events.flatMap owed = (events.take st.next).flatMap owed ++
            (alone srv st.service (handler events[st.next]) outcomes).2.1 ++
              (missing ++ (events.drop (st.next + 1)).flatMap owed) := by
          rw [List.append_assoc, ← List.append_assoc _ missing, hmissing, ← List.flatMap_cons, ← List.flatMap_append,
            ← List.drop_eq_getElem_cons hnext, List.take_append_drop]
        have hread := h.trans (Redelivery.Reads.segment hlog (le_refl _))
        dsimp only
        split_ifs with hend
        · have hput := hall (Bool.and_eq_true_iff.1 hend).1
          rw [hput] at hread ⊢
          rw [offset, List.take_succ_eq_append_getElem hnext, List.flatMap_append, List.flatMap_singleton,
            List.length_append]
          exact hread
        · have hback := hread.trans (.back (Nat.le_add_right _ _) (.stop _))
          rwa [List.append_nil] at hback
  exact run_inv hturn _ turns (.stop 0)

/-- **Whoever keeps the last value of each key** has, when every event is acknowledged, what the messages of the events leave
behind that are put once each and in order. -/
theorem apply_attempts {V K W : Type} [DecidableEq K] {handler : V → Prog Q A E Unit} {owed : V → List M}
    (hhandler : ∀ v, InOrder srv (handler v) (owed v)) {events : List V} {s : S} {turns : List (Turn O)}
    (hall : (run (turn srv handler events) ⟨s, 0, []⟩ turns).next = events.length) (writes : M → List (K × W)) (f : K → W) :
    Writes.apply f ((run (turn srv handler events) ⟨s, 0, []⟩ turns).sink.flatMap writes) =
      Writes.apply f ((events.flatMap owed).flatMap writes) := by
  have hread := (reads_attempts hhandler events s turns).flatMap writes
  rw [hall, offset, List.take_length, List.take_length, List.take_zero, List.flatMap_nil, List.length_nil] at hread
  exact hread.apply_eq f

end DrasiPlatform.Forwarding
