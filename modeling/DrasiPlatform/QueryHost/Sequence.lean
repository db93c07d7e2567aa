/-
Do the sequence numbers of a query increase? A worker's sequence manager starts from the stored number, and a persist task
stores what the manager sends on its watch channel: the latest number, and once more when the manager is dropped. The
channel starts with the default number 0. A manager that is dropped before its first increment therefore has 0 stored: a
start that skips the bootstrap and fails to open the change stream resets the sequence.

- `Phase`, `Fits`: where a worker is with its manager, and what holds of the number, the task and what was published.
- `Phase.step`, `fits_step`, `next_phase`: one effect at a time, and every step of the program.
- `SequenceInv`, `step_sequence`, `run_sequence`: the invariant of the whole host.
- `sequence_increases`: in every run between configure and deprovision, with graceful shutdowns, failures and re-activations,
  the published numbers strictly increase if
  · a manager is created on a persistent index (or before anything was published) and after every earlier persist task has
    ended;
  · a manager is dropped only after an increment, or with 0 stored;
  · the last write of a persist task succeeds, and no number reaches 2^64.
Witness: `sequence_starts_over` (shutdown and re-activation, then the stream does not open once: 1, 2, 3, 4, 1).
-/
import Mathlib.Tactic
import DrasiPlatform.QueryHost.Provisioned

namespace DrasiPlatform.QueryHost

variable {Change Index Row : Type}

/-! ## A manager and its numbers -/

/-- the numbers of a worker: what was published, what its index holds, the manager's number and its persist task -/
structure Numbers where
  published : List ℕ
  stored : ℕ
  sequence : ℕ
  persist : PersistTask

def Host.sequences (s : Host Change Index Row) : List ℕ := s.topic.map fun p => p.1.sequence

def Host.numbers (s : Host Change Index Row) (i : ℕ) : Numbers :=
  ⟨s.sequences, (s.storeOf i).sequence, (s.worker i).sequence, (s.worker i).persist⟩

/-- one effect on the numbers -/
def Numbers.apply (isVolatile : Bool) (m : Numbers) : Effect Change Row → Numbers
  | .newIndex => if isVolatile then { m with stored := 0 } else m
  | .newSequence => { m with sequence := m.stored, persist := ⟨true, 0, false, false, none⟩ }
  | .increment => { m with sequence := increment m.sequence, persist := m.persist.send (increment m.sequence) }
  | .publishChange _ _ => { m with published := m.published ++ [m.sequence] }
  | .publishControl _ _ => { m with published := m.published ++ [m.sequence] }
  | .drop => { m with persist := { m.persist with closed := true } }
  | _ => m

/-- writing an index without its sequence -/
theorem setStore_numbers (s : Host Change Index Row) (i : ℕ) {st : Store Index} (h : st.sequence = (s.storeOf i).sequence) :
    (s.setStore i st).numbers i = s.numbers i ∧ (s.setStore i st).store.sequence = s.store.sequence := by
  unfold Host.setStore
  cases hv : (s.worker i).spec.isVolatile with
  | true => simp_all [Host.numbers, Host.sequences, Host.storeOf, Host.setWorker]
  | false => simp_all [Host.numbers, Host.sequences, Host.storeOf]

theorem establish_numbers (s : Host Change Index Row) (i : ℕ) (r : Resource) :
    (s.establish i r).numbers i = s.numbers i ∧ (s.establish i r).store.sequence = s.store.sequence := by
  unfold Host.establish
  split <;> exact ⟨rfl, rfl⟩

theorem remove_numbers (s : Host Change Index Row) (i : ℕ) (r : Resource) :
    (s.remove i r).numbers i = s.numbers i ∧ (s.remove i r).store.sequence = s.store.sequence := by
  unfold Host.remove
  split <;> exact ⟨rfl, rfl⟩

theorem exec_numbers (Q : ContinuousQuery Change Index Row) (i : ℕ) (s : Host Change Index Row) (e : Effect Change Row) :
    (exec Q i s e).numbers i = (s.numbers i).apply (s.worker i).spec.isVolatile e ∧
      (exec Q i s e).store.sequence = s.store.sequence := by
  cases e with
  | setState _ | ack => exact ⟨rfl, rfl⟩
  | publishChange _ _ | publishControl _ _ =>
    refine ⟨?_, rfl⟩
    simp [exec, Host.publish, Host.numbers, Host.sequences, Numbers.apply, ResultEvent.sequence]
    rfl
  | newIndex =>
    refine ⟨?_, rfl⟩
    simp only [exec, Host.numbers, Host.storeOf, setWorker_self, Numbers.apply]
    split <;> rfl
  | newSequence | increment | takeCommand | drop =>
    refine ⟨?_, rfl⟩
    simp [exec, Host.numbers, Host.sequences, Host.storeOf, Numbers.apply, Host.setWorker]
  | clearIndex | bootstrapped => exact setStore_numbers s i rfl
  | process change =>
    simp only [exec, establish_numbers]
    exact setStore_numbers s i rfl
  | subscribe source => exact establish_numbers s i _
  | openStream => exact establish_numbers s i _
  | deleteIndex =>
    simp only [exec, remove_numbers]
    exact setStore_numbers s i rfl
  | deleteConsumer pending => exact remove_numbers _ i _
  | unsubscribe source => exact remove_numbers s i _

theorem foldl_exec_numbers (Q : ContinuousQuery Change Index Row) (i : ℕ) (s : Host Change Index Row)
    (es : List (Effect Change Row)) :
    (es.foldl (exec Q i) s).numbers i = es.foldl (Numbers.apply (s.worker i).spec.isVolatile) (s.numbers i) ∧
      (es.foldl (exec Q i) s).store.sequence = s.store.sequence := by
  induction es generalizing s with
  | nil => exact ⟨rfl, rfl⟩
  | cons e es ih =>
    obtain ⟨h1, h2⟩ := ih (exec Q i s e)
    obtain ⟨h3, h4⟩ := exec_numbers Q i s e
    rw [(exec_worker Q s i i e).2, h3] at h1
    exact ⟨h1, h2.trans h4⟩

/-! ## Phases -/

/-- where a worker is with its sequence manager -/
inductive Phase where
  /-- it has none yet -/
  | before
  /-- it has one, which may not have sent a number -/
  | opened
  /-- the manager's number was sent -/
  | sent
  /-- a number was taken and not published yet -/
  | pending
  /-- the worker has finished -/
  | done
deriving DecidableEq

def Pc.phase : Pc Change Row → Phase
  | .build | .tryBuild | .connect | .configureView | .checkVolatile | .newSequence => .before
  | .decideBootstrap | .clearIndexes | .bootstrapStarted | .setRunning | .openStream | .publishRunning => .opened
  | .bootstrapPublish _ _ | .publishResults _ => .pending
  | .finished => .done
  | _ => .sent

/-- a manager at work: its task runs, and does not do its last write -/
structure Open (p : PersistTask) : Prop where
  running : p.running = true
  closed : p.closed = false
  last : ∀ v, p.inFlight ≠ some (v, true)

/-- what holds in a phase -/
def Fits (m : Numbers) : Phase → Prop
  | .before => m.persist.running = false
  | .opened => Open m.persist ∧ ∀ n ∈ m.published, n ≤ m.sequence
  | .sent => Open m.persist ∧ m.persist.value = m.sequence ∧ ∀ n ∈ m.published, n ≤ m.sequence
  | .pending => Open m.persist ∧ m.persist.value = m.sequence ∧ ∀ n ∈ m.published, n < m.sequence
  | .done => m.persist.running = true → m.persist.closed = true ∧ m.persist.value = m.sequence ∧
      (∀ v, m.persist.inFlight = some (v, true) → v = m.persist.value) ∧ ∀ n ∈ m.published, n ≤ m.sequence

/-- the phase after an effect; a manager is created apart from this -/
def Phase.step : Phase → Effect Change Row → Option Phase
  | .before, .drop => some .done
  | .opened, .increment => some .pending
  | .sent, .increment => some .pending
  | .pending, .publishChange _ _ => some .sent
  | .pending, .publishControl _ _ => some .sent
  | .sent, .drop => some .done
  | _, .newSequence | _, .increment | _, .publishChange _ _ | _, .publishControl _ _ | _, .drop => none
  | ph, _ => some ph

def Phase.run : Phase → List (Effect Change Row) → Option Phase
  | ph, [] => some ph
  | ph, e :: es => (ph.step e).bind fun ph' => ph'.run es

/-- the numbers that effects take -/
def increments (es : List (Effect Change Row)) : ℕ := es.countP fun | .increment => true | _ => false

theorem increment_eq {n : ℕ} (h : n + 1 < 2 ^ 64) : increment n = n + 1 := Nat.mod_eq_of_lt h

/-- **One effect**: the phase says what the numbers do, and they increase. -/
theorem fits_step {isVolatile : Bool} {m : Numbers} {ph ph' : Phase} {e : Effect Change Row} (h : Fits m ph)
    (hsorted : m.published.Pairwise (· < ·)) (hs : ph.step e = some ph') (hroom : m.sequence + increments [e] < 2 ^ 64) :
    Fits (m.apply isVolatile e) ph' ∧ (m.apply isVolatile e).published.Pairwise (· < ·) := by
  have hpublish : Fits m .pending → Fits { m with published := m.published ++ [m.sequence] } .sent ∧
      (m.published ++ [m.sequence]).Pairwise (· < ·) := by
    rintro ⟨hopen, hvalue, hlt⟩
    refine ⟨⟨hopen, hvalue, fun n hn => ?_⟩, ?_⟩
    · rcases List.mem_append.1 hn with hn | hn
      · exact (hlt n hn).le
      · rw [List.mem_singleton.1 hn]
    · refine List.pairwise_append.2 ⟨hsorted, List.pairwise_singleton .., fun a ha b hb => ?_⟩
      rw [List.mem_singleton.1 hb]
      exact hlt a ha
  have hincrement : Open m.persist → (∀ n ∈ m.published, n ≤ m.sequence) → m.sequence + 1 < 2 ^ 64 →
      Fits (m.apply isVolatile (.increment : Effect Change Row)) .pending := by
    intro hopen hle hr
    refine ⟨⟨hopen.running, hopen.closed, hopen.last⟩, rfl, fun n hn => ?_⟩
    simp only [Numbers.apply, increment_eq hr]
    exact Nat.lt_succ_of_le (hle n hn)
  cases e with
  | newSequence => cases ph <;> cases hs
  | increment =>
    cases ph with
    | opened => cases hs; exact ⟨hincrement h.1 h.2 hroom, hsorted⟩
    | sent => cases hs; exact ⟨hincrement h.1 h.2.2 hroom, hsorted⟩
    | before | pending | done => cases hs
  | publishChange _ _ | publishControl _ _ =>
    cases ph with
    | pending => cases hs; exact hpublish h
    | before | opened | sent | done => cases hs
  | drop =>
    cases ph with
    | before =>
      cases hs
      refine ⟨fun hr => ?_, hsorted⟩
      change m.persist.running = true at hr
      rw [show m.persist.running = false from h] at hr
      cases hr
    | sent =>
      cases hs
      obtain ⟨hopen, hvalue, hle⟩ := h
      exact ⟨fun _ => ⟨rfl, hvalue, fun v hv => absurd hv (hopen.last v), hle⟩, hsorted⟩
    | opened | pending | done => cases hs
  | newIndex =>
    have hsame : Fits (m.apply isVolatile (.newIndex : Effect Change Row)) ph ∧
        (m.apply isVolatile (.newIndex : Effect Change Row)).published.Pairwise (· < ·) := by
      cases isVolatile <;> cases ph <;> exact ⟨h, hsorted⟩
    cases ph <;> cases hs <;> exact hsame
  | _ => cases ph <;> cases hs <;> exact ⟨h, hsorted⟩

theorem run_cons_some {ph ph' : Phase} {e : Effect Change Row} {es : List (Effect Change Row)}
    (h : ph.run (e :: es) = some ph') : ∃ ph1, ph.step e = some ph1 ∧ ph1.run es = some ph' :=
  Option.bind_eq_some_iff.1 h

/-- an effect takes a number or leaves it -/
theorem apply_sequence {isVolatile : Bool} {m : Numbers} {ph ph' : Phase} {e : Effect Change Row} (hs : ph.step e = some ph')
    (hroom : m.sequence + increments [e] < 2 ^ 64) : (m.apply isVolatile e).sequence = m.sequence + increments [e] := by
  cases e with
  | increment => exact increment_eq hroom
  | newSequence => cases ph <;> cases hs
  | newIndex => cases isVolatile <;> rfl
  | _ => rfl

/-- **A list of effects**, with the phases it goes through. -/
theorem fits_run {isVolatile : Bool} {es : List (Effect Change Row)} {m : Numbers} {ph ph' : Phase} (h : Fits m ph)
    (hsorted : m.published.Pairwise (· < ·)) (hr : ph.run es = some ph') (hroom : m.sequence + increments es < 2 ^ 64) :
    Fits (es.foldl (Numbers.apply isVolatile) m) ph' ∧
      (es.foldl (Numbers.apply isVolatile) m).published.Pairwise (· < ·) := by
  induction es generalizing m ph with
  | nil => cases hr; exact ⟨h, hsorted⟩
  | cons e es ih =>
    obtain ⟨ph1, hs, hr⟩ := run_cons_some hr
    have hsplit : increments (e :: es) = increments [e] + increments es := by
      rw [increments, List.countP_cons, Nat.add_comm]
      simp [increments, List.countP_cons]
    have hroom1 : m.sequence + increments [e] < 2 ^ 64 := by omega
    obtain ⟨h1, hsorted1⟩ := fits_step h hsorted hs hroom1
    exact ih h1 hsorted1 hr (by rw [apply_sequence hs hroom1]; omega)

/-- effects without a new manager leave its task running or not, and its write in flight -/
theorem apply_task {ph ph' : Phase} {es : List (Effect Change Row)} (isVolatile : Bool) (m : Numbers)
    (hr : ph.run es = some ph') :
    (es.foldl (Numbers.apply isVolatile) m).persist.running = m.persist.running ∧
      (es.foldl (Numbers.apply isVolatile) m).persist.inFlight = m.persist.inFlight := by
  induction es generalizing m ph with
  | nil => exact ⟨rfl, rfl⟩
  | cons e es ih =>
    obtain ⟨ph1, hs, hr⟩ := run_cons_some hr
    obtain ⟨h1, h2⟩ := ih (m.apply isVolatile e) hr
    have hone : (m.apply isVolatile e).persist.running = m.persist.running ∧
        (m.apply isVolatile e).persist.inFlight = m.persist.inFlight := by
      cases e with
      | newSequence => cases ph <;> cases hs
      | newIndex => cases isVolatile <;> exact ⟨rfl, rfl⟩
      | _ => exact ⟨rfl, rfl⟩
    exact ⟨h1.trans hone.1, h2.trans hone.2⟩

/-- a worker without a manager publishes nothing -/
theorem apply_silent {ph ph' : Phase} {es : List (Effect Change Row)} (isVolatile : Bool) (m : Numbers)
    (hr : ph.run es = some ph') (hph : ph = .before ∨ ph = .done) :
    (es.foldl (Numbers.apply isVolatile) m).published = m.published := by
  induction es generalizing m ph with
  | nil => rfl
  | cons e es ih =>
    obtain ⟨ph1, hs, hr⟩ := run_cons_some hr
    have hone : (m.apply isVolatile e).published = m.published ∧ (ph1 = .before ∨ ph1 = .done) := by
      cases e with
      | newIndex => rcases hph with rfl | rfl <;> cases hs <;> cases isVolatile <;> simp [Numbers.apply]
      | _ => rcases hph with rfl | rfl <;> cases hs <;> simp [Numbers.apply]
    exact (ih (m.apply isVolatile e) hr hone.2).trans hone.1

/-! ## The program -/

/-- a manager is created -/
def opensManager : Pc Change Row → Event Change → Bool
  | .newSequence, .ok => true
  | _, _ => false

/-- the worker ends after its manager was created and before it published anything -/
def quits (v : View Change Index) : Pc Change Row → Event Change → Bool
  | .openStream, .fail _ => true
  | .decideBootstrap, .ok =>
    match v.state with
    | .terminalError _ => true
    | _ => false
  | _, _ => false

/-- **Every step of the program** goes through the phases. -/
theorem next_phase [DecidableEq Row] {Q : ContinuousQuery Change Index Row} {spec : QuerySpec} {v : View Change Index}
    {pc pc' : Pc Change Row} {event : Event Change} {es : List (Effect Change Row)} (h : next Q spec v pc event = some (pc', es)) :
    (opensManager pc event = true ∧ pc'.phase = .opened ∧ pc.phase = .before ∧ es = [.newSequence]) ∨
    ∃ ph, Phase.run (if quits v pc event then .sent else pc.phase) es = some ph ∧
      (ph = pc'.phase ∨ ph = .sent ∧ pc'.phase = .opened) ∧ increments es ≤ 1 := by
  have hsource : ∀ sources : List String, (nextSource sources : Pc Change Row).phase = .sent := fun sources => by
    cases sources <;> rfl
  have hunsubscribe : ∀ sources : List String, (nextUnsubscribe sources : Pc Change Row).phase = .sent := fun sources => by
    cases sources <;> rfl
  cases hst : pc.inStartup with
  | true =>
    rw [next_of_inStartup hst] at h
    unfold startup at h
    split at h
    case h_9 =>
      cases h
      refine .inr ⟨.before, ?_, .inl rfl, ?_⟩
      · change Phase.run .before _ = _
        split <;> rfl
      · split <;> simp [increments]
    case h_10 => cases h; exact .inl ⟨rfl, rfl, rfl, rfl⟩
    case h_12 =>
      split at h
      all_goals
        cases h
        rename_i hs
        simp [quits, hs, Phase.run, Phase.step, Pc.phase, increments]
    all_goals cases h
    all_goals first
      | exact .inr ⟨_, rfl, .inl rfl, by simp [increments, control]⟩
      | exact .inr ⟨_, rfl, .inr ⟨rfl, rfl⟩, by simp [increments, control]⟩
      | exact .inr ⟨_, rfl, .inl (hsource _).symm, by simp [increments]⟩
  | false =>
    rw [next_of_not_inStartup hst] at h
    unfold mainLoop at h
    split at h
    case h_1 =>
      split at h
      all_goals cases h
      all_goals exact .inr ⟨_, rfl, .inl rfl, by simp [increments]⟩
    case h_3 =>
      split at h
      · split at h <;> cases h <;> exact .inr ⟨_, rfl, .inl rfl, by simp [increments]⟩
      · cases h
    case h_4 =>
      split at h
      · simp only at h
        split at h <;> cases h <;> exact .inr ⟨_, rfl, .inl rfl, by simp [increments]⟩
      · cases h; exact .inr ⟨_, rfl, .inl rfl, by simp [increments]⟩
    all_goals cases h
    all_goals first
      | exact .inr ⟨_, rfl, .inl rfl, by simp [increments, control]⟩
      | exact .inr ⟨_, rfl, .inl (hunsubscribe _).symm, by simp [increments]⟩

/-! ## The invariant of the host -/

structure SequenceInv (s : Host Change Index Row) : Prop where
  sorted : s.sequences.Pairwise (· < ·)
  fits : ∀ i, Fits (s.numbers i) (s.worker i).pc.phase
  quiet : ∀ i, (s.worker i).persist.running = false → (s.worker i).persist.inFlight = none
  /-- one persist task at a time -/
  alone : ∀ i j, (s.worker i).persist.running = true → (s.worker j).persist.running = true → i = j
  idle : ∀ i, s.count ≤ i → (s.worker i).persist.running = false
  /-- between two managers a persistent index holds the last number -/
  stored : (∀ i, (s.worker i).persist.running = false) → (∀ i < s.count, (s.worker i).spec.isVolatile = false) →
    ∀ n ∈ s.sequences, n ≤ s.store.sequence

/-- the condition on a step -/
def KeepsSequence (s : Host Change Index Row) : Op Change → Prop
  | .worker i event =>
    (s.worker i).sequence + 1 < 2 ^ 64 ∧
    (opensManager (s.worker i).pc event = true → ((s.worker i).spec.isVolatile = true → s.topic = []) ∧
      ∀ j < s.count, (s.worker j).persist.running = false) ∧
    (quits (s.view i) (s.worker i).pc event = true → (s.worker i).persist.value = (s.worker i).sequence)
  | .persistWrite i ok => (s.worker i).persist.inFlight.any (fun p => p.2) = true → ok = true
  | _ => True

/-- the operations of a query between configure and deprovision, without a crash of the host -/
def Op.graceful : Op Change → Bool
  | .deprovision | .crash => false
  | _ => true

/-- what a worker publishes does not matter to one whose task has ended -/
theorem Fits.of_quiet {m m' : Numbers} {ph : Phase} (h : Fits m ph) (hquiet : m.persist.running = false)
    (hp : m'.persist = m.persist) : Fits m' ph := by
  cases ph with
  | before => rw [Fits, hp]; exact hquiet
  | opened => rw [h.1.running] at hquiet; cases hquiet
  | sent => rw [h.1.running] at hquiet; cases hquiet
  | pending => rw [h.1.running] at hquiet; cases hquiet
  | done => rw [Fits, hp, hquiet]; intro hr; cases hr

/-- the stored number does not matter to a phase -/
theorem Fits.congr {m m' : Numbers} {ph : Phase} (h : Fits m ph) (hpub : m'.published = m.published)
    (hseq : m'.sequence = m.sequence) (hp : m'.persist = m.persist) : Fits m' ph := by
  cases ph <;> simpa only [Fits, hpub, hseq, hp] using h

/-- a worker whose task does not run is before its manager or after it -/
theorem Fits.phase_of_quiet {m : Numbers} {ph : Phase} (h : Fits m ph) (hquiet : m.persist.running = false) :
    ph = .before ∨ ph = .done := by
  cases ph with
  | before => exact .inl rfl
  | done => exact .inr rfl
  | opened => rw [h.1.running] at hquiet; cases hquiet
  | sent => rw [h.1.running] at hquiet; cases hquiet
  | pending => rw [h.1.running] at hquiet; cases hquiet

theorem quits_phase {v : View Change Index} {pc : Pc Change Row} {event : Event Change} (h : quits v pc event = true) :
    pc.phase = .opened := by
  unfold quits at h
  split at h
  · rfl
  · rfl
  · cases h

theorem init_sequence (Q : ContinuousQuery Change Index Row) : SequenceInv (.init Q) where
  sorted := List.Pairwise.nil
  fits _ hr := by cases hr
  quiet _ _ := rfl
  alone _ _ h := by cases h
  idle _ _ := rfl
  stored _ _ n hn := by cases hn

variable [DecidableEq Row] (Q : ContinuousQuery Change Index Row)

omit [DecidableEq Row] in
theorem goto_numbers (s : Host Change Index Row) (i : ℕ) (pc : Pc Change Row) : (s.goto i pc).numbers i = s.numbers i := by
  rw [Host.numbers, goto_storeOf]
  simp [Host.goto, Host.numbers, Host.sequences, Host.setWorker]

omit [DecidableEq Row] in
/-- a manager is created: no other is there, and the index holds the last number -/
theorem SequenceInv.create {s s' : Host Change Index Row} (hp : Provisioned s) (h : SequenceInv s) {i : ℕ}
    (hi : (s.worker i).isFinished = false) (hvol : (s.worker i).spec.isVolatile = true → s.topic = [])
    (hall : ∀ j < s.count, (s.worker j).persist.running = false) (hcount : s'.count = s.count) (htopic : s'.sequences = s.sequences)
    (hother : ∀ j, j ≠ i → s'.worker j = s.worker j) (hphase : (s'.worker i).pc.phase = .opened)
    (hsequence : (s'.worker i).sequence = (s.storeOf i).sequence)
    (hpersist : (s'.worker i).persist = ⟨true, 0, false, false, none⟩) : SequenceInv s' := by
  have hquiet : ∀ j, (s.worker j).persist.running = false := by
    intro j
    rcases lt_or_ge j s.count with hj | hj
    · exact hall j hj
    · exact h.idle j hj
  have honly : ∀ j, (s'.worker j).persist.running = true → j = i := by
    intro j hj
    by_contra hne
    rw [hother j hne, hquiet] at hj
    cases hj
  have hbound : ∀ n ∈ s.sequences, n ≤ (s.storeOf i).sequence := by
    intro n hn
    cases hv : (s.worker i).spec.isVolatile with
    | true => simp [Host.sequences, hvol hv] at hn
    | false =>
      simp only [Host.storeOf, hv, Bool.false_eq_true, if_false]
      refine h.stored hquiet (fun j hj => ?_) n hn
      have hsame := hp.specs j hj
      rw [hp.spec hi, Option.some.injEq] at hsame
      rw [← hsame, hv]
  refine ⟨by rw [htopic]; exact h.sorted, fun j => ?_, fun j hj => ?_, fun j k hj hk => ?_, fun j hj => ?_, fun hn => ?_⟩
  · by_cases hji : j = i
    · subst hji
      rw [hphase]
      refine ⟨⟨by simp [Host.numbers, hpersist], by simp [Host.numbers, hpersist], by simp [Host.numbers, hpersist]⟩, ?_⟩
      simp only [Host.numbers, htopic, hsequence]
      exact hbound
    · rw [hother j hji]
      refine (h.fits j).of_quiet (hquiet j) ?_
      simp only [Host.numbers, hother j hji]
  · by_cases hji : j = i
    · subst hji; rw [hpersist]
    · rw [hother j hji]; exact h.quiet j (hquiet j)
  · rw [honly j hj, honly k hk]
  · rw [hcount] at hj
    by_cases hji : j = i
    · subst hji; exact absurd (hp.lt_count hi) (not_lt.2 hj)
    · rw [hother j hji]; exact hquiet j
  · have := hn i
    rw [hpersist] at this
    cases this

/-- **A step of a worker** keeps the invariant. -/
theorem SequenceInv.worker {s : Host Change Index Row} (hp : Provisioned s) (h : SequenceInv s) (i : ℕ) (event : Event Change)
    (hok : KeepsSequence s (.worker i event)) : SequenceInv (workerStep Q s i event) := by
  obtain ⟨-, heq⟩ | ⟨pc, es, hn, heq, hpc, -, hspec, -, hcount⟩ := workerStep_cases Q s i event
  · rw [heq]; exact h
  have hun : (s.worker i).isFinished = false := unfinished_of_next Q hn
  obtain ⟨hnum, hstore⟩ := foldl_exec_numbers Q i (s.goto i pc) es
  rw [← heq, goto_numbers, goto_spec] at hnum
  rw [← heq] at hstore
  have hother : ∀ j, j ≠ i → (workerStep Q s i event).worker j = s.worker j := by
    intro j hj
    rw [heq, (foldl_exec_others Q (s.goto i pc) i es).1 j hj, goto_of_ne s hj]
  obtain ⟨hroom, hopens, hquits⟩ := hok
  obtain ⟨hopen, hphase, -, rfl⟩ | ⟨ph, hrun, hph, hone⟩ := next_phase hn
  · -- the manager is created
    obtain ⟨hvol, hall⟩ := hopens hopen
    refine h.create hp hun hvol hall hcount (congrArg Numbers.published hnum) hother (by rw [hpc]; exact hphase) ?_ ?_
    · exact congrArg Numbers.sequence hnum
    · exact congrArg Numbers.persist hnum
  · -- the manager's numbers go through the phases
    have hstart : Fits (s.numbers i) (if quits (s.view i) (s.worker i).pc event then .sent else (s.worker i).pc.phase) := by
      have hfits := h.fits i
      split
      · rename_i hq
        rw [quits_phase hq] at hfits
        exact ⟨hfits.1, hquits hq, hfits.2⟩
      · exact hfits
    have hroom' : (s.numbers i).sequence + increments es < 2 ^ 64 := by
      change (s.worker i).sequence + increments es < 2 ^ 64
      omega
    obtain ⟨hfits, hsorted⟩ := fits_run hstart h.sorted hrun hroom'
    obtain ⟨htask, hflight⟩ := apply_task (s.worker i).spec.isVolatile (s.numbers i) hrun
    rw [← hnum] at hfits hsorted htask hflight
    have hrunning : ∀ j, ((workerStep Q s i event).worker j).persist.running = (s.worker j).persist.running := by
      intro j
      by_cases hji : j = i
      · subst hji; exact htask
      · rw [hother j hji]
    -- a worker whose task does not run publishes nothing
    have hsilent : (s.worker i).persist.running = false → (workerStep Q s i event).sequences = s.sequences := by
      intro hquiet
      have := apply_silent (s.worker i).spec.isVolatile (s.numbers i) hrun (hstart.phase_of_quiet hquiet)
      rw [← hnum] at this
      exact this
    refine ⟨hsorted, fun j => ?_, fun j hj => ?_, fun j k hj hk => ?_, fun j hj => ?_, fun hnone hvol n hmem => ?_⟩
    · by_cases hji : j = i
      · subst hji
        rw [hpc]
        rcases hph with hph | ⟨hph, hph'⟩
        · rw [← hph]; exact hfits
        · rw [hph] at hfits
          rw [hph']
          exact ⟨hfits.1, hfits.2.2⟩
      · rw [hother j hji]
        cases hr : (s.worker j).persist.running with
        | false =>
          refine (h.fits j).of_quiet hr ?_
          simp only [Host.numbers, hother j hji]
        | true =>
          have hquiet : (s.worker i).persist.running = false := by
            by_contra hne
            exact hji (h.alone j i hr (by simpa using hne))
          refine (h.fits j).congr (hsilent hquiet) ?_ ?_
          · simp only [Host.numbers, hother j hji]
          · simp only [Host.numbers, hother j hji]
    · rw [hrunning] at hj
      by_cases hji : j = i
      · subst hji; exact hflight.trans (h.quiet j hj)
      · rw [hother j hji]; exact h.quiet j hj
    · rw [hrunning] at hj hk
      exact h.alone j k hj hk
    · rw [hrunning]
      exact h.idle j (hcount ▸ hj)
    · simp only [hrunning] at hnone
      simp only [hspec, hcount] at hvol
      rw [hsilent (hnone i)] at hmem
      rw [hstore]
      exact h.stored hnone hvol n hmem

/-! ### The persist task -/

theorem read_frame (p : PersistTask) :
    p.read.value = p.value ∧ p.read.running = p.running ∧ p.read.closed = p.closed := by
  unfold PersistTask.read
  repeat' split
  all_goals exact ⟨rfl, rfl, rfl⟩

/-- the task takes the last number only from a manager that was dropped -/
theorem read_last {p : PersistTask} {v : ℕ} (h : p.read.inFlight = some (v, true)) :
    p.inFlight = some (v, true) ∨ p.closed = true ∧ v = p.value := by
  unfold PersistTask.read at h
  split_ifs at h with hbusy hunseen hclosed
  · exact .inl h
  · simp at h
  · exact .inr ⟨hclosed, by simpa using h.symm⟩
  · exact .inl h

theorem read_quiet {p : PersistTask} (h : p.running = false → p.inFlight = none) (hr : p.read.running = false) :
    p.read.inFlight = none := by
  rw [(read_frame p).2.1] at hr
  simpa [PersistTask.read, hr] using h hr

theorem Fits.read {m : Numbers} {ph : Phase} (h : Fits m ph) : Fits { m with persist := m.persist.read } ph := by
  obtain ⟨hvalue, hrunning, hclosed⟩ := read_frame m.persist
  have hopen : Open m.persist → Open m.persist.read := by
    intro ho
    refine ⟨hrunning.trans ho.running, hclosed.trans ho.closed, fun v hv => ?_⟩
    rcases read_last hv with hv | ⟨hc, -⟩
    · exact ho.last v hv
    · rw [ho.closed] at hc; cases hc
  cases ph with
  | before => exact hrunning.trans h
  | opened => exact ⟨hopen h.1, h.2⟩
  | sent => exact ⟨hopen h.1, hvalue.trans h.2.1, h.2.2⟩
  | pending => exact ⟨hopen h.1, hvalue.trans h.2.1, h.2.2⟩
  | done =>
    intro hr
    obtain ⟨hc, hv, hlast, hle⟩ := h (hrunning ▸ hr)
    refine ⟨hclosed.trans hc, hvalue.trans hv, fun v hin => ?_, hle⟩
    rcases read_last hin with hin | ⟨-, rfl⟩
    · exact (hlast v hin).trans hvalue.symm
    · exact hvalue.symm

/-- the end of a write: the task ends with the last number, which is the manager's -/
theorem Fits.write {m : Numbers} {ph : Phase} {value : ℕ} {last : Bool} (h : Fits m ph) (hrun : m.persist.running = true)
    (hin : m.persist.inFlight = some (value, last)) :
    Fits { m with persist := { m.persist with inFlight := none, running := !last } } ph ∧
      (last = true → ∀ n ∈ m.published, n ≤ value) := by
  have hopen : Open m.persist → Open { m.persist with inFlight := none, running := !last } ∧ last = false := by
    intro ho
    cases last with
    | false => exact ⟨⟨rfl, ho.closed, by simp⟩, rfl⟩
    | true => exact absurd hin (ho.last value)
  cases ph with
  | before => rw [show m.persist.running = false from h] at hrun; cases hrun
  | opened => exact ⟨⟨(hopen h.1).1, h.2⟩, fun hl => by rw [(hopen h.1).2] at hl; cases hl⟩
  | sent => exact ⟨⟨(hopen h.1).1, h.2⟩, fun hl => by rw [(hopen h.1).2] at hl; cases hl⟩
  | pending => exact ⟨⟨(hopen h.1).1, h.2⟩, fun hl => by rw [(hopen h.1).2] at hl; cases hl⟩
  | done =>
    obtain ⟨hclosed, hvalue, hlast, hle⟩ := h hrun
    refine ⟨fun _ => ⟨hclosed, hvalue, by simp, hle⟩, fun hl => ?_⟩
    rw [hlast value (hl ▸ hin), hvalue]
    exact hle

omit [DecidableEq Row] in
/-- **A write of a persist task** keeps the invariant, if the last one succeeds. -/
theorem SequenceInv.persistWrite {s : Host Change Index Row} (h : SequenceInv s) (i : ℕ) (ok : Bool)
    (hok : KeepsSequence s (.persistWrite i ok : Op Change)) : SequenceInv (persistWrite s i ok) := by
  obtain ⟨-, heq⟩ | ⟨value, last, hin, heq⟩ := persistWrite_cases s i ok
  · rw [heq]; exact h
  have hrun : (s.worker i).persist.running = true := by
    by_contra hne
    rw [h.quiet i (by simpa using hne)] at hin
    cases hin
  obtain ⟨hfits, hlast⟩ := (h.fits i).write hrun hin
  have htopic : (QueryHost.persistWrite s i ok).sequences = s.sequences := by
    rw [Host.sequences, (persistWrite_rest s i ok).1]
    rfl
  have hpersist : ((QueryHost.persistWrite s i ok).worker i).persist =
      { (s.worker i).persist with inFlight := none, running := !last } := by
    rw [heq, setWorker_self]
  have hworker := persistWrite_worker s i ok
  have hsequence : ∀ j, ((QueryHost.persistWrite s i ok).worker j).sequence = (s.worker j).sequence := by
    intro j
    obtain ⟨memory, persist, hw, -⟩ := hworker j
    rw [hw]
  have hother : ∀ j, j ≠ i → ((QueryHost.persistWrite s i ok).worker j).persist = (s.worker j).persist := by
    intro j hj
    obtain ⟨memory, persist, hw, hp⟩ := hworker j
    rw [hw]
    exact hp hj
  have hsub : ∀ j, ((QueryHost.persistWrite s i ok).worker j).persist.running = true → (s.worker j).persist.running = true := by
    intro j hj
    by_cases hji : j = i
    · subst hji; exact hrun
    · rwa [hother j hji] at hj
  have hcount := (persistWrite_frame s i ok i).2.2.2.2.2
  refine ⟨by rw [htopic]; exact h.sorted, fun j => ?_, fun j hj => ?_, fun j k hj hk => ?_, fun j hj => ?_,
    fun hnone hvol n hn => ?_⟩
  · rw [(persistWrite_frame s i ok j).1]
    by_cases hji : j = i
    · subst hji; exact hfits.congr htopic (hsequence j) hpersist
    · exact (h.fits j).congr htopic (hsequence j) (hother j hji)
  · by_cases hji : j = i
    · subst hji; rw [hpersist]
    · rw [hother j hji] at hj ⊢; exact h.quiet j hj
  · exact h.alone j k (hsub j hj) (hsub k hk)
  · by_contra hr
    have := hsub j (by simpa using hr)
    rw [h.idle j (hcount ▸ hj)] at this
    cases this
  · -- no task runs: this was the last write, of the last number
    have hl : last = true := by
      have := hnone i
      rw [hpersist] at this
      simpa using this
    have hwritten : ok = true := hok (by simp [hin, hl])
    have hi : i < s.count := by
      by_contra hge
      rw [h.idle i (not_lt.1 hge)] at hrun
      cases hrun
    have hv : (s.worker i).spec.isVolatile = false := by
      have := hvol i (hcount ▸ hi)
      rwa [(persistWrite_frame s i ok i).2.1] at this
    have hstore : (QueryHost.persistWrite s i ok).store.sequence = value := by
      rw [heq]
      change (s.applySequence i value ok).store.sequence = value
      simp [Host.applySequence, hwritten, setStore_store, hv]
    rw [hstore]
    rw [htopic] at hn
    exact hlast hl n hn

/-! ### Every step -/

/-- **One step** keeps the invariant. -/
theorem step_sequence (s : Host Change Index Row) (op : Op Change) (hp : Provisioned s) (h : SequenceInv s)
    (hop : op.graceful = true) (hok : KeepsSequence s op) : SequenceInv (step Q s op) := by
  cases hactor : op.isActor with
  | true =>
    obtain ⟨hun, hmoved | ⟨-, spec, hst⟩⟩ := step_actor Q s op hactor
    · have hcore := hmoved.workers
      have hsequence : ∀ j, ((step Q s op).worker j).sequence = (s.worker j).sequence := fun j => congrArg (·.sequence) (hcore j)
      have hpersist : ∀ j, ((step Q s op).worker j).persist = (s.worker j).persist := fun j => congrArg (·.persist) (hcore j)
      have hspec : ∀ j, ((step Q s op).worker j).spec = (s.worker j).spec := fun j => congrArg (·.spec) (hcore j)
      have htopic : (step Q s op).sequences = s.sequences := by simp only [Host.sequences, hun.topic]
      refine ⟨by rw [htopic]; exact h.sorted, fun j => ?_, ?_, ?_, ?_, ?_⟩
      · rw [hmoved.pc]
        exact (h.fits j).congr htopic (hsequence j) (hpersist j)
      · simpa only [hpersist] using h.quiet
      · simpa only [hpersist] using h.alone
      · simpa only [hpersist, hmoved.count] using h.idle
      · simpa only [hpersist, hmoved.count, hspec, htopic, hun.store] using h.stored
    · -- the new worker has no manager yet
      have hnew : ((step Q s op).worker s.count).persist.running = false := by rw [hst.fresh]; rfl
      have hsub : ∀ j, ((step Q s op).worker j).persist.running = true → (s.worker j).persist.running = true ∧ j ≠ s.count := by
        intro j hj
        by_cases hjc : j = s.count
        · subst hjc; rw [hnew] at hj; cases hj
        · rw [hst.others j hjc] at hj; exact ⟨hj, hjc⟩
      have htopic : (step Q s op).sequences = s.sequences := by simp only [Host.sequences, hun.topic]
      refine ⟨by rw [htopic]; exact h.sorted, fun j => ?_, fun j hj => ?_, fun j k hj hk => ?_, fun j hj => ?_,
        fun hnone hvol => ?_⟩
      · by_cases hjc : j = s.count
        · subst hjc
          have hphase : ((step Q s op).worker s.count).pc.phase = .before := by rw [hst.fresh]; rfl
          rw [hphase]
          exact hnew
        · rw [hst.others j hjc]
          refine (h.fits j).congr htopic ?_ ?_
          · simp only [Host.numbers, hst.others j hjc]
          · simp only [Host.numbers, hst.others j hjc]
      · by_cases hjc : j = s.count
        · subst hjc; rw [hst.fresh]; rfl
        · rw [hst.others j hjc] at hj ⊢; exact h.quiet j hj
      · exact h.alone j k (hsub j hj).1 (hsub k hk).1
      · rw [hst.count] at hj
        rw [hst.others j (by omega)]
        exact h.idle j (by omega)
      · rw [htopic, hun.store]
        refine h.stored (fun j => ?_) fun j hj => ?_
        · by_cases hjc : j = s.count
          · subst hjc; exact h.idle _ le_rfl
          · rw [← hst.others j hjc]; exact hnone j
        · rw [← hst.others j (by omega)]
          exact hvol j (by rw [hst.count]; omega)
  | false =>
    cases op with
    | worker i event => exact h.worker Q hp i event hok
    | persistWrite i ok => exact h.persistWrite i ok hok
    | persistRead i =>
      have hpersist : ∀ j, ((step Q s (.persistRead i)).worker j).persist =
          if j = i then (s.worker j).persist.read else (s.worker j).persist := by
        intro j
        split
        · rename_i hji; subst hji; simp [step]
        · rename_i hji; simp [step, setWorker_of_ne s hji]
      have hsequence : ∀ j, ((step Q s (.persistRead i)).worker j).sequence = (s.worker j).sequence := fun j =>
        setWorker_map (·.sequence) s i j rfl
      have hpc : ∀ j, ((step Q s (.persistRead i)).worker j).pc = (s.worker j).pc := fun j => setWorker_map (·.pc) s i j rfl
      have hspec : ∀ j, ((step Q s (.persistRead i)).worker j).spec = (s.worker j).spec := fun j =>
        setWorker_map (·.spec) s i j rfl
      have hrunning : ∀ j, ((step Q s (.persistRead i)).worker j).persist.running = (s.worker j).persist.running := by
        intro j
        rw [hpersist]
        split
        · exact (read_frame _).2.1
        · rfl
      refine ⟨h.sorted, fun j => ?_, fun j hj => ?_, ?_, ?_, ?_⟩
      · rw [hpc]
        by_cases hji : j = i
        · exact (h.fits j).read.congr rfl (hsequence j) (by simp only [Host.numbers, hpersist, if_pos hji])
        · exact (h.fits j).congr rfl (hsequence j) (by simp only [Host.numbers, hpersist, if_neg hji])
      · rw [hpersist] at hj ⊢
        split at hj
        · rename_i hji; rw [if_pos hji]; exact read_quiet (h.quiet j) hj
        · rename_i hji; rw [if_neg hji]; exact h.quiet j hj
      · simpa only [hrunning] using h.alone
      · simp only [hrunning]; exact h.idle
      · simp only [hrunning, hspec]; exact h.stored
    | crash => cases hop
    | _ => cases hactor

/-- **A run** from the start. -/
theorem run_sequence (ops : List (Op Change)) (hops : ∀ op ∈ ops, op.graceful = true)
    (hm : Run.Meets (step Q) KeepsSequence (.init Q) ops) : SequenceInv (Run.run (step Q) (.init Q) ops) := by
  have hprovisioned : ∀ op : Op Change, op.graceful = true → op.provisioned = true := fun op h => by
    cases op <;> first | rfl | cases h
  have hstep : ∀ s, ∀ op ∈ ops, Provisioned s ∧ SequenceInv s → KeepsSequence s op →
      Provisioned (step Q s op) ∧ SequenceInv (step Q s op) := fun s op hop h hok =>
    ⟨(step_provisioned Q s op h.1 (hprovisioned op (hops op hop))).1, step_sequence Q s op h.1 h.2 (hops op hop) hok⟩
  exact (hm.inv hstep ⟨init_provisioned Q, init_sequence Q⟩).2

/-! ## Sequence numbers increase -/

/-- **Sequence numbers strictly increase.** In every run of a query between configure and deprovision, with any changes,
graceful shutdowns, failures and re-activations, whose steps all meet the condition: the numbers of the result and control
events are strictly increasing in the order of publication. -/
theorem sequence_increases (ops : List (Op Change)) (hops : ∀ op ∈ ops, op.graceful = true)
    (hm : Run.Meets (step Q) KeepsSequence (.init Q) ops) :
    (Run.run (step Q) (.init Q) ops).sequences.Pairwise (· < ·) :=
  (run_sequence Q ops hops hm).sorted

instance (s : Host Change Index Row) (op : Op Change) : Decidable (KeepsSequence s op) :=
  match op with
  | .worker _ _ => inferInstanceAs (Decidable (_ ∧ _ ∧ _))
  | .persistWrite _ _ => inferInstanceAs (Decidable (_ → _))
  | .turn _ | .arrive _ | .persistRead _ | .watcherRead | .watcherWrite _ | .activate _
  | .deactivate | .reminder | .configure _ | .deprovision | .crash => inferInstanceAs (Decidable True)

/-- the persist task of a worker stores the latest number -/
def persists (i : ℕ) : List (Op ℕ) := [.persistRead i, .persistWrite i true]

/-- a running query is shut down and activated again: a second worker starts -/
def reactivated : List (Op ℕ) :=
  configured false ++ (succeed 0 14 ++ ([.watcherRead, .watcherWrite true, .deactivate, .worker 0 .command, .worker 0 .ok] ++
    (persists 0 ++ persists 0 ++ [.turn true, .activate true])))

theorem sequence_increases_reactivated :
    (Run.run (step collect) (.init collect) (reactivated ++ succeed 1 10)).sequences.Pairwise (· < ·) ∧
    (Run.run (step collect) (.init collect) (reactivated ++ succeed 1 10)).sequences = [1, 2, 3, 4, 5] := by
  refine ⟨sequence_increases collect (reactivated ++ succeed 1 10) ?_ ?_, ?_⟩
  all_goals decide

/-- the second worker does not open the stream, and the reminder starts a third one -/
def unopened : List (Op ℕ) :=
  reactivated ++ (succeed 1 8 ++ (.worker 1 (.fail "redis") :: (persists 1 ++ .reminder :: succeed 2 10)))

/-- the number 0 is stored when the second worker drops its manager, and the third one starts over -/
theorem sequence_starts_over :
    (Run.run (step collect) (.init collect) unopened).sequences = [1, 2, 3, 4, 1] ∧
    ¬ (Run.run (step collect) (.init collect) unopened).sequences.Pairwise (· < ·) ∧ ∀ op ∈ unopened, op.graceful = true := by
  have hrun : (Run.run (step collect) (.init collect) unopened).sequences = [1, 2, 3, 4, 1] := by decide +kernel
  refine ⟨hrun, ?_, by decide⟩
  rw [hrun]
  decide

end DrasiPlatform.QueryHost
