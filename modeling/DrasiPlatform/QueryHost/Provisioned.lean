/-
What holds of the actor and its workers between configure and deprovision, in every run: a worker at work is the one the
actor holds, so there is at most one; every worker runs the persisted configuration; nobody is told to delete anything; and
a state behind the bootstrap, wherever it is kept, was left by a worker.

- `Provisioned`, `step_provisioned`, `run_provisioned`: the invariant, with activations, reminders, crashes and failures.
The results on bootstrap, sequence numbers and result diffs build on it.
-/
import Mathlib.Tactic
import DrasiPlatform.QueryHost.Host

namespace DrasiPlatform.QueryHost

variable {Change Index Row : Type}

/-! ## The invariant -/

/-- after the bootstrap: a start skips it -/
def QueryState.late : QueryState → Bool
  | .running | .transientError _ => true
  | _ => false

/-- before the bootstrap: a start does it -/
def QueryState.early : QueryState → Bool
  | .configured | .bootstrapping => true
  | _ => false

theorem QueryState.late_of_early {q : QueryState} (h : q.early = true) : q.late = false := by
  cases q <;> first | rfl | cases h

/-- the lifecycle state in memory, in the watch channel, in flight and persisted -/
def Host.marks (s : Host Change Index Row) : List QueryState :=
  s.actor.state :: (s.actor.unseen.toList ++ (s.actor.inFlight.toList ++ s.saved.status.toList))

/-- the operations of a query between configure and deprovision -/
def Op.provisioned : Op Change → Bool
  | .deprovision => false
  | _ => true

structure Provisioned (s : Host Change Index Row) : Prop where
  beyond : Beyond s
  /-- a worker at work is the actor's -/
  slot : ∀ i, (s.worker i).isFinished = false → s.actor.active = true ∧ s.actor.worker = some i
  /-- every worker runs the persisted configuration -/
  specs : ∀ i < s.count, s.saved.config = some (s.worker i).spec
  config : s.actor.active = true → ∀ spec, s.saved.config = some spec → s.actor.config = some spec
  commands : ∀ i, .delete ∉ (s.worker i).commands
  turn : s.actor.turn ≠ .deprovisionReminder ∧ s.actor.turn ≠ .deprovisionPersist
  configuring : s.actor.turn = .configurePersist ∨ s.actor.turn = .configureReminder →
    s.actor.state = .configured ∧ s.count = 0
  unsaved : s.actor.turn = .configurePersist → s.saved.config = none
  persisted : s.actor.turn = .configureReminder → s.saved.config = s.actor.config
  late : ∀ q ∈ s.marks, q.late = true → s.saved.config ≠ none

theorem init_provisioned (Q : ContinuousQuery Change Index Row) : Provisioned (.init Q) where
  beyond _ _ := rfl
  slot i hi := by cases hi
  specs i hi := absurd hi (Nat.not_lt_zero i)
  config h := by cases h
  commands _ h := by cases h
  turn := ⟨by simp [Host.init, Actor.inactive], by simp [Host.init, Actor.inactive]⟩
  configuring h := by rcases h with h | h <;> cases h
  unsaved h := by cases h
  persisted h := by cases h
  late q hq hl := by
    simp only [Host.marks, Host.init, Actor.inactive, Option.toList_none, List.append_nil, List.mem_singleton] at hq
    subst hq
    cases hl

section Facts

variable {s s' : Host Change Index Row} (h : Provisioned s)

include h

theorem Provisioned.lt_count {i : ℕ} (hi : (s.worker i).isFinished = false) : i < s.count := by
  by_contra hge
  rw [Worker.isFinished, h.beyond i (not_lt.1 hge)] at hi
  cases hi

/-- a worker at work runs the persisted configuration -/
theorem Provisioned.spec {i : ℕ} (hi : (s.worker i).isFinished = false) : s.saved.config = some (s.worker i).spec :=
  h.specs i (h.lt_count hi)

/-- at most one worker is at work -/
theorem Provisioned.only {i j : ℕ} (hi : (s.worker i).isFinished = false) (hj : (s.worker j).isFinished = false) : j = i := by
  have := (h.slot j hj).2
  rw [(h.slot i hi).2] at this
  exact (Option.some.inj this).symm

theorem Provisioned.finished_of_inactive (hin : s.actor.active = false) (i : ℕ) : (s.worker i).isFinished = true := by
  by_contra hi
  rw [Bool.not_eq_true] at hi
  rw [(h.slot i hi).1] at hin
  cases hin

theorem Provisioned.finished_of_unsaved (hnone : s.saved.config = none) (i : ℕ) : (s.worker i).isFinished = true := by
  by_contra hi
  rw [Bool.not_eq_true] at hi
  rw [h.spec hi] at hnone
  cases hnone

/-- all that were started have finished, so all have -/
theorem Provisioned.finished_of_all (hall : ∀ i < s.count, (s.worker i).isFinished = true) (i : ℕ) :
    (s.worker i).isFinished = true := by
  rcases lt_or_ge i s.count with hi | hi
  · exact hall i hi
  · rw [Worker.isFinished, h.beyond i hi]

/-- a worker can start: nobody else is at work -/
theorem Provisioned.finished_of_slot (hfin : ∀ i, s.actor.worker = some i → (s.worker i).isFinished = true) (i : ℕ) :
    (s.worker i).isFinished = true := by
  by_contra hi
  rw [Bool.not_eq_true] at hi
  rw [hfin i (h.slot i hi).2] at hi
  cases hi

/-- a query without a configuration was never run -/
theorem Provisioned.count_of_unsaved (hnone : s.saved.config = none) : s.count = 0 := by
  by_contra hne
  have := h.specs 0 (Nat.pos_of_ne_zero hne)
  rw [hnone] at this
  cases this

/-- changes that leave alone the actor but for what its watcher does, the configuration and the places of the workers -/
theorem Provisioned.congr (hactor : s'.actor = { s.actor with unseen := s'.actor.unseen, inFlight := s'.actor.inFlight })
    (hconfig : s'.saved.config = s.saved.config) (hcount : s'.count = s.count)
    (hmarks : ∀ q ∈ s'.marks, q.late = true → q ∈ s.marks)
    (hworker : ∀ j, (s'.worker j).pc = (s.worker j).pc ∧ (s'.worker j).spec = (s.worker j).spec ∧
      ∀ c ∈ (s'.worker j).commands, c ∈ (s.worker j).commands) : Provisioned s' := by
  have hfin : ∀ j, (s'.worker j).isFinished = (s.worker j).isFinished := fun j => isFinished_congr (hworker j).1
  have hturn : s'.actor.turn = s.actor.turn := by rw [hactor]
  refine ⟨fun i hi => ?_, fun i hi => ?_, fun i hi => ?_, ?_, fun i hi => ?_, ?_, ?_, ?_, ?_, fun q hq hl => ?_⟩
  · rw [(hworker i).1]; exact h.beyond i (hcount ▸ hi)
  · rw [hactor]; exact h.slot i (hfin i ▸ hi)
  · rw [hconfig, (hworker i).2.1]; exact h.specs i (hcount ▸ hi)
  · rw [hactor, hconfig]; exact h.config
  · exact h.commands i ((hworker i).2.2 _ hi)
  · rw [hturn]; exact h.turn
  · rw [hactor, hcount]; exact h.configuring
  · rw [hturn, hconfig]; exact h.unsaved
  · rw [hactor, hconfig]; exact h.persisted
  · rw [hconfig]; exact h.late q (hmarks q hq hl) hl

/-- nobody is at work, and the actor is between two turns or out of memory -/
theorem Provisioned.of_finished (hfin : ∀ i, (s'.worker i).isFinished = true) (hcommands : ∀ i, .delete ∉ (s'.worker i).commands)
    (hturn : s'.actor.turn = .idle) (hactor : s'.actor.active = true → s'.actor.config = s'.saved.config)
    (hconfig : s'.saved.config = s.saved.config) (hcount : s'.count = s.count)
    (hspec : ∀ i, (s'.worker i).spec = (s.worker i).spec) (hbeyond : Beyond s')
    (hmarks : ∀ q ∈ s'.marks, q.late = true → q ∈ s.marks) : Provisioned s' where
  beyond := hbeyond
  slot i hi := by rw [hfin] at hi; cases hi
  specs i hi := by rw [hconfig, hspec]; exact h.specs i (hcount ▸ hi)
  config ha spec hspec := by rw [hactor ha, hspec]
  commands := hcommands
  turn := by rw [hturn]; exact ⟨by simp, by simp⟩
  configuring ht := by rw [hturn] at ht; rcases ht with ht | ht <;> cases ht
  unsaved ht := by rw [hturn] at ht; cases ht
  persisted ht := by rw [hturn] at ht; cases ht
  late q hq hl := by rw [hconfig]; exact h.late q (hmarks q hq hl) hl

end Facts

/-! ## What the actor does to the lifecycle -/

/-- what every step but a worker's does to the lifecycle: it brings no state behind the bootstrap that was not there, and
starts workers only in a state in which they can start -/
structure Lifecycle (s s' : Host Change Index Row) : Prop where
  config : s'.saved.config = s.saved.config ∨ s.saved.config = none
  marks : ∀ q ∈ s'.marks, q.late = true → q ∈ s.marks
  early : s'.actor.state.early = true → s'.actor.state = s.actor.state ∨ ∀ q ∈ s'.marks, q.late = false
  kept : ∀ j, (s.worker j).isFinished = false → (s'.worker j).isFinished = false → s'.actor.state = s.actor.state
  fresh : ∀ j, (s.worker j).isFinished = true → (s'.worker j).isFinished = false →
    s'.actor.state.early = true ∨ s'.actor.state.late = true

theorem Lifecycle.of_same {s s' : Host Change Index Row} (hstate : s'.actor.state = s.actor.state)
    (hconfig : s'.saved.config = s.saved.config) (hmarks : ∀ q ∈ s'.marks, q ∈ s.marks)
    (hfin : ∀ j, (s'.worker j).isFinished = (s.worker j).isFinished) : Lifecycle s s' where
  config := .inl hconfig
  marks q hq _ := hmarks q hq
  early _ := .inl hstate
  kept _ _ _ := hstate
  fresh j hj hj' := by rw [hfin, hj] at hj'; cases hj'

/-- nobody is at work before or after -/
theorem Lifecycle.of_finished {s s' : Host Change Index Row} (hfin : ∀ j, (s'.worker j).isFinished = true)
    (hconfig : s'.saved.config = s.saved.config ∨ s.saved.config = none) (hmarks : ∀ q ∈ s'.marks, q.late = true → q ∈ s.marks)
    (hearly : s'.actor.state.early = true → s'.actor.state = s.actor.state ∨ ∀ q ∈ s'.marks, q.late = false) : Lifecycle s s' where
  config := hconfig
  marks := hmarks
  early := hearly
  kept j _ hj := by rw [hfin] at hj; cases hj
  fresh j _ hj := by rw [hfin] at hj; cases hj

theorem Lifecycle.trans {s s' s'' : Host Change Index Row} (h : Lifecycle s s') (hw : s'.worker = s.worker)
    (hc : s'.saved.config = s.saved.config) (h' : Lifecycle s' s'') : Lifecycle s s'' where
  config := by rw [← hc]; exact h'.config
  marks q hq hl := h.marks q (h'.marks q hq hl) hl
  early he := by
    rcases h'.early he with hs | hm
    · rcases h.early (hs ▸ he) with hs' | hm
      · exact .inl (hs.trans hs')
      · refine .inr fun q hq => ?_
        by_contra hl
        rw [Bool.not_eq_false] at hl
        rw [hm q (h'.marks q hq hl)] at hl
        cases hl
    · exact .inr hm
  kept j hj hj' := (h'.kept j (by rw [hw]; exact hj) hj').trans (h.kept j hj (by rw [hw]; exact hj))
  fresh j hj hj' := h'.fresh j (by rw [hw]; exact hj) hj'

/-- an actor that goes out of memory leaves its persisted state -/
theorem marks_inactive {s : Host Change Index Row} (q : QueryState)
    (hq : q ∈ ({ s with actor := .inactive } : Host Change Index Row).marks) (hl : q.late = true) : q ∈ s.marks := by
  simp only [Host.marks, Actor.inactive, Option.toList_none, List.nil_append, List.mem_cons, List.mem_append] at hq ⊢
  rcases hq with rfl | hq
  · cases hl
  · exact .inr (.inr (.inr hq))

/-- a state that is not behind the bootstrap replaces the one in memory and in the watch channel -/
theorem marks_changeState {s s' : Host Change Index Row} {state q : QueryState} (hq : q ∈ s'.marks)
    (hs : s'.actor.state = state) (hu : s'.actor.unseen = some state) (hi : s'.actor.inFlight = s.actor.inFlight)
    (hp : s'.saved.status = s.saved.status) : q = state ∨ q ∈ s.marks := by
  simp only [Host.marks, hs, hu, hi, hp, Option.toList_some, List.singleton_append, List.mem_cons] at hq
  rcases hq with hq | hq | hq
  · exact .inl hq
  · exact .inl hq
  · exact .inr (List.mem_cons_of_mem _ (List.mem_append_right _ hq))

section ActorSteps

variable (Q : ContinuousQuery Change Index Row) {s : Host Change Index Row}

/-- `init_worker`, in a state in which a worker can start -/
theorem Provisioned.initWorker (h : Provisioned s) (hactive : s.actor.active = true) (hturn : s.actor.turn = .idle)
    (hstate : s.actor.state.early = true ∨ s.actor.state.late = true) (hconfig : s.actor.config = s.saved.config) :
    Provisioned (initWorker Q s) ∧ Lifecycle s (initWorker Q s) := by
  obtain ⟨-, heq⟩ | ⟨hfin, hrest⟩ := initWorker_cases Q s
  · rw [heq]; exact ⟨h, .of_same rfl rfl (fun _ => id) fun _ => rfl⟩
  have hall := h.finished_of_slot hfin
  obtain ⟨-, heq⟩ | ⟨spec, hspec, heq⟩ := hrest
  · rw [heq]
    have hmarks : ∀ q ∈ ({ s with actor := s.actor.changeState (.terminalError "Not configured") } :
        Host Change Index Row).marks, q.late = true → q ∈ s.marks := by
      intro q hq hl
      rcases marks_changeState (s := s) hq rfl rfl rfl rfl with rfl | hq
      · cases hl
      · exact hq
    exact ⟨h.of_finished hall h.commands hturn (fun _ => hconfig) rfl rfl (fun _ => rfl) h.beyond hmarks,
      .of_finished hall (.inl rfl) hmarks fun he => by cases he⟩
  · rw [heq]
    have hother : ∀ i, i ≠ s.count → (s.setWorker s.count (.new Q spec)).worker i = s.worker i :=
      fun i hi => setWorker_of_ne s hi _
    have honly : ∀ i, ((s.setWorker s.count (.new Q spec)).worker i).isFinished = false → i = s.count := by
      intro i hi
      by_contra hne
      rw [hother i hne, hall] at hi
      cases hi
    refine ⟨⟨fun i hi => ?_, fun i hi => ⟨hactive, ?_⟩, fun i hi => ?_, h.config, fun i => ?_, h.turn, ?_, h.unsaved, h.persisted,
      h.late⟩, ⟨.inl rfl, fun _ hq _ => hq, fun _ => .inl rfl, fun _ _ _ => rfl, fun _ _ _ => hstate⟩⟩
    · change s.count + 1 ≤ i at hi
      change ((s.setWorker s.count (.new Q spec)).worker i).pc = _
      rw [hother i (by omega)]
      exact h.beyond i (by omega)
    · rw [honly i hi]
    · change i < s.count + 1 at hi
      change s.saved.config = some ((s.setWorker s.count (.new Q spec)).worker i).spec
      by_cases hic : i = s.count
      · subst hic
        rw [setWorker_self, ← hconfig, hspec]
        rfl
      · rw [hother i hic]; exact h.specs i (by omega)
    · change .delete ∉ ((s.setWorker s.count (.new Q spec)).worker i).commands
      by_cases hic : i = s.count
      · subst hic; simp [Worker.new]
      · rw [hother i hic]; exact h.commands i
    · rintro (ht | ht) <;> simp [hturn] at ht

/-- at activation the state is read: what was persisted is all that is left -/
theorem Provisioned.activate (h : Provisioned s) (hin : s.actor.active = false) (unregistered : Bool) :
    Provisioned (activate Q s unregistered) ∧ Lifecycle s (activate Q s unregistered) := by
  have hall := h.finished_of_inactive hin
  have hread : ∀ saved : Saved, saved.status = s.saved.status → saved.config = s.saved.config →
      Provisioned { s with saved := saved, actor := ⟨true, .idle, s.saved.status.getD .new, none, none, s.saved.config, none⟩ } ∧
      Lifecycle s { s with saved := saved, actor := ⟨true, .idle, s.saved.status.getD .new, none, none, s.saved.config, none⟩ } := by
    intro saved hstatus hconfig
    have hmarks : ∀ q ∈ ({ s with
        saved := saved
        actor := ⟨true, .idle, s.saved.status.getD .new, none, none, s.saved.config, none⟩ } : Host Change Index Row).marks,
        q = s.saved.status.getD .new ∧ (q.late = true → q ∈ s.marks) := by
      intro q hq
      simp only [Host.marks, Option.toList_none, List.nil_append, List.mem_cons, List.mem_append, hstatus] at hq ⊢
      cases hs : s.saved.status with
      | none => simp_all [QueryState.late]
      | some q0 => simp_all
    refine ⟨h.of_finished hall h.commands rfl (fun _ => hconfig.symm) hconfig rfl (fun _ => rfl) h.beyond
      fun q hq => (hmarks q hq).2, .of_finished hall (.inl hconfig) (fun q hq => (hmarks q hq).2) fun he => .inr fun q hq => ?_⟩
    rw [(hmarks q hq).1]
    exact QueryState.late_of_early he
  obtain ⟨hp, hl⟩ := hread s.saved rfl rfl
  have hinit := fun hs => (hp.initWorker Q rfl rfl hs rfl).imp_right (hl.trans rfl rfl)
  simp only [QueryHost.activate]
  split
  · rename_i hs; exact hinit (.inl (by simp only [hs]; rfl))
  · rename_i hs; exact hinit (.inr (by simp only [hs]; rfl))
  · rename_i hs; exact hinit (.inl (by simp only [hs]; rfl))
  · split
    · exact hread _ rfl rfl
    · exact ⟨hp, hl⟩
  · exact ⟨hp, hl⟩

/-- a shutdown is sent, and the turn goes on -/
theorem Provisioned.deactivate (h : Provisioned s) : Provisioned (deactivate s) ∧ Lifecycle s (deactivate s) := by
  have hsame : ∀ s' : Host Change Index Row, s'.actor = { s.actor with turn := .deactivating } → s'.saved = s.saved →
      s'.count = s.count → (∀ j, (s'.worker j).core = (s.worker j).core) → (∀ j, .delete ∉ (s'.worker j).commands) →
      Provisioned s' ∧ Lifecycle s s' := by
    intro s' hactor hsaved hcount hcore hcommands
    have hpc : ∀ j, (s'.worker j).pc = (s.worker j).pc := fun j => congrArg (·.pc) (hcore j)
    have hspec : ∀ j, (s'.worker j).spec = (s.worker j).spec := fun j => congrArg (·.spec) (hcore j)
    have hfin : ∀ j, (s'.worker j).isFinished = (s.worker j).isFinished := fun j => isFinished_congr (hpc j)
    have hmarks : s'.marks = s.marks := by simp only [Host.marks, hactor, hsaved]
    refine ⟨⟨fun i hi => ?_, fun i hi => ?_, fun i hi => ?_, ?_, hcommands, by rw [hactor]; exact ⟨by simp, by simp⟩, ?_, ?_, ?_, ?_⟩,
      .of_same (by rw [hactor]) (by rw [hsaved]) (by rw [hmarks]; exact fun _ => id) hfin⟩
    · rw [hpc]; exact h.beyond i (hcount ▸ hi)
    · rw [hactor]; exact h.slot i (hfin i ▸ hi)
    · rw [hsaved, hspec]; exact h.specs i (hcount ▸ hi)
    · rw [hactor, hsaved]; exact h.config
    · rw [hactor]; rintro (ht | ht) <;> cases ht
    · rw [hactor]; intro ht; cases ht
    · rw [hactor]; intro ht; cases ht
    · rw [hmarks, hsaved]; exact h.late
  simp only [QueryHost.deactivate]
  split
  · rename_i i hi
    refine hsame _ rfl rfl rfl (fun j => setWorker_map Worker.core s i j rfl) fun j => ?_
    by_cases hj : j = i
    · subst hj
      simp only [setWorker_self, Worker.shutdown]
      split
      · exact h.commands j
      · simpa using h.commands j
    · simp only [setWorker_of_ne s hj]; exact h.commands j
  · exact hsame _ rfl rfl rfl (fun _ => rfl) h.commands

/-- a query is configured only when no configuration is persisted: nothing tells of a bootstrap, and nobody is at work -/
theorem Provisioned.configure (h : Provisioned s) (hactive : s.actor.active = true) (spec : QuerySpec) :
    Provisioned (configure s spec) ∧ Lifecycle s (configure s spec) := by
  simp only [QueryHost.configure]
  split
  · exact ⟨h, .of_same rfl rfl (fun _ => id) fun _ => rfl⟩
  rename_i hnone
  have hunsaved : s.saved.config = none := by
    cases hc : s.saved.config with
    | none => rfl
    | some spec' => rw [h.config hactive spec' hc] at hnone; cases hnone
  have hall := h.finished_of_unsaved hunsaved
  have hmarks : ∀ q ∈ ({ s with
      actor := { s.actor.changeState .configured with config := some spec, turn := .configurePersist } } :
      Host Change Index Row).marks, q.late = false := by
    intro q hq
    by_contra hl
    rw [Bool.not_eq_false] at hl
    rcases marks_changeState (s := s) hq rfl rfl rfl rfl with rfl | hq
    · cases hl
    · exact h.late q hq hl hunsaved
  refine ⟨⟨h.beyond, fun i hi => ?_, h.specs, fun _ spec' hs => ?_, h.commands, ⟨by simp, by simp⟩,
    fun _ => ⟨rfl, h.count_of_unsaved hunsaved⟩, fun _ => hunsaved, (fun ht => by cases ht), fun q hq hl => ?_⟩,
    .of_finished hall (.inl rfl) (fun q hq hl => ?_) fun _ => .inr hmarks⟩
  · rw [hall] at hi; cases hi
  · rw [hunsaved] at hs; cases hs
  · rw [hmarks q hq] at hl; cases hl
  · rw [hmarks q hq] at hl; cases hl

/-- a turn ends without a change -/
theorem Provisioned.idle (h : Provisioned s) (reminder : Bool) :
    Provisioned { s with actor := { s.actor with turn := .idle }, saved := { s.saved with reminder := reminder } } ∧
      Lifecycle s { s with actor := { s.actor with turn := .idle }, saved := { s.saved with reminder := reminder } } :=
  ⟨⟨h.beyond, h.slot, h.specs, h.config, h.commands, ⟨by simp, by simp⟩, by simp, by simp, by simp, h.late⟩,
    .of_same rfl rfl (fun _ => id) fun _ => rfl⟩

theorem Provisioned.turn_step (h : Provisioned s) (hactive : s.actor.active = true) (ok : Bool) :
    Provisioned (QueryHost.turn Q s ok) ∧ Lifecycle s (QueryHost.turn Q s ok) := by
  simp only [QueryHost.turn]
  split
  · exact ⟨h, .of_same rfl rfl (fun _ => id) fun _ => rfl⟩
  · -- the configuration is persisted: no state tells of a bootstrap
    rename_i ht
    split
    · obtain ⟨hs, hcount⟩ := h.configuring (.inl ht)
      have hall := h.finished_of_unsaved (h.unsaved ht)
      have hlate : ∀ q ∈ s.marks, q.late = false := by
        intro q hq
        by_contra hl
        exact h.late q hq (by simpa using hl) (h.unsaved ht)
      refine ⟨⟨h.beyond, h.slot, fun i hi => ?_, fun _ _ hspec => hspec, h.commands, ⟨by simp, by simp⟩, fun _ => ⟨hs, hcount⟩,
        by simp, fun _ => rfl, fun q hq hl => ?_⟩, .of_finished hall (.inr (h.unsaved ht)) (fun _ hq _ => hq) fun _ => .inl rfl⟩
      · rw [hcount] at hi; exact absurd hi (Nat.not_lt_zero i)
      · rw [hlate q hq] at hl; cases hl
    · exact h.idle s.saved.reminder
  · rename_i ht
    split
    · obtain ⟨hp, hl⟩ := h.idle true
      refine (hp.initWorker Q hactive rfl (.inl ?_) (h.persisted ht).symm).imp_right (hl.trans rfl rfl)
      change s.actor.state.early = true
      rw [(h.configuring (.inr ht)).1]
      rfl
    · exact h.idle s.saved.reminder
  · rename_i ht; exact absurd ht h.turn.1
  · rename_i ht; exact absurd ht h.turn.2
  · split
    · rename_i hfin
      have hall := h.finished_of_all hfin
      exact ⟨h.of_finished hall h.commands rfl (fun ha => by cases ha) rfl rfl (fun _ => rfl) h.beyond marks_inactive,
        .of_finished hall (.inl rfl) marks_inactive fun he => by cases he⟩
    · exact ⟨h, .of_same rfl rfl (fun _ => id) fun _ => rfl⟩

end ActorSteps

/-! ## Every step -/

variable [DecidableEq Row] (Q : ContinuousQuery Change Index Row)

/-- **A step of a worker** writes to the lifecycle state and to nothing else of the actor. -/
theorem Provisioned.worker {s : Host Change Index Row} (h : Provisioned s) (i : ℕ) (event : Event Change) :
    Provisioned (workerStep Q s i event) := by
  obtain ⟨-, heq⟩ | ⟨pc, es, hn, heq, hpc, hother, hspec, hsaved, hcount⟩ := workerStep_cases Q s i event
  · rw [heq]; exact h
  have hun : (s.worker i).isFinished = false := unfinished_of_next Q hn
  have hactor : ∃ state unseen, (workerStep Q s i event).actor = { s.actor with state := state, unseen := unseen } := by
    rw [heq]
    exact foldl_exec_lifecycle Q (s.goto i pc) i es
  obtain ⟨state, unseen, hactor⟩ := hactor
  obtain ⟨-, hcommands⟩ := foldl_exec_others Q (s.goto i pc) i es
  rw [← heq] at hcommands
  simp only [goto_commands] at hcommands
  have hidle : s.count ≠ 0 := by have := h.lt_count hun; omega
  refine ⟨step_beyond Q s (.worker i event) h.beyond, fun j hj => ?_, fun j hj => ?_, ?_, fun j hj => ?_, ?_, ?_, ?_, ?_,
    fun _ _ _ => ?_⟩
  · rw [hactor]
    by_cases hji : j = i
    · rw [hji]; exact h.slot i hun
    · exact h.slot j (by rw [← isFinished_congr (hother j hji)]; exact hj)
  · rw [hsaved, hspec]; exact h.specs j (hcount ▸ hj)
  · rw [hactor, hsaved]; exact h.config
  · exact h.commands j (hcommands j _ hj)
  · rw [hactor]; exact h.turn
  · rw [hactor]; exact fun ht => absurd (h.configuring ht).2 hidle
  · rw [hactor, hsaved]; exact h.unsaved
  · rw [hactor, hsaved]; exact h.persisted
  · rw [hsaved, h.spec hun]; simp

/-- an operation of a worker -/
def Op.isWorker : Op Change → Bool
  | .worker _ _ => true
  | _ => false

/-- **One step** keeps the invariant, and what it does to the lifecycle if it is not a worker's. -/
theorem step_provisioned (s : Host Change Index Row) (op : Op Change) (h : Provisioned s) (hop : op.provisioned = true) :
    Provisioned (step Q s op) ∧ (op.isWorker = false → Lifecycle s (step Q s op)) := by
  have hrefl : Lifecycle s s := .of_same rfl rfl (fun _ => id) fun _ => rfl
  have hsame : ∀ s' : Host Change Index Row, Provisioned s' ∧ Lifecycle s s' →
      Provisioned s' ∧ (op.isWorker = false → Lifecycle s s') := fun s' hs => ⟨hs.1, fun _ => hs.2⟩
  cases op with
  | worker i event => exact ⟨h.worker Q i event, fun hw => by cases hw⟩
  | deprovision => cases hop
  | arrive event =>
    exact hsame _ ⟨h.congr rfl rfl rfl (fun _ hq _ => hq) fun j => ⟨rfl, rfl, fun _ => id⟩,
      .of_same rfl rfl (fun _ => id) fun _ => rfl⟩
  | persistRead i =>
    have hcommands : ∀ j, ((step Q s (.persistRead i)).worker j).commands = (s.worker j).commands := fun j =>
      setWorker_map (·.commands) s i j rfl
    refine hsame _ ⟨h.congr rfl rfl rfl (fun _ hq _ => hq) fun j => ⟨setWorker_map (·.pc) s i j rfl,
      setWorker_map (·.spec) s i j rfl, ?_⟩, .of_same rfl rfl (fun _ => id) fun j => setWorker_map Worker.isFinished s i j rfl⟩
    rw [hcommands]
    exact fun _ => id
  | persistWrite i ok =>
    obtain ⟨-, -, -, hactor, hsaved, hcount⟩ := persistWrite_frame s i ok i
    have hmarks : (persistWrite s i ok).marks = s.marks := by simp only [Host.marks, hactor, hsaved]
    refine hsame _ ⟨h.congr (by simp [step, hactor]) (by simp [step, hsaved]) hcount (fun q hq _ => ?_) fun j => ?_,
      .of_same (by simp [step, hactor]) (by simp [step, hsaved]) (fun q hq => ?_) fun j => ?_⟩
    · exact hmarks ▸ hq
    · obtain ⟨hpc, hspec, hcommands, -⟩ := persistWrite_frame s i ok j
      exact ⟨hpc, hspec, by simp only [step, hcommands]; exact fun _ => id⟩
    · exact hmarks ▸ hq
    · exact isFinished_congr (persistWrite_frame s i ok j).1
  | watcherRead =>
    simp only [step, watcherRead]
    split
    · rename_i state hin hun
      have hmarks : ∀ q ∈ ({ s with actor := { s.actor with unseen := none, inFlight := some state } } :
          Host Change Index Row).marks, q ∈ s.marks := by
        intro q hq
        simpa [Host.marks, hin, hun] using hq
      exact hsame _ ⟨h.congr rfl rfl rfl (fun q hq _ => hmarks q hq) fun j => ⟨rfl, rfl, fun _ => id⟩,
        .of_same rfl rfl hmarks fun _ => rfl⟩
    · exact hsame _ ⟨h, hrefl⟩
  | watcherWrite ok =>
    simp only [step, watcherWrite]
    split
    · rename_i state hin
      have hconfig : (if ok then { s.saved with status := some state } else s.saved).config = s.saved.config := by
        split <;> rfl
      have hmarks : ∀ q ∈ ({ s with
          saved := if ok then { s.saved with status := some state } else s.saved
          actor := { s.actor with inFlight := none } } : Host Change Index Row).marks, q ∈ s.marks := by
        intro q hq
        simp only [Host.marks, hin, List.mem_cons, List.mem_append] at hq ⊢
        cases ok <;> simp at hq ⊢ <;> tauto
      exact hsame _ ⟨h.congr rfl hconfig rfl (fun q hq _ => hmarks q hq) fun j => ⟨rfl, rfl, fun _ => id⟩,
        .of_same rfl hconfig hmarks fun _ => rfl⟩
    · exact hsame _ ⟨h, hrefl⟩
  | activate unregistered =>
    simp only [step]
    split
    · exact hsame _ ⟨h, hrefl⟩
    · rename_i hin
      exact hsame _ (h.activate Q (by simpa using hin) unregistered)
  | deactivate =>
    simp only [step]
    split
    · exact hsame _ h.deactivate
    · exact hsame _ ⟨h, hrefl⟩
  | reminder =>
    simp only [step]
    split
    · rename_i hready
      simp only [Actor.ready, Bool.and_eq_true, decide_eq_true_eq] at hready
      obtain ⟨⟨hactive, hturn⟩, -⟩ := hready
      simp only [reminder]
      split
      · -- the state was left by a worker, so there is a configuration
        rename_i err hs
        have hl : s.actor.state.late = true := by rw [hs]; rfl
        obtain ⟨spec, hspec⟩ := Option.ne_none_iff_exists'.1 (h.late _ List.mem_cons_self hl)
        exact hsame _ (h.initWorker Q hactive hturn (.inr hl) (by rw [h.config hactive spec hspec, hspec]))
      · exact hsame _ ⟨h, hrefl⟩
    · exact hsame _ ⟨h, hrefl⟩
  | configure spec =>
    simp only [step]
    split
    · exact hsame _ (h.configure (by simp_all [Actor.ready]) spec)
    · exact hsame _ ⟨h, hrefl⟩
  | turn ok =>
    simp only [step]
    split
    · rename_i hactive
      exact hsame _ (h.turn_step Q hactive ok)
    · exact hsame _ ⟨h, hrefl⟩
  | crash =>
    exact hsame _ ⟨h.of_finished (fun _ => rfl) h.commands rfl (fun ha => by cases ha) rfl rfl (fun _ => rfl) (fun _ _ => rfl)
      marks_inactive, .of_finished (fun _ => rfl) (.inl rfl) marks_inactive fun he => by cases he⟩

end DrasiPlatform.QueryHost
