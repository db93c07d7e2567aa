/-
One call of the query actor's `configure` method (`query-container/query-host/src/query_actor.rs`), with its answer, over
the host of `QueryHost.Host`. The call waits twice, for the state transaction and for the reminder; while it waits the
workers, the persist tasks, the status watcher and the stream go on, and no other turn of the actor starts.

- `background_frame`: what goes on meanwhile leaves the actor's configuration, its worker and the persisted
  configuration as the call has set them.
- `configure_atomic_iff`: an error answer leaves configuration, lifecycle and persisted state as they were if and only if
  the query was configured before, or both calls succeed and no worker of the actor is at work when one is to be started.
  Every other error is answered with the new configuration in memory, and nothing is undone.
- `repeated_configure`: after such an error the same request is answered with a conflict.
Witness: `failed_transaction_keeps_config`.
-/
import Mathlib.Tactic
import DrasiPlatform.QueryHost.Host

namespace DrasiPlatform.QueryHost

variable {Change Index Row : Type} [DecidableEq Row]

/-! ## The call -/

/-- what goes on while a turn of the actor waits -/
inductive Background (Change : Type) where
  | arrive (event : ChangeEvent Change)
  | worker (i : ℕ) (event : Event Change)
  | persistRead (i : ℕ)
  | persistWrite (i : ℕ) (ok : Bool)
  | watcherRead
  | watcherWrite (ok : Bool)

def Background.op : Background Change → Op Change
  | .arrive event => .arrive event
  | .worker i event => .worker i event
  | .persistRead i => .persistRead i
  | .persistWrite i ok => .persistWrite i ok
  | .watcherRead => .watcherRead
  | .watcherWrite ok => .watcherWrite ok

/-- a configure request, with the outcome of the two calls it waits on and what goes on meanwhile -/
structure ConfigureCall (Change : Type) where
  spec : QuerySpec
  whilePersisting : List (Background Change)
  /-- `persist_config` -/
  persisted : Bool
  whileRegistering : List (Background Change)
  /-- `register_reminder` -/
  registered : Bool

inductive ConfigureAnswer where
  | ok
  | alreadyConfigured
  | errorPersisting
  | errorRegistering
  | errorInitializing
deriving DecidableEq, Repr

/-- status code and body; `Json(())` is `null` -/
def ConfigureAnswer.response : ConfigureAnswer → ℕ × String
  | .ok => (200, "null")
  | .alreadyConfigured => (409, "Query already configured")
  | .errorPersisting => (500, "Error persisting state")
  | .errorRegistering => (500, "Error registering reminder")
  | .errorInitializing => (500, "Error initializing worker")

def ConfigureAnswer.isError (a : ConfigureAnswer) : Bool := 400 ≤ a.response.1

/-- `init_worker` returns an error -/
def Host.initFails (s : Host Change Index Row) : Bool :=
  s.actor.worker.any (fun i => !(s.worker i).isFinished) || s.actor.config.isNone

def background (Q : ContinuousQuery Change Index Row) (s : Host Change Index Row) (ops : List (Background Change)) :
    Host Change Index Row :=
  Run.run (step Q) s (ops.map Background.op)

/-- the state in which the outcome of `persist_config` arrives -/
def ConfigureCall.atPersisted (Q : ContinuousQuery Change Index Row) (s : Host Change Index Row)
    (r : ConfigureCall Change) : Host Change Index Row :=
  background Q (configure s r.spec) r.whilePersisting

/-- the state in which the outcome of `register_reminder` arrives -/
def ConfigureCall.atRegistered (Q : ContinuousQuery Change Index Row) (s : Host Change Index Row)
    (r : ConfigureCall Change) : Host Change Index Row :=
  background Q (turn Q (r.atPersisted Q s) true) r.whileRegistering

/-- `configure`, from the request to the answer -/
def ConfigureCall.run (Q : ContinuousQuery Change Index Row) (s : Host Change Index Row) (r : ConfigureCall Change) :
    Host Change Index Row × ConfigureAnswer :=
  if s.actor.config.isSome then (configure s r.spec, .alreadyConfigured)
  else if !r.persisted then (turn Q (r.atPersisted Q s) false, .errorPersisting)
  else if !r.registered then (turn Q (r.atRegistered Q s) false, .errorRegistering)
  else if (r.atRegistered Q s).initFails then (turn Q (r.atRegistered Q s) true, .errorInitializing)
  else (turn Q (r.atRegistered Q s) true, .ok)

/-- configuration, lifecycle and persisted state are the same -/
structure Unchanged (s s' : Host Change Index Row) : Prop where
  config : s'.actor.config = s.actor.config
  state : s'.actor.state = s.actor.state
  saved : s'.saved = s.saved

/-! ## What goes on meanwhile -/

/-- the actor's configuration, worker and turn, and the persisted configuration -/
structure TurnFrame (s s' : Host Change Index Row) : Prop where
  config : s'.actor.config = s.actor.config
  worker : s'.actor.worker = s.actor.worker
  turn : s'.actor.turn = s.actor.turn
  savedConfig : s'.saved.config = s.saved.config

omit [DecidableEq Row] in
theorem TurnFrame.refl (s : Host Change Index Row) : TurnFrame s s := ⟨rfl, rfl, rfl, rfl⟩

omit [DecidableEq Row] in
theorem TurnFrame.trans {s t u : Host Change Index Row} (h1 : TurnFrame s t) (h2 : TurnFrame t u) : TurnFrame s u :=
  ⟨h2.config.trans h1.config, h2.worker.trans h1.worker, h2.turn.trans h1.turn, h2.savedConfig.trans h1.savedConfig⟩

variable (Q : ContinuousQuery Change Index Row)

theorem workerStep_turnFrame (s : Host Change Index Row) (i : ℕ) (event : Event Change) :
    TurnFrame s (workerStep Q s i event) := by
  obtain ⟨-, heq⟩ | ⟨pc, effects, -, heq, -, -, -, hsaved, -⟩ := workerStep_cases Q s i event
  · rw [heq]
    exact .refl s
  · obtain ⟨state, unseen, hactor⟩ := foldl_exec_lifecycle Q (s.goto i pc) i effects
    rw [goto_actor] at hactor
    rw [heq] at hsaved ⊢
    exact ⟨by rw [hactor], by rw [hactor], by rw [hactor], by rw [hsaved]⟩

theorem step_turnFrame (s : Host Change Index Row) (op : Background Change) : TurnFrame s (step Q s op.op) := by
  cases op with
  | arrive _ => exact ⟨rfl, rfl, rfl, rfl⟩
  | worker i event => exact workerStep_turnFrame Q s i event
  | persistRead _ => exact ⟨rfl, rfl, rfl, rfl⟩
  | persistWrite i ok =>
    obtain ⟨-, -, -, hactor, hsaved, -⟩ := persistWrite_frame s i ok i
    simp only [Background.op, step]
    exact ⟨by rw [hactor], by rw [hactor], by rw [hactor], by rw [hsaved]⟩
  | watcherRead =>
    simp only [Background.op, step, watcherRead]
    split <;> exact ⟨rfl, rfl, rfl, rfl⟩
  | watcherWrite ok =>
    simp only [Background.op, step, watcherWrite]
    split
    · exact ⟨rfl, rfl, rfl, by cases ok <;> rfl⟩
    · exact .refl s

/-- **The turn keeps the actor.** Whatever goes on while a turn of the actor waits, its configuration, its worker and the
persisted configuration stay as the turn has left them. -/
theorem background_frame (s : Host Change Index Row) (ops : List (Background Change)) :
    TurnFrame s (background Q s ops) := by
  induction ops generalizing s with
  | nil => exact .refl s
  | cons op ops ih => exact (step_turnFrame Q s op).trans (ih (step Q s op.op))

/-! ## The call, point by point -/

section Call

variable (s : Host Change Index Row) (r : ConfigureCall Change)

theorem atPersisted_frame (h : s.actor.config = none) :
    (r.atPersisted Q s).actor.config = some r.spec ∧ (r.atPersisted Q s).actor.turn = .configurePersist ∧
      (r.atPersisted Q s).actor.worker = s.actor.worker := by
  have hframe := background_frame Q (configure s r.spec) r.whilePersisting
  have hconfigure : configure s r.spec =
      { s with actor := { s.actor.changeState .configured with config := some r.spec, turn := .configurePersist } } := by
    simp [configure, h]
  exact ⟨by rw [ConfigureCall.atPersisted, hframe.config, hconfigure],
    by rw [ConfigureCall.atPersisted, hframe.turn, hconfigure],
    by rw [ConfigureCall.atPersisted, hframe.worker, hconfigure]; rfl⟩

theorem atRegistered_frame (h : s.actor.config = none) :
    (r.atRegistered Q s).actor.config = some r.spec ∧ (r.atRegistered Q s).actor.turn = .configureReminder ∧
      (r.atRegistered Q s).actor.worker = s.actor.worker := by
  obtain ⟨hconfig, hturn, hworker⟩ := atPersisted_frame Q s r h
  have hframe := background_frame Q (turn Q (r.atPersisted Q s) true) r.whileRegistering
  have hnext : (turn Q (r.atPersisted Q s) true).actor = { (r.atPersisted Q s).actor with turn := .configureReminder } := by
    simp [turn, hturn]
  exact ⟨by rw [ConfigureCall.atRegistered, hframe.config, hnext]; exact hconfig,
    by rw [ConfigureCall.atRegistered, hframe.turn, hnext],
    by rw [ConfigureCall.atRegistered, hframe.worker, hnext]; exact hworker⟩

omit [DecidableEq Row] in
/-- no outcome of a call that `configure` waits on takes the configuration back -/
theorem turn_config {t : Host Change Index Row} {spec : QuerySpec} (ok : Bool) (hconfig : t.actor.config = some spec)
    (hturn : t.actor.turn = .configurePersist ∨ t.actor.turn = .configureReminder) :
    (turn Q t ok).actor.config = some spec := by
  obtain hturn | hturn := hturn
  · cases ok <;> simpa [turn, hturn] using hconfig
  · cases ok with
    | false => simpa [turn, hturn] using hconfig
    | true =>
      simp only [turn, hturn, if_true]
      obtain ⟨-, heq⟩ | ⟨-, ⟨hnone, -⟩ | ⟨_, -, heq⟩⟩ := initWorker_cases Q
        { t with actor := { t.actor with turn := .idle }, saved := { t.saved with reminder := true } }
      · rw [heq]
        exact hconfig
      · exact absurd (hconfig.symm.trans hnone) (Option.some_ne_none spec)
      · rw [heq]
        exact hconfig

/-- **What the call leaves in memory.** A query that was not configured is configured after the call, whatever the
answer. -/
theorem run_config (h : s.actor.config = none) : (r.run Q s).1.actor.config = some r.spec := by
  obtain ⟨hpersisted, hpersistTurn, -⟩ := atPersisted_frame Q s r h
  obtain ⟨hregistered, hregisterTurn, -⟩ := atRegistered_frame Q s r h
  have hnone : s.actor.config.isSome = false := by rw [h]; rfl
  simp only [ConfigureCall.run, hnone]
  split
  · next hs => cases hs
  split
  · exact turn_config Q false hpersisted (.inl hpersistTurn)
  split
  · exact turn_config Q false hregistered (.inr hregisterTurn)
  split
  · exact turn_config Q true hregistered (.inr hregisterTurn)
  · exact turn_config Q true hregistered (.inr hregisterTurn)

/-- no worker of the actor is at work when `configure` comes to start one -/
def ConfigureCall.workerFree (Q : ContinuousQuery Change Index Row) (s : Host Change Index Row)
    (r : ConfigureCall Change) : Prop :=
  ∀ i, s.actor.worker = some i → ((r.atRegistered Q s).worker i).isFinished = true

theorem initFails_iff (h : s.actor.config = none) : (r.atRegistered Q s).initFails = false ↔ r.workerFree Q s := by
  obtain ⟨hconfig, -, hworker⟩ := atRegistered_frame Q s r h
  rw [Host.initFails, hconfig, hworker, ConfigureCall.workerFree]
  cases hw : s.actor.worker with
  | none => simp
  | some i => simp

/-- when a query that was not configured is answered with success -/
theorem run_ok_iff (h : s.actor.config = none) :
    (r.run Q s).2.isError = false ↔ r.persisted = true ∧ r.registered = true ∧ r.workerFree Q s := by
  rw [← initFails_iff Q s r h]
  have hnone : s.actor.config.isSome = false := by rw [h]; rfl
  simp only [ConfigureCall.run, hnone]
  cases r.persisted <;> cases r.registered <;> cases (r.atRegistered Q s).initFails <;>
    simp [ConfigureAnswer.isError, ConfigureAnswer.response]

/-- a query that is configured is left as it is -/
theorem run_of_configured (h : s.actor.config.isSome = true) : r.run Q s = (s, .alreadyConfigured) := by
  obtain ⟨spec, hspec⟩ := Option.isSome_iff_exists.1 h
  simp [ConfigureCall.run, configure, hspec]

/-! ## Atomicity -/

/-- **Configure is atomic on error** if and only if the query was configured before, or the state transaction and the
reminder succeed and no worker of the actor is at work. -/
theorem configure_atomic_iff :
    ((r.run Q s).2.isError = true → Unchanged s (r.run Q s).1) ↔
      s.actor.config.isSome = true ∨ (r.persisted = true ∧ r.registered = true ∧ r.workerFree Q s) := by
  cases hsome : s.actor.config.isSome with
  | true =>
    rw [run_of_configured Q s r hsome]
    exact ⟨fun _ => .inl rfl, fun _ _ => ⟨rfl, rfl, rfl⟩⟩
  | false =>
    have hnone : s.actor.config = none := by simpa using hsome
    rw [← run_ok_iff Q s r hnone]
    constructor
    · intro hatomic
      refine .inr (Bool.eq_false_iff.2 fun herr => ?_)
      have hconfig := (hatomic herr).config
      rw [run_config Q s r hnone, hnone] at hconfig
      cases hconfig
    · rintro (hs | hok) herr
      · cases hs
      · rw [hok] at herr
        cases herr

/-- **Repeating the request.** After any call, the failed ones included, every further request is refused until the query
is deprovisioned. -/
theorem repeated_configure (r' : ConfigureCall Change) :
    r'.run Q (r.run Q s).1 = ((r.run Q s).1, .alreadyConfigured) := by
  refine run_of_configured Q _ r' ?_
  cases hsome : s.actor.config.isSome with
  | true => rw [run_of_configured Q s r hsome]; exact hsome
  | false => rw [run_config Q s r (by simpa using hsome)]; rfl

end Call

/-- the state transaction fails -/
def failedTransaction : ConfigureCall ℕ := ⟨spec false, [], false, [], true⟩

/-- the actor has just been activated; the failed request is answered with 500 and keeps its configuration, and the same
request is then answered with 409 though nothing fails any more -/
theorem failed_transaction_keeps_config :
    (¬ ∀ (s : Host ℕ (Finset ℕ) ℕ) (r : ConfigureCall ℕ),
      (r.run collect s).2.isError = true → Unchanged s (r.run collect s).1) ∧
    (failedTransaction.run collect (step collect (.init collect) (.activate true))).2 = .errorPersisting ∧
    (failedTransaction.run collect (step collect (.init collect) (.activate true))).1.actor.config = some (spec false) ∧
    (failedTransaction.run collect (step collect (.init collect) (.activate true))).1.saved.config = none ∧
    ({ failedTransaction with persisted := true }.run collect
      (failedTransaction.run collect (step collect (.init collect) (.activate true))).1).2 = .alreadyConfigured := by
  refine ⟨fun h => ?_, ?_, ?_, ?_, ?_⟩
  · have hconfig := (h (step collect (.init collect) (.activate true)) failedTransaction (by decide)).config
    revert hconfig
    decide
  all_goals decide

end DrasiPlatform.QueryHost
