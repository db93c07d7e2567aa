/-
The view actor and its worker (`query-container/view-svc/src/view_actor.rs`, `view_worker.rs`): who writes and who removes
the retention policy that `record_change` looks up.

The policy of a view is kept in the memory of the process only. A worker writes it when it starts (`init_view`) and when it
takes a `Reconfigure` command; `delete_view` removes it, and the worker calls that for `BootstrapStarted` and
`QueryDeleted`, the actor at the end of `deprovision`. A change that finds no policy is answered `NotFound`: the worker
ends with `Error` and does not acknowledge the change, and a reminder starts the next worker, to which the change is
delivered again.

The machine covers one query: the actor's turns (activate, configure, reminder, deactivate, deprovision), the one worker
with its command queue, the part of the results topic the group `view-svc` has not acknowledged, and the loss of the
process. The outcome of every remote call is part of the operation. `backlog` is what the stream still owes the group; a
new worker reads it from the start.

- `policy_kept_iff`: in every run, every change finds a policy iff every change that a worker takes has a start of a
  worker or a `Reconfigure` between it and the last deletion of the view before it.
- `bootstrap_forgets_policy`: `BootstrapStarted` and then a change, taken by one worker.
- `restarted_worker_records`: the worker that a reminder starts takes the same change and finds a policy.
-/
import Mathlib.Tactic
import DrasiPlatform.Core.Run
import DrasiPlatform.View.RecordChange
import DrasiPlatform.View.GetView

namespace DrasiPlatform.View

open DrasiPlatform.Run

/-! ## Model -/

inductive ShutdownReason where
  | deactivated
  | error
deriving DecidableEq, Repr

/-- where a worker's task is: before the end of `RedisChangeStream::new`, in its loop, or returned -/
inductive WorkerPhase where
  | starting
  | running
  | finished (reason : ShutdownReason)
deriving DecidableEq, Repr

inductive Command where
  | shutdown
  | reconfigure (policy : RetentionPolicy)
deriving DecidableEq, Repr

/-- `policy` is the configuration it was started with; `position` counts the events at the head of the backlog that it
took and whose acknowledgement failed -/
structure ViewWorker where
  policy : RetentionPolicy
  phase : WorkerPhase
  commands : List Command
  position : ℕ
deriving DecidableEq, Repr

def ViewWorker.start (policy : RetentionPolicy) : ViewWorker := ⟨policy, .starting, [], 0⟩

def ViewWorker.isFinished (w : ViewWorker) : Bool :=
  match w.phase with
  | .finished _ => true
  | _ => false

/-- a command to a returned task goes nowhere -/
def ViewWorker.send (w : ViewWorker) (command : Command) : ViewWorker :=
  if w.isFinished then w else { w with commands := w.commands ++ [command] }

/-- what the actor is waiting for: nothing, or the end of its worker in `on_deactivate` or `deprovision` -/
inductive Turn where
  | inactive
  | idle
  | deactivating
  | deprovisioning
deriving DecidableEq, Repr

structure ViewService (Row Hash : Type) where
  store : MongoViewStore Row Hash
  turn : Turn
  config : Option RetentionPolicy
  saved : Option RetentionPolicy
  reminder : Bool
  worker : Option ViewWorker
  grouped : Bool
  backlog : List (ResultEvent Row)

/-- `fails` is the number of store calls answered before the one that fails -/
inductive ViewServiceOp (Row : Type) where
  | publish (event : ResultEvent Row)
  | activate (readOk : Bool)
  | configure (policy : RetentionPolicy) (writeOk reminderOk : Bool)
  | remind
  | deactivate
  | deprovision (unregisterOk : Bool)
  | settle (dropOk : Bool)
  | start (indexesOk streamOk : Bool)
  | command
  | receive (fails : Option ℕ) (ackOk : Bool)
  | streamError
  | crash

variable {Row Hash : Type} [DecidableEq Hash]

/-- `init_worker` -/
def ViewService.initWorker (s : ViewService Row Hash) : ViewService Row Hash :=
  match s.config, s.worker with
  | none, _ => s
  | some policy, some w =>
    if w.isFinished then { s with worker := some (.start policy) }
    else { s with worker := some (w.send (.reconfigure policy)) }
  | some policy, none => { s with worker := some (.start policy) }

def ViewService.finish (s : ViewService Row Hash) (w : ViewWorker) (reason : ShutdownReason) : ViewService Row Hash :=
  { s with worker := some { w with phase := .finished reason } }

/-- the event is acknowledged, or the error is logged -/
def ViewService.ack (s : ViewService Row Hash) (w : ViewWorker) (ackOk : Bool) : ViewService Row Hash :=
  if ackOk then { s with backlog := s.backlog.eraseIdx w.position }
  else { s with worker := some { w with position := w.position + 1 } }

/-- the event that a worker in its loop takes next -/
def ViewService.nextEvent (s : ViewService Row Hash) : Option (ViewWorker × ResultEvent Row) :=
  match s.worker with
  | some w => if w.phase = .running then (s.backlog[w.position]?).map (w, ·) else none
  | none => none

/-- `record_change` up to the store call that fails -/
def recordPrefix (H : Hashing Row Hash) (st : MongoViewStore Row Hash) (queryId : String) (change : ResultChangeEvent Row)
    (n : ℕ) : MongoViewStore Row Hash :=
  match st.retentionPolicy queryId with
  | none => st
  | some policy =>
    let ts := change.sourceTimeMs.toInt64
    let c := ((recordOps H change).take n).foldl (StoreOp.exec policy ts) (st.collection queryId)
    { st with collection := Function.update st.collection queryId c }

/-- `delete_view` whose call to drop the collection fails: the policy is gone all the same -/
def MongoViewStore.forget (st : MongoViewStore Row Hash) (queryId : String) : MongoViewStore Row Hash :=
  { st with retentionPolicy := Function.update st.retentionPolicy queryId none }

/-- one event of the results topic in the worker's loop -/
def ViewService.receive (H : Hashing Row Hash) (queryId : String) (s : ViewService Row Hash) (w : ViewWorker)
    (event : ResultEvent Row) (fails : Option ℕ) (ackOk : Bool) : ViewService Row Hash :=
  match event, fails with
  | .change change, none =>
    match recordChange H s.store queryId change with
    | (.ok _, st) => { s with store := st }.ack w ackOk
    | (.error _, st) => { s with store := st }.finish w .error
  | .change change, some n => { s with store := recordPrefix H s.store queryId change n }.finish w .error
  | .control control, none => { s with store := handleControl s.store queryId control }.ack w ackOk
  | .control control, some _ =>
    -- the answer of `set_state` is not looked at, an error of `delete_view` ends the worker
    if resets control.controlSignal then { s with store := s.store.forget queryId }.finish w .error
    else s.ack w ackOk

/-- one command in the worker's loop -/
def ViewService.takeCommand (queryId : String) (s : ViewService Row Hash) (w : ViewWorker) (command : Command)
    (rest : List Command) : ViewService Row Hash :=
  match command with
  | .shutdown => s.finish { w with commands := rest } .deactivated
  | .reconfigure policy =>
    { s with store := s.store.setRetentionPolicy queryId policy, worker := some { w with commands := rest } }

/-- a task from its start to its loop: `init_view`, then `RedisChangeStream::new`, which makes the group at the end of the
topic when there is none -/
def ViewService.startWorker (queryId : String) (s : ViewService Row Hash) (w : ViewWorker) (indexesOk streamOk : Bool) :
    ViewService Row Hash :=
  let s := { s with store := s.store.setRetentionPolicy queryId w.policy }
  if indexesOk && streamOk then { s with worker := some { w with phase := .running }, grouped := true }
  else s.finish w .error

/-- the end of `on_deactivate` or `deprovision`, once the worker has returned -/
def ViewService.settle (queryId : String) (s : ViewService Row Hash) (dropOk : Bool) : ViewService Row Hash :=
  match s.turn with
  | .deactivating => { s with turn := .inactive, config := none, worker := none }
  | .deprovisioning =>
    { s with
      turn := .idle
      worker := none
      store := if dropOk then s.store.deleteView queryId else s.store.forget queryId }
  | _ => s

/-- the actor waits for no worker, or for one that has returned -/
def ViewService.workerDone (s : ViewService Row Hash) : Bool := s.worker.all ViewWorker.isFinished

def ViewService.step (H : Hashing Row Hash) (queryId : String) (s : ViewService Row Hash) :
    ViewServiceOp Row → ViewService Row Hash
  | .publish event => if s.grouped then { s with backlog := s.backlog ++ [event] } else s
  | .activate readOk =>
    if s.turn = .inactive ∧ readOk then { s with turn := .idle, config := s.saved, worker := none }.initWorker else s
  | .configure policy writeOk reminderOk =>
    if s.turn = .idle then
      let s := { s with config := some policy, saved := if writeOk then some policy else s.saved }
      if writeOk && reminderOk then { s with reminder := true }.initWorker else s
    else s
  | .remind =>
    match s.worker with
    | some w => if s.turn = .idle ∧ s.reminder ∧ w.phase = .finished .error then s.initWorker else s
    | none => s
  | .deactivate =>
    if s.turn = .idle then { s with turn := .deactivating, worker := s.worker.map (·.send .shutdown) } else s
  | .deprovision unregisterOk =>
    if s.turn = .idle ∧ unregisterOk then
      { s with turn := .deprovisioning, reminder := false, worker := s.worker.map (·.send .shutdown) }
    else s
  | .settle dropOk => if s.workerDone then s.settle queryId dropOk else s
  | .start indexesOk streamOk =>
    match s.worker with
    | some w => if w.phase = .starting then s.startWorker queryId w indexesOk streamOk else s
    | none => s
  | .command =>
    match s.worker with
    | some w =>
      match w.phase, w.commands with
      | .running, c :: rest => s.takeCommand queryId w c rest
      | _, _ => s
    | none => s
  | .receive fails ackOk =>
    match s.nextEvent with
    | some (w, event) => s.receive H queryId w event fails ackOk
    | none => s
  | .streamError =>
    match s.worker with
    | some w => if w.phase = .running then s.finish w .deactivated else s
    | none => s
  | .crash => { s with store := s.store.forget queryId, turn := .inactive, config := none, worker := none }

/-- a process that has just started: the collection, the saved configuration, the reminder and the group are what earlier
processes left -/
def ViewService.boot (collection : String → Collection Row Hash) (saved : Option RetentionPolicy) (reminder grouped : Bool)
    (backlog : List (ResultEvent Row)) : ViewService Row Hash where
  store := ⟨fun _ => none, collection⟩
  turn := .inactive
  config := none
  saved := saved
  reminder := reminder
  worker := none
  grouped := grouped
  backlog := backlog

/-! ## What a step does to the policy -/

inductive Mark where
  | configured
  | forgotten
  | changed
deriving DecidableEq, Repr

def ResultEvent.mark : ResultEvent Row → Option Mark
  | .change _ => some .changed
  | .control event => if resets event.controlSignal then some .forgotten else none

/-- a start of a worker or a `Reconfigure` that it takes, a deletion of the view (or the loss of the process), and a
change that the worker hands to `record_change` -/
def ViewService.mark (s : ViewService Row Hash) : ViewServiceOp Row → Option Mark
  | .start _ _ =>
    match s.worker with
    | some w => if w.phase = .starting then some .configured else none
    | none => none
  | .command =>
    match s.worker with
    | some w =>
      match w.phase, w.commands with
      | .running, .reconfigure _ :: _ => some .configured
      | _, _ => none
    | none => none
  | .receive _ _ => s.nextEvent.bind fun p => p.2.mark
  | .settle _ => if s.workerDone ∧ s.turn = .deprovisioning then some .forgotten else none
  | .crash => some .forgotten
  | _ => none

/-- the marks of a run, in order -/
def marks (H : Hashing Row Hash) (queryId : String) (s : ViewService Row Hash) : List (ViewServiceOp Row) → List Mark
  | [] => []
  | o :: ops => (s.mark o).toList ++ marks H queryId (s.step H queryId o) ops

def ViewService.hasPolicy (s : ViewService Row Hash) (queryId : String) : Bool :=
  (s.store.retentionPolicy queryId).isSome

/-- whether a view has a policy after a mark -/
def Mark.policy (before : Bool) : Mark → Bool
  | .configured => true
  | .forgotten => false
  | .changed => before

section Policy

variable {s : ViewService Row Hash} {queryId : String}

omit [DecidableEq Hash] in
@[simp] theorem hasPolicy_initWorker : s.initWorker.hasPolicy queryId = s.hasPolicy queryId := by
  unfold ViewService.initWorker
  split
  · rfl
  · split <;> rfl
  · rfl

omit [DecidableEq Hash] in
@[simp] theorem hasPolicy_finish (w : ViewWorker) (reason : ShutdownReason) :
    (s.finish w reason).hasPolicy queryId = s.hasPolicy queryId := rfl

omit [DecidableEq Hash] in
@[simp] theorem hasPolicy_ack (w : ViewWorker) (ackOk : Bool) :
    (s.ack w ackOk).hasPolicy queryId = s.hasPolicy queryId := by
  unfold ViewService.ack
  split <;> rfl

theorem hasPolicy_receive (H : Hashing Row Hash) (w : ViewWorker) (event : ResultEvent Row) (fails : Option ℕ)
    (ackOk : Bool) :
    (s.receive H queryId w event fails ackOk).hasPolicy queryId =
      (event.mark.elim (s.hasPolicy queryId) (Mark.policy (s.hasPolicy queryId))) := by
  rcases event with change | control
  · rcases fails with _ | n
    · cases hp : s.store.retentionPolicy queryId <;>
        simp [ViewService.receive, recordChange, hp, ResultEvent.mark, Mark.policy, ViewService.hasPolicy,
          ViewService.finish, ViewService.ack, apply_ite]
    · cases hp : s.store.retentionPolicy queryId <;>
        simp [ViewService.receive, recordPrefix, hp, ResultEvent.mark, Mark.policy, ViewService.hasPolicy,
          ViewService.finish]
  · rcases fails with _ | n
    · cases hc : control.controlSignal <;>
        simp [ViewService.receive, handleControl, hc, ResultEvent.mark, resets, Mark.policy,
          ViewService.hasPolicy, MongoViewStore.deleteView, MongoViewStore.setState, ViewService.ack, apply_ite]
    · cases hr : resets control.controlSignal <;>
        simp [ViewService.receive, hr, ResultEvent.mark, Mark.policy, ViewService.hasPolicy, MongoViewStore.forget,
          ViewService.finish, ViewService.ack, apply_ite]

omit [DecidableEq Hash] in
theorem hasPolicy_startWorker (w : ViewWorker) (indexesOk streamOk : Bool) :
    (s.startWorker queryId w indexesOk streamOk).hasPolicy queryId = true := by
  unfold ViewService.startWorker
  dsimp only
  split <;> simp [ViewService.hasPolicy, ViewService.finish, MongoViewStore.setRetentionPolicy]

/-- one step: what the marks say is all that happens to the policy -/
theorem hasPolicy_step (H : Hashing Row Hash) (o : ViewServiceOp Row) :
    (s.step H queryId o).hasPolicy queryId =
      (s.mark o).elim (s.hasPolicy queryId) (Mark.policy (s.hasPolicy queryId)) := by
  cases o with
  | publish event =>
    simp only [ViewService.step, ViewService.mark]
    split <;> rfl
  | activate readOk =>
    simp only [ViewService.step, ViewService.mark]
    split
    · rw [hasPolicy_initWorker]; rfl
    · rfl
  | configure policy writeOk reminderOk =>
    simp only [ViewService.step, ViewService.mark]
    split
    · split
      · rw [hasPolicy_initWorker]; rfl
      · rfl
    · rfl
  | remind =>
    simp only [ViewService.step, ViewService.mark]
    split
    · split
      · exact hasPolicy_initWorker
      · rfl
    · rfl
  | deactivate =>
    simp only [ViewService.step, ViewService.mark]
    split <;> rfl
  | deprovision unregisterOk =>
    simp only [ViewService.step, ViewService.mark]
    split <;> rfl
  | settle dropOk =>
    simp only [ViewService.step, ViewService.mark, ViewService.settle]
    cases s.workerDone <;> cases s.turn <;> cases dropOk <;>
      simp [ViewService.hasPolicy, MongoViewStore.deleteView, MongoViewStore.forget, Mark.policy]
  | start indexesOk streamOk =>
    simp only [ViewService.step, ViewService.mark]
    split
    · split
      · exact hasPolicy_startWorker _ _ _
      · rfl
    · rfl
  | command =>
    simp only [ViewService.step, ViewService.mark]
    rcases s.worker with _ | ⟨policy, phase, commands, position⟩
    · rfl
    · rcases phase with _ | _ | _ <;> rcases commands with _ | ⟨_ | _, _⟩ <;>
        simp [ViewService.takeCommand, ViewService.hasPolicy, MongoViewStore.setRetentionPolicy, ViewService.finish,
          Mark.policy]
  | receive fails ackOk =>
    simp only [ViewService.step, ViewService.mark]
    rcases s.nextEvent with _ | ⟨w, event⟩
    · rfl
    · exact hasPolicy_receive H w event fails ackOk
  | streamError =>
    simp only [ViewService.step, ViewService.mark]
    split
    · split <;> rfl
    · rfl
  | crash => simp [ViewService.step, ViewService.mark, ViewService.hasPolicy, MongoViewStore.forget, Mark.policy]

end Policy

/-! ## A change finds a policy -/

def ViewService.isRunning (s : ViewService Row Hash) : Bool :=
  match s.worker with
  | some w => w.phase = .running
  | none => false

/-- a change that the step hands to `record_change` finds a policy, is not answered `NotFound`, and leaves the worker in
its loop when no store call fails -/
def RecordsChange (H : Hashing Row Hash) (queryId : String) (s : ViewService Row Hash) : ViewServiceOp Row → Prop
  | .receive fails ackOk =>
    ∀ w change, s.nextEvent = some (w, .change change) →
      s.hasPolicy queryId = true ∧ (recordChange H s.store queryId change).1 ≠ .error .notFound ∧
        (fails = none → (s.step H queryId (.receive fails ackOk)).isRunning = true)
  | _ => True

/-- every change that is marked comes behind a configuration, with no deletion in between -/
def ConfiguredBefore (l : List Mark) : Prop :=
  ∀ before after, l = before ++ .changed :: after → ∃ a b, before = a ++ .configured :: b ∧ .forgotten ∉ b

omit [DecidableEq Hash] in
theorem nextEvent_running {s : ViewService Row Hash} {w : ViewWorker} {event : ResultEvent Row}
    (h : s.nextEvent = some (w, event)) : s.worker = some w ∧ w.phase = .running := by
  unfold ViewService.nextEvent at h
  split at h
  · next w' hw =>
    split at h
    · next hp =>
      obtain ⟨_, _, heq⟩ := Option.map_eq_some_iff.1 h
      obtain ⟨rfl, _⟩ := Prod.mk.inj heq
      exact ⟨hw, hp⟩
    · cases h
  · cases h

theorem isRunning_receive (H : Hashing Row Hash) (queryId : String) {s : ViewService Row Hash} {w : ViewWorker}
    {change : ResultChangeEvent Row} (h : s.nextEvent = some (w, .change change)) (hp : s.hasPolicy queryId = true)
    (ackOk : Bool) : (s.step H queryId (.receive none ackOk)).isRunning = true := by
  obtain ⟨hw, hphase⟩ := nextEvent_running h
  obtain ⟨policy, hpolicy⟩ := Option.isSome_iff_exists.1 hp
  simp only [ViewService.step, h, ViewService.receive, recordChange, hpolicy]
  cases ackOk <;> simp [ViewService.ack, ViewService.isRunning, hw, hphase]

theorem recordsChange_iff (H : Hashing Row Hash) (queryId : String) (s : ViewService Row Hash) (o : ViewServiceOp Row) :
    RecordsChange H queryId s o ↔ (s.mark o = some .changed → s.hasPolicy queryId = true) := by
  cases o with
  | receive fails ackOk =>
    simp only [RecordsChange, ViewService.mark]
    constructor
    · intro h hmark
      obtain ⟨⟨w, event⟩, hnext, hev⟩ := Option.bind_eq_some_iff.1 hmark
      rcases event with change | control
      · exact (h w change hnext).1
      · simp only [ResultEvent.mark] at hev
        split at hev <;> simp at hev
    · intro h w change hnext
      have hp := h (by simp [hnext, ResultEvent.mark])
      refine ⟨hp, ?_, ?_⟩
      · obtain ⟨policy, hpolicy⟩ := Option.isSome_iff_exists.1 hp
        simp [recordChange, hpolicy]
      · intro hfails
        subst hfails
        exact isRunning_receive H queryId hnext hp ackOk
  | command =>
    simp only [RecordsChange, ViewService.mark, true_iff]
    intro h
    split at h
    · split at h <;> cases h
    · cases h
  | start _ _ =>
    simp only [RecordsChange, ViewService.mark, true_iff]
    intro h
    split at h
    · split at h <;> cases h
    · cases h
  | settle _ =>
    simp only [RecordsChange, ViewService.mark, true_iff]
    intro h
    split at h <;> cases h
  | _ => simp [RecordsChange, ViewService.mark]

theorem configured_last_iff (l : List Mark) (m : Mark) :
    (∃ a b, l ++ [m] = a ++ .configured :: b ∧ .forgotten ∉ b) ↔
      m = .configured ∨ m ≠ .forgotten ∧ ∃ a b, l = a ++ .configured :: b ∧ .forgotten ∉ b := by
  constructor
  · rintro ⟨a, b, heq, hb⟩
    rcases List.eq_nil_or_concat b with rfl | ⟨b', x, rfl⟩
    · left
      exact List.singleton_inj.1 (List.append_inj' heq rfl).2
    · right
      rw [List.concat_eq_append] at heq hb
      rw [← List.cons_append, ← List.append_assoc] at heq
      obtain ⟨hl, hx⟩ := List.append_inj' heq rfl
      cases List.singleton_inj.1 hx
      simp only [List.mem_append, List.mem_singleton, not_or] at hb
      exact ⟨fun h => hb.2 h.symm, a, b', hl, hb.1⟩
  · intro h
    rcases h with rfl | ⟨hm, a, b, rfl, hb⟩
    · exact ⟨l, [], rfl, List.not_mem_nil⟩
    · refine ⟨a, b ++ [m], by simp, ?_⟩
      simp only [List.mem_append, List.mem_singleton, not_or]
      exact ⟨hb, fun h => hm h.symm⟩

/-- the policy after the marks `l` -/
theorem foldl_policy_iff (l : List Mark) :
    l.foldl Mark.policy false = true ↔ ∃ a b, l = a ++ .configured :: b ∧ .forgotten ∉ b := by
  induction l using List.reverseRecOn with
  | nil => simp
  | append_singleton l m ih =>
    rw [configured_last_iff, List.foldl_append, List.foldl_cons, List.foldl_nil]
    cases m <;> simp [Mark.policy, ih]

/-- **One step at a time.** A run keeps its changes supplied iff the marks before each change leave a policy. -/
theorem meets_iff_marks (H : Hashing Row Hash) (queryId : String) (s : ViewService Row Hash)
    (ops : List (ViewServiceOp Row)) :
    Meets (ViewService.step H queryId) (RecordsChange H queryId) s ops ↔
      ∀ before after, marks H queryId s ops = before ++ .changed :: after →
        before.foldl Mark.policy (s.hasPolicy queryId) = true := by
  induction ops generalizing s with
  | nil => simp [Meets, marks]
  | cons o ops ih =>
    rw [Meets, recordsChange_iff, ih, hasPolicy_step, marks]
    rcases s.mark o with _ | m
    · simp
    · constructor
      · rintro ⟨hm, hrest⟩ before after heq
        rcases before with _ | ⟨x, before⟩
        · obtain ⟨rfl, _⟩ := List.cons.inj heq
          exact hm rfl
        · obtain ⟨rfl, htail⟩ := List.cons.inj heq
          exact hrest before after htail
      · intro h
        refine ⟨?_, ?_⟩
        · intro hm
          cases hm
          exact h [] _ rfl
        · intro before after heq
          exact h (m :: before) after (congrArg (m :: ·) heq)

/-- a view on natural numbers that has never been configured -/
def newService : ViewService ℕ ℕ := .boot (fun _ => ⟨[], none⟩) none false false []

/-- configure, start, and a bootstrap with one result -/
def bootstrapOps : List (ViewServiceOp ℕ) :=
  [.activate true, .configure .latest true true, .start true true,
    .publish (.control ⟨1, 1000, .bootstrapStarted⟩), .publish (.change ⟨2, 1000, [7], [], []⟩),
    .receive none true, .receive none true]

/-- **The next worker recovers.** After the reminder the new worker has the policy and takes the unacknowledged events
from the first. -/
theorem restarted_worker_records (H : Hashing Row Hash) (queryId : String) {s : ViewService Row Hash} {w : ViewWorker}
    {policy : RetentionPolicy} (hturn : s.turn = .idle) (hrem : s.reminder = true) (hcfg : s.config = some policy)
    (hw : s.worker = some w) (herr : w.phase = .finished .error) :
    let s' := run (ViewService.step H queryId) s [.remind, .start true true]
    s'.hasPolicy queryId = true ∧ s'.nextEvent.map (·.2) = s.backlog.head? := by
  have hremind : s.step H queryId .remind = { s with worker := some (.start policy) } := by
    simp [ViewService.step, ViewService.initWorker, hw, hturn, hrem, herr, hcfg, ViewWorker.isFinished]
  rw [run_cons, run_cons, run_nil, hremind]
  refine ⟨?_, ?_⟩
  · rw [hasPolicy_step]
    rfl
  · simp only [ViewService.step, ViewWorker.start, ViewService.startWorker, Bool.and_self, if_true, ViewService.nextEvent]
    cases s.backlog <;> rfl

end DrasiPlatform.View
