/-
The query actor with its workers (`query-container/query-host/src/query_actor.rs`, `models.rs`) and what they share: the
actor's persisted state, the index store, the change stream and the results topic of one query.

One list of operations (`Op`) is any interleaving of
- the actor's turns, await by await (`configure`, `deprovision` and the `turn`s that follow, `activate`, `deactivate`,
  `reminder`): the actor runtime starts no turn before the last one has ended;
- the steps of every worker that was ever started, with the outcome of the call it waits on (`worker`);
- the lifecycle status watcher (`watcherRead`, `watcherWrite`), which stores the latest state it has not seen;
- the persist task of every sequence manager (`persistRead`, `persistWrite`);
- changes that arrive on the stream, and a crash of the host.

Workers are numbered in the order they were started. `deprovision` and `shutdown` only send a command; the worker goes on
until its main loop takes it. The query is not transient, and the actor is deactivated only when no worker of it runs.

A worker's index is the persistent store of the query or, with a volatile storage profile, memory of its own. `filled`,
`owner` and `removals` are histories: whether a completed bootstrap filled the index, which worker established a resource,
and what the Delete command of a worker removed.
-/
import Mathlib.Tactic
import DrasiPlatform.Core.Run
import DrasiPlatform.Core.Sequential
import DrasiPlatform.QueryHost.QueryWorker

namespace DrasiPlatform.QueryHost

/-! ## State -/

/-- the index of a query: element, archive and result index, and the stored sequence -/
structure Store (Index : Type) where
  index : Index
  sequence : ℕ
  /-- filled by a bootstrap that ran to completion, and not cleared since -/
  filled : Bool

/-- the persist task of a sequence manager: its watch channel and the write it is doing (and whether it is the last) -/
structure PersistTask where
  running : Bool
  value : ℕ
  unseen : Bool
  closed : Bool
  inFlight : Option (ℕ × Bool)
deriving DecidableEq

structure Worker (Change Index Row : Type) where
  spec : QuerySpec
  pc : Pc Change Row
  commands : List Command
  /-- no sender of the command channel is left -/
  closed : Bool
  memory : Store Index
  sequence : ℕ
  persist : PersistTask

/-- where the actor's turn waits -/
inductive Turn where
  | idle
  | configurePersist
  | configureReminder
  | deprovisionReminder
  | deprovisionPersist
  | deactivating
deriving DecidableEq, Repr

/-- the actor in memory -/
structure Actor where
  active : Bool
  turn : Turn
  /-- the lifecycle state -/
  state : QueryState
  /-- the latest state the watcher has not seen -/
  unseen : Option QueryState
  /-- the state the watcher is storing -/
  inFlight : Option QueryState
  config : Option QuerySpec
  worker : Option ℕ
deriving DecidableEq, Repr

/-- the actor's persisted state and its reminder -/
structure Saved where
  status : Option QueryState
  config : Option QuerySpec
  reminder : Bool
deriving DecidableEq, Repr

/-- what workers establish under names that depend on the query only -/
inductive Resource where
  | index
  | consumer
  | subscription (source : String)
deriving DecidableEq, Repr

/-- something of the worker `owner` removed by the Delete command of `remover` -/
structure Removal where
  remover : ℕ
  resource : Resource
  owner : ℕ
deriving DecidableEq, Repr

structure Host (Change Index Row : Type) where
  saved : Saved
  actor : Actor
  /-- the number of workers started so far -/
  count : ℕ
  worker : ℕ → Worker Change Index Row
  store : Store Index
  stream : Sequential (ChangeEvent Change)
  /-- what was published to the results topic, and whether the topic accepted it -/
  topic : List (ResultEvent Row × Bool)
  owner : Resource → Option ℕ
  removals : List Removal

variable {Change Index Row : Type}

/-- an actor that is not activated -/
def Actor.inactive : Actor := ⟨false, .idle, .new, none, none, none, none⟩

def Store.new (Q : ContinuousQuery Change Index Row) : Store Index := ⟨Q.empty, 0, false⟩

def PersistTask.none : PersistTask := ⟨false, 0, false, false, Option.none⟩

def Worker.new (Q : ContinuousQuery Change Index Row) (spec : QuerySpec) : Worker Change Index Row :=
  ⟨spec, .build, [], false, .new Q, 0, .none⟩

def Host.init (Q : ContinuousQuery Change Index Row) : Host Change Index Row where
  saved := ⟨none, none, false⟩
  actor := .inactive
  count := 0
  worker _ := { Worker.new Q ⟨false, []⟩ with pc := .finished }
  store := .new Q
  stream := ⟨[], []⟩
  topic := []
  owner _ := none
  removals := []

/-! ## Operations on the parts -/

/-- `change_state`: the cell and its watch channel -/
def Actor.changeState (a : Actor) (state : QueryState) : Actor := { a with state := state, unseen := some state }

def Worker.isFinished (w : Worker Change Index Row) : Bool :=
  match w.pc with
  | .finished => true
  | _ => false

def Host.setWorker (s : Host Change Index Row) (i : ℕ) (w : Worker Change Index Row) : Host Change Index Row :=
  { s with worker := Function.update s.worker i w }

/-- a worker goes on to another place -/
def Host.goto (s : Host Change Index Row) (i : ℕ) (pc : Pc Change Row) : Host Change Index Row :=
  s.setWorker i { s.worker i with pc := pc }

/-- `delete` and `shutdown` of a worker that is given up: the commands go out, then the last sender is dropped -/
def Worker.giveUp (w : Worker Change Index Row) : Worker Change Index Row :=
  { w with commands := if w.isFinished then w.commands else w.commands ++ [.delete, .shutdown], closed := true }

def Worker.shutdown (w : Worker Change Index Row) : Worker Change Index Row :=
  { w with commands := if w.isFinished then w.commands else w.commands ++ [.shutdown] }

/-- the index a worker uses -/
def Host.storeOf (s : Host Change Index Row) (i : ℕ) : Store Index :=
  if (s.worker i).spec.isVolatile then (s.worker i).memory else s.store

def Host.setStore (s : Host Change Index Row) (i : ℕ) (st : Store Index) : Host Change Index Row :=
  if (s.worker i).spec.isVolatile then s.setWorker i { s.worker i with memory := st } else { s with store := st }

/-- a resource established by a worker; a volatile index is nobody else's -/
def Host.establish (s : Host Change Index Row) (i : ℕ) (r : Resource) : Host Change Index Row :=
  if r = .index ∧ (s.worker i).spec.isVolatile then s else { s with owner := Function.update s.owner r (some i) }

/-- a resource removed by the Delete command of a worker -/
def Host.remove (s : Host Change Index Row) (i : ℕ) (r : Resource) : Host Change Index Row :=
  if r = .index ∧ (s.worker i).spec.isVolatile then s
  else
    { s with
      owner := Function.update s.owner r none
      removals := s.removals ++ ((s.owner r).map fun owner => ⟨i, r, owner⟩).toList }

/-- the watch channel of a sequence manager, after `increment` -/
def PersistTask.send (p : PersistTask) (value : ℕ) : PersistTask := { p with value := value, unseen := true }

/-- the u64 counter -/
def increment (sequence : ℕ) : ℕ := (sequence + 1) % 2 ^ 64

def Host.publish (s : Host Change Index Row) (event : ResultEvent Row) (accepted : Bool) : Host Change Index Row :=
  { s with topic := s.topic ++ [(event, accepted)] }

/-- one effect of a worker -/
def exec (Q : ContinuousQuery Change Index Row) (i : ℕ) (s : Host Change Index Row) :
    Effect Change Row → Host Change Index Row
  | .setState state => { s with actor := s.actor.changeState state }
  | .newIndex => s.setWorker i { s.worker i with memory := .new Q }
  | .clearIndex => s.setStore i { s.storeOf i with index := Q.empty, filled := false }
  | .process change =>
    (s.setStore i { s.storeOf i with index := Q.process change (s.storeOf i).index }).establish i .index
  | .bootstrapped => s.setStore i { s.storeOf i with filled := true }
  | .newSequence =>
    s.setWorker i { s.worker i with sequence := (s.storeOf i).sequence, persist := ⟨true, 0, false, false, none⟩ }
  | .increment =>
    let sequence := increment (s.worker i).sequence
    s.setWorker i { s.worker i with sequence := sequence, persist := (s.worker i).persist.send sequence }
  | .publishChange results accepted => s.publish (.change (s.worker i).sequence results) accepted
  | .publishControl signal accepted => s.publish (.control (s.worker i).sequence signal) accepted
  | .subscribe source => s.establish i (.subscription source)
  | .openStream => s.establish i .consumer
  | .ack => { s with stream := s.stream.step .ack }
  | .takeCommand => s.setWorker i { s.worker i with commands := (s.worker i).commands.tail }
  | .deleteIndex => (s.setStore i { s.storeOf i with index := Q.empty, filled := false }).remove i .index
  | .deleteConsumer pending =>
    ({ s with stream := { s.stream with waiting := s.stream.waiting.drop pending } } : Host Change Index Row).remove i
      .consumer
  | .unsubscribe source => s.remove i (.subscription source)
  | .drop => s.setWorker i { s.worker i with persist := { (s.worker i).persist with closed := true } }

/-! ### What an effect leaves as it is -/

section Effects

variable (Q : ContinuousQuery Change Index Row)

@[simp] theorem setWorker_self (s : Host Change Index Row) (i : ℕ) (w : Worker Change Index Row) :
    (s.setWorker i w).worker i = w := Function.update_self ..

theorem setWorker_of_ne (s : Host Change Index Row) {i j : ℕ} (h : j ≠ i) (w : Worker Change Index Row) :
    (s.setWorker i w).worker j = s.worker j := Function.update_of_ne h ..

@[simp] theorem setWorker_actor (s : Host Change Index Row) (i : ℕ) (w : Worker Change Index Row) :
    (s.setWorker i w).actor = s.actor := rfl

@[simp] theorem setWorker_saved (s : Host Change Index Row) (i : ℕ) (w : Worker Change Index Row) :
    (s.setWorker i w).saved = s.saved := rfl

@[simp] theorem setWorker_count (s : Host Change Index Row) (i : ℕ) (w : Worker Change Index Row) :
    (s.setWorker i w).count = s.count := rfl

/-- replacing a worker by one that agrees with it on `f` changes `f` of no worker -/
theorem setWorker_map {α : Type} (f : Worker Change Index Row → α) (s : Host Change Index Row) (i j : ℕ)
    {w : Worker Change Index Row} (h : f w = f (s.worker i)) : f ((s.setWorker i w).worker j) = f (s.worker j) := by
  by_cases hj : j = i
  · subst hj; simpa using h
  · rw [setWorker_of_ne s hj]

/-- a worker reads back the index it has written -/
@[simp] theorem storeOf_setStore (s : Host Change Index Row) (i : ℕ) (st : Store Index) :
    (s.setStore i st).storeOf i = st := by
  unfold Host.setStore
  cases hv : (s.worker i).spec.isVolatile <;> simp [Host.storeOf, hv]

theorem setStore_store (s : Host Change Index Row) (i : ℕ) (st : Store Index) :
    (s.setStore i st).store = if (s.worker i).spec.isVolatile then s.store else st := by
  unfold Host.setStore
  split <;> rfl

/-- a worker that keeps its specification and its memory keeps its index -/
theorem storeOf_setWorker (s : Host Change Index Row) (i j : ℕ) {w : Worker Change Index Row}
    (hspec : w.spec = (s.worker i).spec) (hmem : w.memory = (s.worker i).memory) :
    (s.setWorker i w).storeOf j = s.storeOf j := by
  simp only [Host.storeOf, setWorker_map (·.spec) s i j hspec, setWorker_map (·.memory) s i j hmem]
  rfl

@[simp] theorem goto_pc (s : Host Change Index Row) (i : ℕ) (pc : Pc Change Row) : ((s.goto i pc).worker i).pc = pc := by
  simp [Host.goto]

theorem goto_of_ne (s : Host Change Index Row) {i j : ℕ} (h : j ≠ i) (pc : Pc Change Row) :
    (s.goto i pc).worker j = s.worker j := setWorker_of_ne s h _

@[simp] theorem goto_spec (s : Host Change Index Row) (i j : ℕ) (pc : Pc Change Row) :
    ((s.goto i pc).worker j).spec = (s.worker j).spec := setWorker_map (·.spec) s i j rfl

@[simp] theorem goto_commands (s : Host Change Index Row) (i j : ℕ) (pc : Pc Change Row) :
    ((s.goto i pc).worker j).commands = (s.worker j).commands := setWorker_map (·.commands) s i j rfl

@[simp] theorem goto_storeOf (s : Host Change Index Row) (i : ℕ) (pc : Pc Change Row) :
    (s.goto i pc).storeOf i = s.storeOf i := storeOf_setWorker s i i rfl rfl

@[simp] theorem goto_actor (s : Host Change Index Row) (i : ℕ) (pc : Pc Change Row) : (s.goto i pc).actor = s.actor := rfl

@[simp] theorem storeOf_establish (s : Host Change Index Row) (i j : ℕ) (r : Resource) :
    (s.establish i r).storeOf j = s.storeOf j := by
  unfold Host.establish
  split <;> rfl

@[simp] theorem storeOf_remove (s : Host Change Index Row) (i j : ℕ) (r : Resource) :
    (s.remove i r).storeOf j = s.storeOf j := by
  unfold Host.remove
  split <;> rfl

@[simp] theorem establish_store (s : Host Change Index Row) (i : ℕ) (r : Resource) :
    (s.establish i r).store = s.store := by
  unfold Host.establish
  split <;> rfl

@[simp] theorem remove_store (s : Host Change Index Row) (i : ℕ) (r : Resource) : (s.remove i r).store = s.store := by
  unfold Host.remove
  split <;> rfl

/-- an effect leaves alone the worker's place in its program, its specification and whether it was given up -/
theorem exec_worker (s : Host Change Index Row) (i j : ℕ) (e : Effect Change Row) :
    ((exec Q i s e).worker j).pc = (s.worker j).pc ∧ ((exec Q i s e).worker j).spec = (s.worker j).spec := by
  have hset : ∀ w : Worker Change Index Row, w.pc = (s.worker i).pc → w.spec = (s.worker i).spec →
      ((s.setWorker i w).worker j).pc = (s.worker j).pc ∧ ((s.setWorker i w).worker j).spec = (s.worker j).spec :=
    fun w hpc hspec => ⟨setWorker_map (·.pc) s i j hpc, setWorker_map (·.spec) s i j hspec⟩
  have hstore : ∀ st, ((s.setStore i st).worker j).pc = (s.worker j).pc ∧
      ((s.setStore i st).worker j).spec = (s.worker j).spec := by
    intro st
    unfold Host.setStore
    split
    · exact hset _ rfl rfl
    · exact ⟨rfl, rfl⟩
  cases e with
  | setState _ | publishChange _ _ | publishControl _ _ | ack => exact ⟨rfl, rfl⟩
  | newIndex | newSequence | increment | takeCommand | drop => exact hset _ rfl rfl
  | clearIndex | bootstrapped => exact hstore _
  | process change =>
    simp only [exec, Host.establish]
    split <;> exact hstore _
  | subscribe _ | openStream =>
    simp only [exec, Host.establish]
    split <;> exact ⟨rfl, rfl⟩
  | deleteIndex =>
    simp only [exec, Host.remove]
    split <;> exact hstore _
  | deleteConsumer _ | unsubscribe _ =>
    simp only [exec, Host.remove]
    split <;> exact ⟨rfl, rfl⟩

/-- an effect of a worker changes no other worker, and gives no worker a command -/
theorem exec_others (s : Host Change Index Row) (i : ℕ) (e : Effect Change Row) :
    (∀ j, j ≠ i → (exec Q i s e).worker j = s.worker j) ∧
      ∀ j c, c ∈ ((exec Q i s e).worker j).commands → c ∈ (s.worker j).commands := by
  have hset : ∀ w : Worker Change Index Row, (∀ c ∈ w.commands, c ∈ (s.worker i).commands) →
      (∀ j, j ≠ i → (s.setWorker i w).worker j = s.worker j) ∧
        ∀ j c, c ∈ ((s.setWorker i w).worker j).commands → c ∈ (s.worker j).commands := by
    intro w hw
    refine ⟨fun j hj => setWorker_of_ne s hj w, fun j c hc => ?_⟩
    by_cases hj : j = i
    · subst hj; rw [setWorker_self] at hc; exact hw c hc
    · rwa [setWorker_of_ne s hj] at hc
  have hid : (∀ j, j ≠ i → s.worker j = s.worker j) ∧ ∀ j c, c ∈ (s.worker j).commands → c ∈ (s.worker j).commands :=
    ⟨fun _ _ => rfl, fun _ _ => id⟩
  have hstore : ∀ st, (∀ j, j ≠ i → (s.setStore i st).worker j = s.worker j) ∧
      ∀ j c, c ∈ ((s.setStore i st).worker j).commands → c ∈ (s.worker j).commands := by
    intro st
    unfold Host.setStore
    split
    · exact hset _ fun _ => id
    · exact hid
  cases e with
  | setState _ | publishChange _ _ | publishControl _ _ | ack => exact hid
  | newIndex | newSequence | increment | drop => exact hset _ fun _ => id
  | takeCommand => exact hset _ fun _ hc => List.mem_of_mem_tail hc
  | clearIndex | bootstrapped => exact hstore _
  | process change =>
    simp only [exec, Host.establish]
    split <;> exact hstore _
  | subscribe _ | openStream =>
    simp only [exec, Host.establish]
    split <;> exact hid
  | deleteIndex =>
    simp only [exec, Host.remove]
    split <;> exact hstore _
  | deleteConsumer _ | unsubscribe _ =>
    simp only [exec, Host.remove]
    split <;> exact hid

theorem foldl_exec_others (s : Host Change Index Row) (i : ℕ) (es : List (Effect Change Row)) :
    (∀ j, j ≠ i → (es.foldl (exec Q i) s).worker j = s.worker j) ∧
      ∀ j c, c ∈ ((es.foldl (exec Q i) s).worker j).commands → c ∈ (s.worker j).commands := by
  induction es generalizing s with
  | nil => exact ⟨fun _ _ => rfl, fun _ _ => id⟩
  | cons e es ih =>
    obtain ⟨h1, h2⟩ := ih (exec Q i s e)
    obtain ⟨h3, h4⟩ := exec_others Q s i e
    exact ⟨fun j hj => (h1 j hj).trans (h3 j hj), fun j c hc => h4 j c (h2 j c hc)⟩

theorem exec_saved (s : Host Change Index Row) (i : ℕ) (e : Effect Change Row) :
    (exec Q i s e).saved = s.saved ∧ (exec Q i s e).count = s.count := by
  constructor <;> cases e <;>
    simp only [exec, Host.setStore, Host.establish, Host.remove, Host.setWorker, Host.publish] <;>
    repeat' (split <;> try rfl)

/-- only `setState` writes to the actor -/
theorem exec_actor (s : Host Change Index Row) (i : ℕ) (e : Effect Change Row) :
    (exec Q i s e).actor = match e with
      | .setState state => s.actor.changeState state
      | _ => s.actor := by
  cases e <;> simp only [exec, Host.setStore, Host.establish, Host.remove, Host.setWorker, Host.publish] <;>
    repeat' (split <;> try rfl)

theorem foldl_exec_worker (s : Host Change Index Row) (i j : ℕ) (es : List (Effect Change Row)) :
    ((es.foldl (exec Q i) s).worker j).pc = (s.worker j).pc ∧
      ((es.foldl (exec Q i) s).worker j).spec = (s.worker j).spec := by
  induction es generalizing s with
  | nil => exact ⟨rfl, rfl⟩
  | cons e es ih =>
    obtain ⟨h1, h2⟩ := ih (exec Q i s e)
    obtain ⟨h3, h4⟩ := exec_worker Q s i j e
    exact ⟨h1.trans h3, h2.trans h4⟩

theorem foldl_exec_saved (s : Host Change Index Row) (i : ℕ) (es : List (Effect Change Row)) :
    (es.foldl (exec Q i) s).saved = s.saved ∧ (es.foldl (exec Q i) s).count = s.count := by
  induction es generalizing s with
  | nil => exact ⟨rfl, rfl⟩
  | cons e es ih =>
    obtain ⟨h1, h2⟩ := ih (exec Q i s e)
    obtain ⟨h3, h4⟩ := exec_saved Q s i e
    exact ⟨h1.trans h3, h2.trans h4⟩

/-- effects write to the lifecycle only -/
theorem foldl_exec_lifecycle (s : Host Change Index Row) (i : ℕ) (es : List (Effect Change Row)) :
    ∃ state unseen, (es.foldl (exec Q i) s).actor = { s.actor with state := state, unseen := unseen } := by
  induction es generalizing s with
  | nil => exact ⟨s.actor.state, s.actor.unseen, rfl⟩
  | cons e es ih =>
    obtain ⟨state, unseen, h⟩ := ih (exec Q i s e)
    refine ⟨state, unseen, ?_⟩
    rw [List.foldl_cons, h, exec_actor]
    cases e <;> rfl

/-- effects without a `setState` leave the actor alone -/
theorem foldl_exec_actor (s : Host Change Index Row) (i : ℕ) (es : List (Effect Change Row))
    (h : ∀ state, .setState state ∉ es) : (es.foldl (exec Q i) s).actor = s.actor := by
  induction es generalizing s with
  | nil => rfl
  | cons e es ih =>
    rw [List.foldl_cons, ih _ fun state hmem => h state (List.mem_cons_of_mem e hmem), exec_actor]
    cases e with
    | setState state => exact absurd List.mem_cons_self (h state)
    | _ => rfl

end Effects

variable [DecidableEq Row]

/-- what a worker reads -/
def Host.view (s : Host Change Index Row) (i : ℕ) : View Change Index where
  state := s.actor.state
  index := (s.storeOf i).index
  head := s.stream.recv
  command :=
    match (s.worker i).commands with
    | c :: _ => some (some c)
    | [] => if (s.worker i).closed then some none else none

/-- one step of a worker -/
def workerStep (Q : ContinuousQuery Change Index Row) (s : Host Change Index Row) (i : ℕ) (event : Event Change) :
    Host Change Index Row :=
  match next Q (s.worker i).spec (s.view i) (s.worker i).pc event with
  | some (pc, effects) => effects.foldl (exec Q i) (s.goto i pc)
  | none => s

/-! ## The actor -/

/-- `init_worker` -/
def initWorker (Q : ContinuousQuery Change Index Row) (s : Host Change Index Row) : Host Change Index Row :=
  if s.actor.worker.any fun i => !(s.worker i).isFinished then s
  else
    match s.actor.config with
    | none => { s with actor := s.actor.changeState (.terminalError "Not configured") }
    | some spec =>
      { s.setWorker s.count (.new Q spec) with count := s.count + 1, actor := { s.actor with worker := some s.count } }

/-- `on_activate`: the state is read, the watcher is started, and a worker if the state asks for one -/
def activate (Q : ContinuousQuery Change Index Row) (s : Host Change Index Row) (unregistered : Bool) :
    Host Change Index Row :=
  let s := { s with actor := ⟨true, .idle, s.saved.status.getD .new, none, none, s.saved.config, none⟩ }
  match s.actor.state with
  | .configured => initWorker Q s
  | .running => initWorker Q s
  | .bootstrapping => initWorker Q s
  | .terminalError _ => if unregistered then { s with saved := { s.saved with reminder := false } } else s
  | _ => s

/-- `configure`, up to its first await -/
def configure (s : Host Change Index Row) (spec : QuerySpec) : Host Change Index Row :=
  match s.actor.config with
  | some _ => s
  | none =>
    { s with actor := { s.actor.changeState .configured with config := some spec, turn := .configurePersist } }

/-- `deprovision`, up to its first await -/
def deprovision (s : Host Change Index Row) : Host Change Index Row :=
  match s.actor.worker with
  | some i =>
    { s.setWorker i (s.worker i).giveUp with actor := { s.actor with worker := none, turn := .deprovisionReminder } }
  | none => { s with actor := { s.actor with turn := .deprovisionReminder } }

/-- `on_deactivate`, up to its first await -/
def deactivate (s : Host Change Index Row) : Host Change Index Row :=
  match s.actor.worker with
  | some i => { s.setWorker i (s.worker i).shutdown with actor := { s.actor with turn := .deactivating } }
  | none => { s with actor := { s.actor with turn := .deactivating } }

/-- a turn of the actor goes on, with the outcome of the call it waits on -/
def turn (Q : ContinuousQuery Change Index Row) (s : Host Change Index Row) (ok : Bool) : Host Change Index Row :=
  let idle : Host Change Index Row := { s with actor := { s.actor with turn := .idle } }
  match s.actor.turn with
  | .idle => s
  | .configurePersist =>
    if ok then
      { s with
        saved := { s.saved with config := s.actor.config }
        actor := { s.actor with turn := .configureReminder } }
    else idle
  | .configureReminder => if ok then initWorker Q { idle with saved := { s.saved with reminder := true } } else idle
  | .deprovisionReminder =>
    if ok then
      { s with
        saved := { s.saved with reminder := false }
        actor := { s.actor.changeState .deleted with config := none, turn := .deprovisionPersist } }
    else idle
  | .deprovisionPersist => if ok then { idle with saved := { s.saved with config := s.actor.config } } else idle
  | .deactivating => if ∀ i < s.count, (s.worker i).isFinished then { s with actor := .inactive } else s

/-- `on_reminder` -/
def reminder (Q : ContinuousQuery Change Index Row) (s : Host Change Index Row) : Host Change Index Row :=
  match s.actor.state with
  | .transientError _ => initWorker Q s
  | _ => s

/-- the host goes down: everything in memory is gone -/
def crash (s : Host Change Index Row) : Host Change Index Row :=
  { s with
    actor := .inactive
    worker := fun i => { s.worker i with pc := .finished, persist := .none } }

/-! ## The two background tasks -/

/-- the watcher takes the latest state it has not seen -/
def watcherRead (s : Host Change Index Row) : Host Change Index Row :=
  match s.actor.inFlight, s.actor.unseen with
  | none, some state => { s with actor := { s.actor with unseen := none, inFlight := some state } }
  | _, _ => s

/-- the watcher's state transaction ends -/
def watcherWrite (s : Host Change Index Row) (ok : Bool) : Host Change Index Row :=
  match s.actor.inFlight with
  | some state =>
    { s with
      actor := { s.actor with inFlight := none }
      saved := if ok then { s.saved with status := some state } else s.saved }
  | none => s

/-- the persist task takes the latest value, also when the channel is closed -/
def PersistTask.read (p : PersistTask) : PersistTask :=
  if !p.running || p.inFlight.isSome then p
  else if p.unseen then { p with unseen := false, inFlight := some (p.value, false) }
  else if p.closed then { p with inFlight := some (p.value, true) }
  else p

/-- `apply_sequence` -/
def Host.applySequence (s : Host Change Index Row) (i value : ℕ) (ok : Bool) : Host Change Index Row :=
  if ok then s.setStore i { s.storeOf i with sequence := value } else s

/-- the persist task's `apply_sequence` ends; a failure is logged, and the task ends with the last value -/
def persistWrite (s : Host Change Index Row) (i : ℕ) (ok : Bool) : Host Change Index Row :=
  match (s.worker i).persist.inFlight with
  | some (value, last) =>
    (s.applySequence i value ok).setWorker i
      { (s.applySequence i value ok).worker i with
        persist := { (s.worker i).persist with inFlight := none, running := !last } }
  | none => s

/-! ## Steps -/

inductive Op (Change : Type) where
  | arrive (event : ChangeEvent Change)
  | worker (i : ℕ) (event : Event Change)
  | persistRead (i : ℕ)
  | persistWrite (i : ℕ) (ok : Bool)
  | watcherRead
  | watcherWrite (ok : Bool)
  | activate (unregistered : Bool)
  | deactivate
  | reminder
  | configure (spec : QuerySpec)
  | deprovision
  | turn (ok : Bool)
  | crash

/-- an actor turn can start -/
def Actor.ready (a : Actor) : Bool := a.active && a.turn = .idle

def step (Q : ContinuousQuery Change Index Row) (s : Host Change Index Row) : Op Change → Host Change Index Row
  | .arrive event => { s with stream := s.stream.step (.publish event) }
  | .worker i event => workerStep Q s i event
  | .persistRead i => s.setWorker i { s.worker i with persist := (s.worker i).persist.read }
  | .persistWrite i ok => persistWrite s i ok
  | .watcherRead => watcherRead s
  | .watcherWrite ok => watcherWrite s ok
  | .activate unregistered => if s.actor.active then s else activate Q s unregistered
  | .deactivate => if s.actor.ready then deactivate s else s
  | .reminder => if s.actor.ready && s.saved.reminder then reminder Q s else s
  | .configure spec => if s.actor.ready then configure s spec else s
  | .deprovision => if s.actor.ready then deprovision s else s
  | .turn ok => if s.actor.active then turn Q s ok else s
  | .crash => crash s

/-! ## What a step can do -/

section Steps

variable (Q : ContinuousQuery Change Index Row)

/-- **What a step of a worker can do** to places, specifications and the actor's persisted state: the worker moves as
`next` says, and nothing else moves. -/
theorem workerStep_cases (s : Host Change Index Row) (i : ℕ) (event : Event Change) :
    (next Q (s.worker i).spec (s.view i) (s.worker i).pc event = none ∧ workerStep Q s i event = s) ∨
    ∃ pc effects, next Q (s.worker i).spec (s.view i) (s.worker i).pc event = some (pc, effects) ∧
      workerStep Q s i event = effects.foldl (exec Q i) (s.goto i pc) ∧
      ((workerStep Q s i event).worker i).pc = pc ∧
      (∀ j, j ≠ i → ((workerStep Q s i event).worker j).pc = (s.worker j).pc) ∧
      (∀ j, ((workerStep Q s i event).worker j).spec = (s.worker j).spec) ∧
      (workerStep Q s i event).saved = s.saved ∧ (workerStep Q s i event).count = s.count := by
  cases hn : next Q (s.worker i).spec (s.view i) (s.worker i).pc event with
  | none => exact .inl ⟨rfl, by simp [workerStep, hn]⟩
  | some res =>
    obtain ⟨pc, effects⟩ := res
    have heq : workerStep Q s i event = effects.foldl (exec Q i) (s.goto i pc) := by
      simp [workerStep, hn]
    refine .inr ⟨pc, effects, rfl, heq, ?_, ?_, ?_, ?_⟩
    · rw [heq, (foldl_exec_worker Q _ i i effects).1, goto_pc]
    · intro j hj
      rw [heq, (foldl_exec_worker Q _ i j effects).1, goto_of_ne s hj]
    · intro j
      rw [heq, (foldl_exec_worker Q _ i j effects).2, goto_spec]
    · rw [heq]
      exact foldl_exec_saved Q _ i effects

omit [DecidableEq Row] in
/-- **What `init_worker` can do**: refuse, fail for want of a configuration, or start the next worker. -/
theorem initWorker_cases (s : Host Change Index Row) :
    ((∃ i, s.actor.worker = some i ∧ (s.worker i).isFinished = false) ∧ initWorker Q s = s) ∨
    ((∀ i, s.actor.worker = some i → (s.worker i).isFinished = true) ∧
      ((s.actor.config = none ∧
          initWorker Q s = { s with actor := s.actor.changeState (.terminalError "Not configured") }) ∨
        ∃ spec, s.actor.config = some spec ∧
          initWorker Q s = { s.setWorker s.count (.new Q spec) with
            count := s.count + 1, actor := { s.actor with worker := some s.count } })) := by
  unfold initWorker
  cases hw : s.actor.worker with
  | some i =>
    cases hf : (s.worker i).isFinished with
    | false => exact .inl ⟨⟨i, rfl, hf⟩, by simp [hf]⟩
    | true =>
      refine .inr ⟨by rintro j ⟨rfl⟩; exact hf, ?_⟩
      cases hc : s.actor.config with
      | none => exact .inl ⟨rfl, by simp [hf]⟩
      | some spec => exact .inr ⟨spec, rfl, by simp [hf]⟩
  | none =>
    refine .inr ⟨by simp, ?_⟩
    cases hc : s.actor.config with
    | none => exact .inl ⟨rfl, by simp⟩
    | some spec => exact .inr ⟨spec, rfl, by simp⟩

theorem next_finished (spec : QuerySpec) (v : View Change Index) (event : Event Change) :
    next Q spec v .finished event = none := by
  cases event <;> rfl

omit [DecidableEq Row] in
theorem isFinished_iff {w : Worker Change Index Row} : w.isFinished = true ↔ w.pc = .finished := by
  unfold Worker.isFinished
  split <;> simp_all

/-- a worker that takes a step is at work -/
theorem unfinished_of_next {w : Worker Change Index Row} {spec : QuerySpec} {v : View Change Index} {event : Event Change}
    {r : Pc Change Row × List (Effect Change Row)} (h : next Q spec v w.pc event = some r) : w.isFinished = false := by
  by_contra hfin
  rw [Bool.not_eq_false, isFinished_iff] at hfin
  rw [hfin, next_finished] at h
  cases h

omit [DecidableEq Row] in
theorem isFinished_congr {w w' : Worker Change Index Row} (h : w.pc = w'.pc) : w.isFinished = w'.isFinished := by
  simp only [Worker.isFinished, h]

omit [DecidableEq Row] in
theorem applySequence_frame (s : Host Change Index Row) (i value : ℕ) (ok : Bool) (j : ℕ) :
    (s.applySequence i value ok).actor = s.actor ∧ (s.applySequence i value ok).saved = s.saved ∧
      (s.applySequence i value ok).count = s.count ∧ (s.applySequence i value ok).topic = s.topic ∧
      (s.applySequence i value ok).stream = s.stream ∧ (s.applySequence i value ok).owner = s.owner ∧
      (s.applySequence i value ok).removals = s.removals ∧
      (s.applySequence i value ok).worker j =
        { s.worker j with memory := ((s.applySequence i value ok).worker j).memory } := by
  unfold Host.applySequence
  split
  · unfold Host.setStore
    split
    · by_cases hj : j = i
      · subst hj; simp [Host.setWorker]
      · simp [Host.setWorker, Function.update_of_ne hj]
    · simp
  · simp

omit [DecidableEq Row] in
/-- a sequence is written to the index, or nothing -/
theorem applySequence_store (s : Host Change Index Row) (i value : ℕ) (ok : Bool) (j : ℕ) :
    ∃ sequence memory, (s.applySequence i value ok).store = { s.store with sequence := sequence } ∧
      ((s.applySequence i value ok).worker j).memory = { (s.worker j).memory with sequence := memory } := by
  unfold Host.applySequence
  split
  · unfold Host.setStore
    cases hv : (s.worker i).spec.isVolatile with
    | false =>
      refine ⟨value, (s.worker j).memory.sequence, ?_, rfl⟩
      simp [Host.storeOf, hv]
    | true =>
      by_cases hj : j = i
      · subst hj
        refine ⟨s.store.sequence, value, rfl, ?_⟩
        simp [Host.storeOf, hv]
      · refine ⟨s.store.sequence, (s.worker j).memory.sequence, rfl, ?_⟩
        simp [setWorker_of_ne s hj]
  · exact ⟨s.store.sequence, (s.worker j).memory.sequence, rfl, rfl⟩

omit [DecidableEq Row] in
/-- **What the persist task can do** at the end of a write: its own state goes on, and a sequence is written. -/
theorem persistWrite_cases (s : Host Change Index Row) (i : ℕ) (ok : Bool) :
    ((s.worker i).persist.inFlight = none ∧ persistWrite s i ok = s) ∨
    ∃ value last, (s.worker i).persist.inFlight = some (value, last) ∧
      persistWrite s i ok = (s.applySequence i value ok).setWorker i
        { s.worker i with
          memory := ((s.applySequence i value ok).worker i).memory
          persist := { (s.worker i).persist with inFlight := none, running := !last } } := by
  unfold persistWrite
  split
  · rename_i value last hin
    refine .inr ⟨value, last, hin, ?_⟩
    obtain ⟨-, -, -, -, -, -, -, hw⟩ := applySequence_frame s i value ok i
    rw [hw]
  · rename_i hin; exact .inl ⟨hin, rfl⟩

omit [DecidableEq Row] in
/-- of the workers, the persist task changes its own state and a stored sequence -/
theorem persistWrite_worker (s : Host Change Index Row) (i : ℕ) (ok : Bool) (j : ℕ) :
    ∃ memory persist, (persistWrite s i ok).worker j = { s.worker j with memory := memory, persist := persist } ∧
      (j ≠ i → persist = (s.worker j).persist) := by
  obtain ⟨-, heq⟩ | ⟨value, last, -, heq⟩ := persistWrite_cases s i ok
  · rw [heq]; exact ⟨_, _, rfl, fun _ => rfl⟩
  · rw [heq]
    by_cases hji : j = i
    · subst hji; rw [setWorker_self]; exact ⟨_, _, rfl, fun hne => absurd rfl hne⟩
    · obtain ⟨-, -, -, -, -, -, -, hj⟩ := applySequence_frame s i value ok j
      rw [setWorker_of_ne _ hji, hj]
      exact ⟨_, _, rfl, fun _ => rfl⟩

omit [DecidableEq Row] in
/-- the persist task moves no worker, and leaves the actor alone -/
theorem persistWrite_frame (s : Host Change Index Row) (i : ℕ) (ok : Bool) (j : ℕ) :
    ((persistWrite s i ok).worker j).pc = (s.worker j).pc ∧ ((persistWrite s i ok).worker j).spec = (s.worker j).spec ∧
      ((persistWrite s i ok).worker j).commands = (s.worker j).commands ∧ (persistWrite s i ok).actor = s.actor ∧
      (persistWrite s i ok).saved = s.saved ∧ (persistWrite s i ok).count = s.count := by
  obtain ⟨memory, persist, hw, -⟩ := persistWrite_worker s i ok j
  refine ⟨by rw [hw], by rw [hw], by rw [hw], ?_⟩
  obtain ⟨-, heq⟩ | ⟨value, last, -, heq⟩ := persistWrite_cases s i ok
  · rw [heq]; exact ⟨rfl, rfl, rfl⟩
  · obtain ⟨hactor, hsaved, hcount, -⟩ := applySequence_frame s i value ok j
    rw [heq]
    exact ⟨hactor, hsaved, hcount⟩

omit [DecidableEq Row] in
theorem persistWrite_rest (s : Host Change Index Row) (i : ℕ) (ok : Bool) :
    (persistWrite s i ok).topic = s.topic ∧ (persistWrite s i ok).stream = s.stream ∧
      (persistWrite s i ok).owner = s.owner ∧ (persistWrite s i ok).removals = s.removals := by
  obtain ⟨-, heq⟩ | ⟨value, last, -, heq⟩ := persistWrite_cases s i ok
  · rw [heq]; exact ⟨rfl, rfl, rfl, rfl⟩
  · obtain ⟨-, -, -, htopic, hstream, howner, hremovals, -⟩ := applySequence_frame s i value ok i
    rw [heq]
    exact ⟨htopic, hstream, howner, hremovals⟩

omit [DecidableEq Row] in
/-- the persist task leaves every index as it is, but for its sequence -/
theorem persistWrite_store (s : Host Change Index Row) (i : ℕ) (ok : Bool) (j : ℕ) :
    (∃ sequence, (persistWrite s i ok).store = { s.store with sequence := sequence }) ∧
      ∃ sequence, (persistWrite s i ok).storeOf j = { s.storeOf j with sequence := sequence } := by
  obtain ⟨-, heq⟩ | ⟨value, last, -, heq⟩ := persistWrite_cases s i ok
  · rw [heq]; exact ⟨⟨_, rfl⟩, ⟨_, rfl⟩⟩
  · obtain ⟨sequence, memory, hstore, hmemory⟩ := applySequence_store s i value ok j
    have hj : ((persistWrite s i ok).worker j).memory = ((s.applySequence i value ok).worker j).memory := by
      rw [heq]
      exact setWorker_map (·.memory) _ i j rfl
    have hpstore : (persistWrite s i ok).store = { s.store with sequence := sequence } := by rw [heq]; exact hstore
    refine ⟨⟨sequence, hpstore⟩, ?_⟩
    simp only [Host.storeOf, (persistWrite_frame s i ok j).2.1, hj, hmemory, hpstore]
    split
    · exact ⟨memory, rfl⟩
    · exact ⟨sequence, rfl⟩

/-- a worker without its command channel, which only the actor writes to -/
def Worker.core (w : Worker Change Index Row) : Worker Change Index Row := { w with commands := [], closed := false }

/-- an operation of the actor, its watcher or the stream; not of a worker, its persist task or a crash -/
def Op.isActor : Op Change → Bool
  | .worker _ _ | .persistRead _ | .persistWrite _ _ | .crash => false
  | _ => true

/-- the operation comes to `init_worker` -/
def Host.callsInit (s : Host Change Index Row) : Op Change → Bool
  | .activate _ => !s.actor.active
  | .reminder => s.actor.ready && s.saved.reminder && (match s.actor.state with | .transientError _ => true | _ => false)
  | .turn ok => s.actor.active && ok && s.actor.turn = .configureReminder
  | _ => false

/-- the parts an operation of the actor leaves alone -/
structure Untouched (s s' : Host Change Index Row) : Prop where
  store : s'.store = s.store
  topic : s'.topic = s.topic
  owner : s'.owner = s.owner
  removals : s'.removals = s.removals
  acked : s'.stream.acked = s.stream.acked

/-- a worker was started -/
structure Started (Q : ContinuousQuery Change Index Row) (s s' : Host Change Index Row) (spec : QuerySpec) : Prop where
  count : s'.count = s.count + 1
  slot : s'.actor.worker = some s.count
  active : s'.actor.active = true
  config : s'.actor.config = some spec
  fresh : s'.worker s.count = .new Q spec
  others : ∀ j, j ≠ s.count → s'.worker j = s.worker j
  refused : ∀ i, s.actor.active = true → s.actor.worker = some i → (s.worker i).isFinished = true

/-- no worker was started, and none has moved -/
structure Unmoved (s s' : Host Change Index Row) : Prop where
  count : s'.count = s.count
  workers : ∀ j, (s'.worker j).core = (s.worker j).core

/-- workers that were not started yet have no place to be at -/
def Beyond (s : Host Change Index Row) : Prop := ∀ i, s.count ≤ i → (s.worker i).pc = .finished

omit [DecidableEq Row] in
theorem Unmoved.of_workers {s s' : Host Change Index Row} (hcount : s'.count = s.count) (h : s'.worker = s.worker) :
    Unmoved s s' := ⟨hcount, fun j => by rw [h]⟩

omit [DecidableEq Row] in
theorem Unmoved.pc {s s' : Host Change Index Row} (h : Unmoved s s') (j : ℕ) : (s'.worker j).pc = (s.worker j).pc :=
  congrArg (·.pc) (h.workers j)

omit [DecidableEq Row] in
/-- commands reach one worker, and change the core of none -/
theorem unmoved_setWorker (s : Host Change Index Row) (i : ℕ) {w : Worker Change Index Row} (a : Actor)
    (hw : w.core = (s.worker i).core) : Unmoved s { s.setWorker i w with actor := a } :=
  ⟨rfl, fun j => setWorker_map Worker.core s i j hw⟩

omit [DecidableEq Row] in
/-- `init_worker` in a state that differs from `s` in the actor and its persisted state only -/
theorem initWorker_started {s : Host Change Index Row} (saved : Saved) (actor : Actor) (hactive : actor.active = true)
    (hslot : ∀ i, s.actor.active = true → s.actor.worker = some i → actor.worker = some i) :
    Untouched s (initWorker Q { s with saved := saved, actor := actor }) ∧
      (Unmoved s (initWorker Q { s with saved := saved, actor := actor }) ∨
        ∃ spec, Started Q s (initWorker Q { s with saved := saved, actor := actor }) spec) := by
  obtain ⟨-, heq⟩ | ⟨hfin, ⟨-, heq⟩ | ⟨spec, hc, heq⟩⟩ := initWorker_cases Q { s with saved := saved, actor := actor }
  · rw [heq]; exact ⟨⟨rfl, rfl, rfl, rfl, rfl⟩, .inl (.of_workers rfl rfl)⟩
  · rw [heq]; exact ⟨⟨rfl, rfl, rfl, rfl, rfl⟩, .inl (.of_workers rfl rfl)⟩
  · rw [heq]
    refine ⟨⟨rfl, rfl, rfl, rfl, rfl⟩, .inr ⟨spec, rfl, rfl, hactive, hc, setWorker_self .., ?_, ?_⟩⟩
    · exact fun j hj => setWorker_of_ne _ hj _
    · exact fun i hactive hi => hfin i (hslot i hactive hi)

/-- **What an operation of the actor can do** to workers, index, topic and owned resources: nothing, but for starting the
next worker where it comes to `init_worker`. -/
theorem step_actor (s : Host Change Index Row) (op : Op Change) (h : op.isActor = true) :
    Untouched s (step Q s op) ∧
      (Unmoved s (step Q s op) ∨ s.callsInit op = true ∧ ∃ spec, Started Q s (step Q s op) spec) := by
  have hsame : ∀ s' : Host Change Index Row,
      s' = { s with saved := s'.saved, actor := s'.actor, stream := ⟨s.stream.acked, s'.stream.waiting⟩ } →
      Untouched s s' ∧ (Unmoved s s' ∨ s.callsInit op = true ∧ ∃ spec, Started Q s s' spec) := by
    intro s' h'
    rw [h']
    exact ⟨⟨rfl, rfl, rfl, rfl, rfl⟩, .inl (.of_workers rfl rfl)⟩
  cases op with
  | worker _ _ | persistRead _ | persistWrite _ _ | crash => cases h
  | arrive event => exact hsame _ rfl
  | watcherRead => simp only [step, watcherRead]; split <;> exact hsame _ rfl
  | watcherWrite ok => simp only [step, watcherWrite]; split <;> exact hsame _ rfl
  | activate unregistered =>
    simp only [step]
    split
    · exact hsame _ rfl
    · rename_i hinactive
      have hinit := initWorker_started Q (s := s) s.saved
        ⟨true, .idle, s.saved.status.getD .new, none, none, s.saved.config, none⟩ rfl fun i ha => absurd ha hinactive
      have hcalls : s.callsInit (.activate unregistered : Op Change) = true := by simpa [Host.callsInit] using hinactive
      have hstarts := hinit.imp_right (Or.imp_right (And.intro hcalls))
      simp only [activate]
      split
      · exact hstarts
      · exact hstarts
      · exact hstarts
      · split <;> exact hsame _ rfl
      · exact hsame _ rfl
  | deactivate =>
    simp only [step, deactivate]
    split
    · split
      · exact ⟨⟨rfl, rfl, rfl, rfl, rfl⟩, .inl (unmoved_setWorker s _ _ rfl)⟩
      · exact hsame _ rfl
    · exact hsame _ rfl
  | reminder =>
    simp only [step, reminder]
    split
    · rename_i hready
      split
      · rename_i err hstate
        have hcalls : s.callsInit (.reminder : Op Change) = true := by simp only [Host.callsInit, hready, hstate, Bool.and_true]
        have hactive : s.actor.active = true := by
          simp only [Actor.ready, Bool.and_eq_true] at hready
          exact hready.1.1
        exact (initWorker_started Q s.saved s.actor hactive fun _ _ hi => hi).imp_right (Or.imp_right (And.intro hcalls))
      · exact hsame _ rfl
    · exact hsame _ rfl
  | configure spec =>
    simp only [step, configure]
    split
    · split <;> exact hsame _ rfl
    · exact hsame _ rfl
  | deprovision =>
    simp only [step, deprovision]
    split
    · split
      · exact ⟨⟨rfl, rfl, rfl, rfl, rfl⟩, .inl (unmoved_setWorker s _ _ rfl)⟩
      · exact hsame _ rfl
    · exact hsame _ rfl
  | turn ok =>
    simp only [step, turn]
    split
    · rename_i hactive
      split
      · exact hsame _ rfl
      · split <;> exact hsame _ rfl
      · rename_i hturn
        split
        · rename_i hok
          have hcalls : s.callsInit (.turn ok : Op Change) = true := by simp [Host.callsInit, hactive, hturn, hok]
          exact (initWorker_started Q _ { s.actor with turn := .idle } hactive fun _ _ hi => hi).imp_right
            (Or.imp_right (And.intro hcalls))
        · exact hsame _ rfl
      · split <;> exact hsame _ rfl
      · split <;> exact hsame _ rfl
      · split <;> exact hsame _ rfl
    · exact hsame _ rfl

/-- every worker that was started has finished -/
def Host.allFinished (s : Host Change Index Row) : Prop := ∀ i < s.count, (s.worker i).isFinished = true

instance (s : Host Change Index Row) : Decidable s.allFinished :=
  inferInstanceAs (Decidable (∀ i < s.count, (s.worker i).isFinished = true))

omit [DecidableEq Row] in
theorem initWorker_active (s : Host Change Index Row) : (initWorker Q s).actor.active = s.actor.active := by
  obtain ⟨-, heq⟩ | ⟨-, ⟨-, heq⟩ | ⟨spec, -, heq⟩⟩ := initWorker_cases Q s
  all_goals simp [heq, Actor.changeState]

/-- the actor goes out of memory only when its workers have finished -/
theorem step_inactive (s : Host Change Index Row) (op : Op Change) (h : op.isActor = true)
    (hin : (step Q s op).actor.active = false) : s.actor.active = false ∨ s.allFinished := by
  by_contra hno
  simp only [not_or, Bool.not_eq_false] at hno
  obtain ⟨hactive, hfin⟩ := hno
  cases op with
  | worker _ _ | persistRead _ | persistWrite _ _ | crash => cases h
  | arrive _ => simp_all [step]
  | watcherRead => simp only [step, watcherRead] at hin; split at hin <;> simp_all
  | watcherWrite _ => simp only [step, watcherWrite] at hin; split at hin <;> simp_all
  | activate _ => simp_all [step]
  | deactivate => simp only [step, deactivate] at hin; repeat' split at hin; all_goals simp_all
  | reminder =>
    simp only [step, reminder] at hin
    split at hin
    · split at hin <;> simp_all [initWorker_active]
    · simp_all
  | configure _ => simp only [step, configure] at hin; repeat' split at hin; all_goals simp_all [Actor.changeState]
  | deprovision => simp only [step, deprovision] at hin; repeat' split at hin; all_goals simp_all
  | turn ok =>
    simp only [step, hactive, if_true, turn] at hin
    split at hin
    · simp_all
    · split at hin <;> simp_all
    · split at hin <;> simp_all [initWorker_active]
    · split at hin <;> simp_all [Actor.changeState]
    · split at hin <;> simp_all
    · split at hin
      · exact hfin (by assumption)
      · simp_all

theorem step_beyond (s : Host Change Index Row) (op : Op Change) (h : Beyond s) : Beyond (step Q s op) := by
  cases hop : op.isActor with
  | true =>
    obtain ⟨-, hun | ⟨-, spec, hst⟩⟩ := step_actor Q s op hop
    · intro j hj
      rw [hun.pc]
      exact h j (hun.count ▸ hj)
    · intro j hj
      rw [hst.count] at hj
      rw [hst.others j (by omega)]
      exact h j (by omega)
  | false =>
    cases op with
    | worker i event =>
      obtain ⟨-, heq⟩ | ⟨pc, effects, hn, -, -, hother, -, -, hcount⟩ := workerStep_cases Q s i event
      · simp only [step, heq]; exact h
      · intro j hj
        simp only [step] at hj ⊢
        rw [hcount] at hj
        rw [hother j]
        · exact h j hj
        · -- a worker beyond the count takes no step
          rintro rfl
          rw [h j hj] at hn
          cases event <;> cases hn
    | persistRead i =>
      intro j hj
      have hpc : ((step Q s (.persistRead i)).worker j).pc = (s.worker j).pc := setWorker_map (·.pc) s i j rfl
      rw [hpc]
      exact h j hj
    | persistWrite i ok =>
      intro j hj
      obtain ⟨hpc, -, -, -, -, hcount⟩ := persistWrite_frame s i ok j
      simp only [step] at hj ⊢
      rw [hpc]
      exact h j (hcount ▸ hj)
    | crash => exact fun _ _ => rfl
    | _ => cases hop

/-- **Only workers that were started take steps.** -/
theorem run_beyond (ops : List (Op Change)) : Beyond (Run.run (step Q) (.init Q) ops) :=
  Run.run_inv (step_beyond Q) _ ops fun _ _ => rfl

end Steps

/-! ## A query to run -/

/-- the query whose results are the changes themselves -/
def collect : ContinuousQuery ℕ (Finset ℕ) ℕ := ⟨∅, insert, id⟩

/-- `n` calls of a worker that succeed -/
def succeed (i n : ℕ) : List (Op ℕ) := List.replicate n (.worker i .ok)

/-- a query without sources, on a persistent or a volatile store -/
def spec (isVolatile : Bool) : QuerySpec := ⟨isVolatile, []⟩

/-- the actor is activated and configured, and its worker is started -/
def configured (isVolatile : Bool) : List (Op ℕ) := [.activate true, .configure (spec isVolatile), .turn true, .turn true]

end DrasiPlatform.QueryHost
