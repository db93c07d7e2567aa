/-
The query worker (`query-container/query-host/src/query_worker.rs`): the task that bootstraps a query and then consumes the
change stream, as a program over its awaits.

`Pc` is where the worker is: one value for every call that `QueryWorker::start`, `bootstrap`, `process_change` and the main
loop wait on. `next` says, for the outcome of that call (`Event`), where the worker goes and what it does (`Effect`, in
order). What the effects do to the host is in `QueryHost.Host`.

The continuous query is a parameter: processing a change takes its index to a new one, and the results are the difference
between the two result sets. The result topic answers a publish with success, with an error status (`rejected`), which
`ResultPublisher::publish` takes for success, or not at all (`fail`).
-/
import Mathlib.Tactic

namespace DrasiPlatform.QueryHost

/-! ## Data -/

inductive QueryState where
  | new
  | configured
  | bootstrapping
  | running
  | deleted
  | terminalError (message : String)
  | transientError (message : String)
deriving DecidableEq, Repr

/-- the parts of a query specification the worker acts on -/
structure QuerySpec where
  /-- `is_volatile` of the storage profile: the index is kept in memory -/
  isVolatile : Bool
  /-- the ids of the source subscriptions -/
  subscriptions : List String
deriving DecidableEq, Repr

inductive Command where
  | shutdown
  | delete
  | pause
deriving DecidableEq, Repr

inductive ControlSignal where
  | bootstrapStarted
  | bootstrapCompleted
  | running
  | stopped
  | queryDeleted
deriving DecidableEq, Repr

/-- the difference between two result sets -/
structure Diff (Row : Type) where
  added : Finset Row
  removed : Finset Row
deriving DecidableEq

inductive ResultEvent (Row : Type) where
  | change (sequence : ℕ) (results : Diff Row)
  | control (sequence : ℕ) (signal : ControlSignal)
deriving DecidableEq

def ResultEvent.sequence {Row : Type} : ResultEvent Row → ℕ
  | .change sequence _ => sequence
  | .control sequence _ => sequence

/-- an entry of the change stream, decoded -/
structure ChangeEvent (Change : Type) where
  /-- `has_query` for this query -/
  hasQuery : Bool
  /-- the event converted to a source change, or the error of the conversion -/
  change : Except String Change
deriving DecidableEq

/-- a continuous query: `process_source_change` on its index, and the result set of an index -/
structure ContinuousQuery (Change Index Row : Type) where
  empty : Index
  process : Change → Index → Index
  rows : Index → Finset Row

section Diff

variable {Row : Type} [DecidableEq Row]

def Diff.between (old new : Finset Row) : Diff Row := ⟨new \ old, old \ new⟩

def Diff.isEmpty (d : Diff Row) : Bool := d.added = ∅ ∧ d.removed = ∅

/-- a result set with the difference carried out -/
def Diff.apply (d : Diff Row) (rows : Finset Row) : Finset Row := rows \ d.removed ∪ d.added

theorem Diff.apply_between (old new : Finset Row) : (Diff.between old new).apply old = new := by
  ext r
  simp only [Diff.between, Diff.apply, Finset.mem_union, Finset.mem_sdiff]
  tauto

theorem Diff.isEmpty_between (old new : Finset Row) : (Diff.between old new).isEmpty = true ↔ old = new := by
  simp only [Diff.isEmpty, Diff.between, Finset.sdiff_eq_empty_iff_subset, decide_eq_true_eq]
  exact ⟨fun h => h.2.antisymm h.1, fun h => ⟨h.ge, h.le⟩⟩

end Diff

/-! ## The program -/

/-- where a worker is: the call it waits on -/
inductive Pc (Change Row : Type) where
  | build
  | tryBuild
  | connect
  | configureView
  | checkVolatile
  | newSequence
  | decideBootstrap
  | clearIndexes
  | bootstrapStarted
  | bootstrapClear
  | subscribe (sources : List String)
  | initialData (sources : List String)
  | bootstrapProcess (sources : List String) (change : Change)
  | bootstrapPublish (sources : List String) (results : Diff Row)
  | bootstrapCompleted
  | setRunning
  | openStream
  | publishRunning
  | main
  | processChange (event : ChangeEvent Change)
  | publishResults (results : Diff Row)
  | ack
  | deleteIndexes
  | deleteConsumer
  | deleteSubscriptions (sources : List String)
  | publishDeleted
  | deprovisionView
  | publishStopped
  | finished
deriving DecidableEq

/-- the outcome of the call a worker waits on -/
inductive Event (Change : Type) where
  | ok
  | fail (error : String)
  /-- a publish answered with an error status -/
  | rejected
  /-- the next element of the initial data -/
  | element (change : Change)
  /-- the main loop takes a command -/
  | command
  /-- the main loop takes a message -/
  | message
  /-- the consumer is deleted, with the entries that were pending on it -/
  | dropped (pending : ℕ)
deriving DecidableEq

/-- what a worker does -/
inductive Effect (Change Row : Type) where
  | setState (state : QueryState)
  | newIndex
  | clearIndex
  | process (change : Change)
  /-- the bootstrap has run to completion -/
  | bootstrapped
  | newSequence
  | increment
  | publishChange (results : Diff Row) (accepted : Bool)
  | publishControl (signal : ControlSignal) (accepted : Bool)
  | subscribe (source : String)
  | openStream
  | ack
  | takeCommand
  | deleteIndex
  | deleteConsumer (pending : ℕ)
  | unsubscribe (source : String)
  /-- the worker's locals are dropped -/
  | drop
deriving DecidableEq

/-- what a worker reads: the lifecycle state, its index, the head of the change stream, the head of its commands (`none`
when there is nothing to take, `some none` when the channel is closed) -/
structure View (Change Index : Type) where
  state : QueryState
  index : Index
  head : Option (ChangeEvent Change)
  command : Option (Option Command)

variable {Change Index Row : Type} [DecidableEq Row]

/-- `return` after writing an error state -/
def leave (state : QueryState) : Pc Change Row × List (Effect Change Row) := (.finished, [.setState state, .drop])

/-- `break` out of the main loop -/
def stop (effects : List (Effect Change Row)) : Pc Change Row × List (Effect Change Row) := (.publishStopped, effects)

/-- publish a control signal, with a new sequence number -/
def control (signal : ControlSignal) (accepted : Bool) : List (Effect Change Row) :=
  [.increment, .publishControl signal accepted]

/-- the next source to bootstrap from -/
def nextSource : List String → Pc Change Row
  | [] => .bootstrapCompleted
  | sources => .subscribe sources

/-- the next source to unsubscribe from -/
def nextUnsubscribe : List String → Pc Change Row
  | [] => .publishDeleted
  | sources => .deleteSubscriptions sources

/-- the part of `QueryWorker::start` before the main loop, with `bootstrap` -/
def startup (Q : ContinuousQuery Change Index Row) (spec : QuerySpec) (v : View Change Index) :
    Pc Change Row → Event Change → Option (Pc Change Row × List (Effect Change Row))
  | .build, .ok => some (.tryBuild, [.newIndex])
  | .build, .fail err => some (leave (.transientError err))
  | .tryBuild, .ok => some (.connect, [])
  | .tryBuild, .fail err => some (leave (.terminalError err))
  | .connect, .ok => some (.configureView, [])
  -- `unwrap`: the task panics
  | .connect, .fail _ => some (.finished, [.drop])
  | .configureView, .ok => some (.checkVolatile, [])
  | .configureView, .fail err => some (leave (.transientError err))
  | .checkVolatile, .ok =>
    some (.newSequence, if v.state = .running ∧ spec.isVolatile then [.setState .configured] else [])
  | .newSequence, .ok => some (.decideBootstrap, [.newSequence])
  | .newSequence, .fail err => some (leave (.transientError err))
  | .decideBootstrap, .ok =>
    match v.state with
    | .configured => some (.clearIndexes, [.setState .bootstrapping])
    | .bootstrapping => some (.clearIndexes, [.setState .bootstrapping])
    -- `todo!()`: the task panics
    | .terminalError _ => some (.finished, [.drop])
    | _ => some (.setRunning, [])
  | .clearIndexes, .ok => some (.bootstrapStarted, [.clearIndex])
  -- the outcome of a clear is ignored
  | .clearIndexes, .fail _ => some (.bootstrapStarted, [])
  | .bootstrapStarted, .ok => some (.bootstrapClear, control .bootstrapStarted true)
  | .bootstrapStarted, .rejected => some (.bootstrapClear, control .bootstrapStarted false)
  | .bootstrapStarted, .fail err =>
    some (.finished, control .bootstrapStarted false ++ [.setState (.terminalError err), .drop])
  | .bootstrapClear, .ok => some (nextSource spec.subscriptions, [.clearIndex])
  | .bootstrapClear, .fail _ => some (nextSource spec.subscriptions, [])
  | .subscribe [], .ok => some (.bootstrapCompleted, [])
  | .subscribe (source :: sources), .ok => some (.initialData (source :: sources), [.subscribe source])
  | .subscribe _, .fail err => some (leave (.terminalError err))
  | .initialData sources, .element change => some (.bootstrapProcess sources change, [])
  | .initialData sources, .ok => some (nextSource sources.tail, [])
  | .initialData _, .fail err => some (leave (.terminalError err))
  | .bootstrapProcess sources change, .ok =>
    some (.bootstrapPublish sources (.between (Q.rows v.index) (Q.rows (Q.process change v.index))),
      [.process change, .increment])
  | .bootstrapProcess _ _, .fail err => some (leave (.terminalError err))
  | .bootstrapPublish sources results, .ok => some (.initialData sources, [.publishChange results true])
  | .bootstrapPublish sources results, .rejected => some (.initialData sources, [.publishChange results false])
  | .bootstrapPublish _ results, .fail err =>
    some (.finished, [.publishChange results false, .setState (.terminalError err), .drop])
  | .bootstrapCompleted, .ok => some (.setRunning, control .bootstrapCompleted true ++ [.bootstrapped])
  | .bootstrapCompleted, .rejected => some (.setRunning, control .bootstrapCompleted false ++ [.bootstrapped])
  | .bootstrapCompleted, .fail err =>
    some (.finished, control .bootstrapCompleted false ++ [.setState (.terminalError err), .drop])
  | .setRunning, .ok => some (.openStream, [.setState .running])
  | .openStream, .ok => some (.publishRunning, [.openStream])
  | .openStream, .fail err => some (leave (.transientError err))
  | .publishRunning, .ok => some (.main, control .running true)
  | .publishRunning, .rejected => some (.main, control .running false)
  | .publishRunning, .fail _ => some (.main, control .running false)
  | _, _ => none

/-- the main loop, with `process_change` -/
def mainLoop (Q : ContinuousQuery Change Index Row) (spec : QuerySpec) (v : View Change Index) :
    Pc Change Row → Event Change → Option (Pc Change Row × List (Effect Change Row))
  | .main, .command =>
    match v.command with
    | some (some .shutdown) => some (stop [.takeCommand])
    | some (some .delete) => some (.deleteIndexes, [.takeCommand])
    -- `todo!()`: the task panics
    | some (some .pause) => some (.finished, [.takeCommand, .drop])
    | some none => some (stop [.setState (.terminalError "Command channel closed unexpectedly")])
    | none => none
  | .main, .fail err => some (stop [.setState (.transientError err)])
  | .main, .message =>
    match v.head with
    | some event => if event.hasQuery then some (.processChange event, []) else some (.ack, [])
    | none => none
  | .processChange event, .ok =>
    match event.change with
    | .ok change =>
      let results := Diff.between (Q.rows v.index) (Q.rows (Q.process change v.index))
      if results.isEmpty then some (.ack, [.process change])
      else some (.publishResults results, [.process change, .increment])
    | .error err => some (stop [.setState (.transientError err)])
  | .processChange _, .fail err => some (stop [.setState (.transientError err)])
  | .publishResults results, .ok => some (.ack, [.publishChange results true])
  | .publishResults results, .rejected => some (.ack, [.publishChange results false])
  | .publishResults results, .fail err =>
    some (stop [.publishChange results false, .setState (.transientError err)])
  | .ack, .ok => some (.main, [.ack])
  -- a failed acknowledgement is logged, and the loop goes on
  | .ack, .fail _ => some (.main, [])
  | .deleteIndexes, .ok => some (.deleteConsumer, [.deleteIndex])
  | .deleteIndexes, .fail _ => some (.deleteConsumer, [])
  | .deleteConsumer, .dropped pending => some (nextUnsubscribe spec.subscriptions, [.deleteConsumer pending])
  | .deleteConsumer, .fail _ => some (nextUnsubscribe spec.subscriptions, [])
  | .deleteSubscriptions (source :: sources), .ok => some (nextUnsubscribe sources, [.unsubscribe source])
  | .deleteSubscriptions (_ :: sources), .fail _ => some (nextUnsubscribe sources, [])
  | .deleteSubscriptions [], _ => some (.publishDeleted, [])
  | .publishDeleted, .ok => some (.deprovisionView, control .queryDeleted true)
  | .publishDeleted, .rejected => some (.deprovisionView, control .queryDeleted false)
  | .publishDeleted, .fail _ => some (.deprovisionView, control .queryDeleted false)
  | .deprovisionView, .ok => some (stop [])
  | .deprovisionView, .fail _ => some (stop [])
  | .publishStopped, .ok => some (.finished, control .stopped true ++ [.drop])
  | .publishStopped, .rejected => some (.finished, control .stopped false ++ [.drop])
  | .publishStopped, .fail _ => some (.finished, control .stopped false ++ [.drop])
  | _, _ => none

/-- the step a worker takes for an event, if the event can happen where it is -/
def next (Q : ContinuousQuery Change Index Row) (spec : QuerySpec) (v : View Change Index) (pc : Pc Change Row)
    (event : Event Change) : Option (Pc Change Row × List (Effect Change Row)) :=
  (startup Q spec v pc event).or (mainLoop Q spec v pc event)

/-! ## Regions -/

/-- before the main loop -/
def Pc.inStartup : Pc Change Row → Bool
  | .build | .tryBuild | .connect | .configureView | .checkVolatile | .newSequence | .decideBootstrap => true
  | .clearIndexes | .bootstrapStarted | .bootstrapClear | .subscribe _ | .initialData _ => true
  | .bootstrapProcess _ _ | .bootstrapPublish _ _ | .bootstrapCompleted => true
  | .setRunning | .openStream | .publishRunning => true
  | _ => false

/-- in the main loop, with the change stream open: taking changes -/
def Pc.consuming : Pc Change Row → Bool
  | .main | .processChange _ | .publishResults _ | .ack => true
  | _ => false

/-- carrying out the Delete command -/
def Pc.deleting : Pc Change Row → Bool
  | .deleteIndexes | .deleteConsumer | .deleteSubscriptions _ => true
  | _ => false

/-- a step of the main loop that fails: polling the stream, a closed command channel, converting, processing or publishing
a change -/
def fails (v : View Change Index) : Pc Change Row → Event Change → Bool
  | .main, .fail _ => true
  | .main, .command => v.command = some none
  | .processChange event, .ok =>
    match event.change with
    | .ok _ => false
    | .error _ => true
  | .processChange _, .fail _ => true
  | .publishResults _, .fail _ => true
  | _, _ => false

section Regions

variable {Q : ContinuousQuery Change Index Row} {spec : QuerySpec} {v : View Change Index} {pc pc' : Pc Change Row}
  {event : Event Change} {effects : List (Effect Change Row)}

theorem startup_of_not_inStartup (h : pc.inStartup = false) : startup Q spec v pc event = none := by
  unfold startup
  split <;> first | rfl | cases h

theorem mainLoop_of_inStartup (h : pc.inStartup = true) : mainLoop Q spec v pc event = none := by
  unfold mainLoop
  split <;> first | rfl | cases h

theorem next_of_not_inStartup (h : pc.inStartup = false) : next Q spec v pc event = mainLoop Q spec v pc event := by
  rw [next, startup_of_not_inStartup h, Option.none_or]

theorem next_of_inStartup (h : pc.inStartup = true) : next Q spec v pc event = startup Q spec v pc event := by
  rw [next, mainLoop_of_inStartup h, Option.or_none]

omit [DecidableEq Row] in
theorem nextUnsubscribe_inStartup (sources : List String) :
    (nextUnsubscribe sources : Pc Change Row).inStartup = false := by
  cases sources <;> rfl

/-- **Start-up is left once**, and outside of it the lifecycle is written only by a step that fails. -/
theorem mainLoop_cases (h : mainLoop Q spec v pc event = some (pc', effects)) :
    pc'.inStartup = false ∧ ((∃ state, .setState state ∈ effects) → fails v pc event = true) := by
  unfold mainLoop at h
  split at h
  -- the places that look at what the worker reads split once more
  case h_1 => split at h <;> cases h <;> simp_all [Pc.inStartup, fails]
  case h_3 =>
    split at h
    · split at h <;> cases h <;> simp [Pc.inStartup]
    · cases h
  case h_4 =>
    split at h
    · simp only at h
      split at h <;> cases h <;> simp [Pc.inStartup]
    · cases h; simp_all [Pc.inStartup, fails]
  all_goals cases h
  all_goals
    refine ⟨?_, by simp [fails, control]⟩
    first | rfl | exact nextUnsubscribe_inStartup _

end Regions

end DrasiPlatform.QueryHost
