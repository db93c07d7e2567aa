/-
Does a query consume changes only from a bootstrapped index? A start of the worker decides from the lifecycle state: it
bootstraps in Configured and Bootstrapping, and skips the bootstrap in every other state. TransientError is one of the
others, and a start-up writes it before, during and after the bootstrap. After a failure before the bootstrap, or with a
volatile index after any failure, the reminder starts a worker that goes to Running on an empty index.

- `Place`: what holds where a worker is, for the lifecycle state and its index.
- `startup_moves`, `mainLoop_moves`: what each step of the program does to that.
- `BootInv`, `step_bootstrapped`, `run_bootstrapped`: the invariant of the whole host: in memory, in the watch channel, in
  flight and persisted, Running and TransientError mean that the persistent index is filled.
- `bootstrapped_before_running`: in every run of configure, activations, reminders, crashes and failures in which a failure
  that is taken as transient happens only with a persistent index and in Running or TransientError, a worker is in Running
  and consumes only if a completed bootstrap filled its index.
Witness: `running_on_empty_index` (building the index fails once, before the bootstrap; the reminder starts the worker again
and it runs).
-/
import Mathlib.Tactic
import DrasiPlatform.QueryHost.Provisioned

namespace DrasiPlatform.QueryHost

variable {Change Index Row : Type}

/-! ## Where a worker is -/

/-- a failure of a worker that is taken as transient -/
def failsTransiently : Pc Change Row → Event Change → Bool
  | .build, .fail _ | .configureView, .fail _ | .newSequence, .fail _ | .openStream, .fail _ => true
  | .main, .fail _ | .processChange _, .fail _ | .publishResults _, .fail _ => true
  | .processChange event, .ok =>
    match event.change with
    | .ok _ => false
    | .error _ => true
  | _, _ => false

/-- what holds where a worker is, for the lifecycle state, the volatility of its index and whether that is filled -/
def Place (state : QueryState) (isVolatile filled : Bool) : Pc Change Row → Prop
  | .build | .tryBuild | .connect | .configureView | .checkVolatile => state.early = true ∨ state.late = true
  | .newSequence | .decideBootstrap =>
    (state.early = true ∨ state.late = true) ∧ (isVolatile = true → state ≠ .running)
  | .clearIndexes | .bootstrapStarted | .bootstrapClear | .subscribe _ | .initialData _ => state = .bootstrapping
  | .bootstrapProcess _ _ | .bootstrapPublish _ _ | .bootstrapCompleted => state = .bootstrapping
  | .setRunning | .openStream | .publishRunning => filled = true
  | .main | .processChange _ | .publishResults _ | .ack => filled = true
  | .deleteIndexes | .deleteConsumer | .deleteSubscriptions _ | .publishDeleted | .deprovisionView => False
  | .publishStopped | .finished => True

/-! ## What effects do to state and index -/

/-- the last state that effects write -/
def writes : List (Effect Change Row) → Option QueryState
  | [] => none
  | .setState state :: es => (writes es).or (some state)
  | _ :: es => writes es

/-- whether effects leave the index filled, if they change that -/
def fills (isVolatile : Bool) : List (Effect Change Row) → Option Bool
  | [] => none
  | .newIndex :: es => (fills isVolatile es).or (if isVolatile then some false else none)
  | .clearIndex :: es => (fills isVolatile es).or (some false)
  | .deleteIndex :: es => (fills isVolatile es).or (some false)
  | .bootstrapped :: es => (fills isVolatile es).or (some true)
  | _ :: es => fills isVolatile es

/-- the lifecycle after a write, if there is one -/
def Actor.write (a : Actor) : Option QueryState → Actor
  | none => a
  | some state => a.changeState state

theorem foldl_exec_writes (Q : ContinuousQuery Change Index Row) (i : ℕ) (s : Host Change Index Row)
    (es : List (Effect Change Row)) : (es.foldl (exec Q i) s).actor = s.actor.write (writes es) := by
  induction es generalizing s with
  | nil => rfl
  | cons e es ih =>
    rw [List.foldl_cons, ih, exec_actor]
    cases e with
    | setState state => simp only [writes]; cases writes es <;> rfl
    | _ => rfl

/-- one effect on whether the indexes are filled -/
theorem exec_fills (Q : ContinuousQuery Change Index Row) (i : ℕ) (s : Host Change Index Row) (e : Effect Change Row) :
    ((exec Q i s e).storeOf i).filled = (fills (s.worker i).spec.isVolatile [e]).getD (s.storeOf i).filled ∧
      ((s.worker i).spec.isVolatile = true → (exec Q i s e).store = s.store) := by
  cases e with
  | setState _ | publishChange _ _ | publishControl _ _ | ack => exact ⟨rfl, fun _ => rfl⟩
  | newSequence | increment | takeCommand | drop =>
    exact ⟨by simp [exec, fills, storeOf_setWorker], fun _ => rfl⟩
  | newIndex =>
    refine ⟨?_, fun _ => rfl⟩
    simp only [exec, Host.storeOf, setWorker_self, fills, Option.none_or]
    split <;> rfl
  | clearIndex | bootstrapped => exact ⟨by simp [exec, fills], fun hv => by simp [exec, setStore_store, hv]⟩
  | process change => exact ⟨by simp [exec, fills], fun hv => by simp [exec, setStore_store, hv]⟩
  | subscribe source | openStream => exact ⟨by simp [exec, fills], fun _ => by simp [exec]⟩
  | deleteIndex => exact ⟨by simp [exec, fills], fun hv => by simp [exec, setStore_store, hv]⟩
  | deleteConsumer pending =>
    refine ⟨?_, fun _ => by simp [exec]⟩
    simp only [exec, storeOf_remove, fills, Option.getD_none]
    rfl
  | unsubscribe source => exact ⟨by simp [exec, fills], fun _ => by simp [exec]⟩

theorem fills_cons (isVolatile : Bool) (e : Effect Change Row) (es : List (Effect Change Row)) :
    fills isVolatile (e :: es) = (fills isVolatile es).or (fills isVolatile [e]) := by
  cases e <;> simp [fills]

theorem foldl_exec_fills (Q : ContinuousQuery Change Index Row) (i : ℕ) (s : Host Change Index Row)
    (es : List (Effect Change Row)) :
    ((es.foldl (exec Q i) s).storeOf i).filled =
        (fills (s.worker i).spec.isVolatile es).getD (s.storeOf i).filled ∧
      ((s.worker i).spec.isVolatile = true → (es.foldl (exec Q i) s).store = s.store) := by
  induction es generalizing s with
  | nil => exact ⟨rfl, fun _ => rfl⟩
  | cons e es ih =>
    obtain ⟨h1, h2⟩ := ih (exec Q i s e)
    obtain ⟨h3, h4⟩ := exec_fills Q i s e
    rw [(exec_worker Q s i i e).2] at h1 h2
    rw [List.foldl_cons, fills_cons, h1, h3]
    refine ⟨?_, fun hv => (h2 hv).trans (h4 hv)⟩
    cases fills (s.worker i).spec.isVolatile es <;> rfl

/-! ## What the program does to a place -/

/-- a step from a place: where it leads, what it writes to the lifecycle and what it does to the index -/
structure Moves (state : QueryState) (isVolatile filled : Bool) (pc' : Pc Change Row) (es : List (Effect Change Row)) :
    Prop where
  place : Place ((writes es).getD state) isVolatile ((fills isVolatile es).getD filled) pc'
  late : ∀ q, writes es = some q → q.late = true →
    (isVolatile = true → q = .running) ∧ (isVolatile = false → (fills isVolatile es).getD filled = true)
  early : ∀ q, writes es = some q → q.early = true → isVolatile = true ∨ state.early = true
  cleared : fills isVolatile es = some false → isVolatile = true ∨ state = .bootstrapping

/-- a step that leaves the lifecycle and the index alone has only its place to account for -/
theorem Moves.quiet {state : QueryState} {isVolatile filled : Bool} {pc' : Pc Change Row} {es : List (Effect Change Row)}
    (hw : writes es = none) (hf : fills isVolatile es = none) (hp : Place state isVolatile filled pc') :
    Moves state isVolatile filled pc' es where
  place := by rwa [hw, hf]
  late q hq := by cases hw.symm.trans hq
  early q hq := by cases hw.symm.trans hq
  cleared h := by cases hf.symm.trans h

/-- a step that writes a state that is not early, and leaves the index alone -/
theorem Moves.of_write {state q : QueryState} {isVolatile filled : Bool} {pc' : Pc Change Row} {es : List (Effect Change Row)}
    (hw : writes es = some q) (hf : fills isVolatile es = none) (hp : Place q isVolatile filled pc')
    (hlate : q.late = true → (isVolatile = true → q = .running) ∧ (isVolatile = false → filled = true))
    (hearly : q.early = false) : Moves state isVolatile filled pc' es where
  place := by rwa [hw, hf]
  late q' hq' := by
    obtain rfl : q = q' := Option.some.inj (hw.symm.trans hq')
    rwa [hf]
  early q' hq' he := by
    obtain rfl : q = q' := Option.some.inj (hw.symm.trans hq')
    cases hearly.symm.trans he
  cleared h := by cases hf.symm.trans h

/-- a step that fills or clears the index, and leaves the lifecycle alone -/
theorem Moves.of_fill {state : QueryState} {isVolatile filled b : Bool} {pc' : Pc Change Row} {es : List (Effect Change Row)}
    (hw : writes es = none) (hf : fills isVolatile es = some b) (hp : Place state isVolatile b pc')
    (hcleared : b = false → isVolatile = true ∨ state = .bootstrapping) : Moves state isVolatile filled pc' es where
  place := by rwa [hw, hf]
  late q hq := by cases hw.symm.trans hq
  early q hq := by cases hw.symm.trans hq
  cleared h := hcleared (Option.some.inj (hf.symm.trans h))

section Table

variable [DecidableEq Row] {Q : ContinuousQuery Change Index Row} {spec : QuerySpec} {v : View Change Index}
  {pc pc' : Pc Change Row} {event : Event Change} {es : List (Effect Change Row)} {filled : Bool}

omit [DecidableEq Row] in
/-- a transient failure is of a persistent index that is filled -/
theorem late_transientError
    (hlate : v.state.late = true → (spec.isVolatile = true → v.state = .running) ∧ (spec.isVolatile = false → filled = true))
    (hok : failsTransiently pc event = true → spec.isVolatile = false ∧ v.state.late = true)
    (hfails : failsTransiently pc event = true) (err : String) :
    (spec.isVolatile = true → QueryState.transientError err = .running) ∧ (spec.isVolatile = false → filled = true) := by
  obtain ⟨hpersistent, hl⟩ := hok hfails
  refine ⟨fun hvolatile => ?_, (hlate hl).2⟩
  cases hpersistent.symm.trans hvolatile

omit [DecidableEq Row] in
theorem place_nextSource (state : QueryState) (isVolatile filled : Bool) (sources : List String) :
    Place state isVolatile filled (nextSource sources : Pc Change Row) ↔ state = .bootstrapping := by
  cases sources <;> rfl

theorem startup_moves (h : startup Q spec v pc event = some (pc', es)) (hp : Place v.state spec.isVolatile filled pc)
    (hlate : v.state.late = true → (spec.isVolatile = true → v.state = .running) ∧ (spec.isVolatile = false → filled = true))
    (hok : failsTransiently pc event = true → spec.isVolatile = false ∧ v.state.late = true) :
    Moves v.state spec.isVolatile filled pc' es := by
  unfold startup at h
  split at h
  -- the volatile check
  case h_9 =>
    cases h
    split
    · rename_i hv
      exact ⟨⟨.inl rfl, fun _ => by simp [writes]⟩, by simp [writes, QueryState.late], fun _ _ _ => .inl hv.2, by simp [fills]⟩
    · rename_i hv
      exact .quiet rfl rfl ⟨hp, fun hvol hrun => hv ⟨hrun, hvol⟩⟩
  -- the decision on the bootstrap: it is skipped only on a filled index
  case h_12 =>
    split at h
    · rename_i hs
      cases h
      exact ⟨rfl, by simp [writes, QueryState.late], fun _ _ _ => .inr (by rw [hs]; rfl), by simp [fills]⟩
    · rename_i hs
      cases h
      exact ⟨rfl, by simp [writes, QueryState.late], fun _ _ _ => .inr (by rw [hs]; rfl), by simp [fills]⟩
    · cases h
      exact .quiet rfl rfl trivial
    · rename_i hc hb _
      cases h
      have hl : v.state.late = true := by
        rcases hp.1 with he | hl
        · cases hs : v.state <;> simp_all [QueryState.early]
        · exact hl
      have hpersistent : spec.isVolatile = false := by
        cases hvol : spec.isVolatile with
        | false => rfl
        | true => exact absurd ((hlate hl).1 hvol) (hp.2 hvol)
      exact .quiet rfl rfl ((hlate hl).2 hpersistent)
  -- the next source
  case h_18 =>
    cases h
    exact ⟨(place_nextSource ..).2 hp, by simp [writes], by simp [writes], fun _ => .inr hp⟩
  case h_19 =>
    cases h
    exact .quiet rfl rfl ((place_nextSource ..).2 hp)
  case h_24 =>
    cases h
    exact .quiet rfl rfl ((place_nextSource ..).2 hp)
  case h_1 =>
    cases h
    cases hvol : spec.isVolatile with
    | false => exact .quiet rfl rfl hp
    | true => exact .of_fill rfl rfl hp fun _ => .inl rfl
  all_goals cases h
  -- what touches neither the lifecycle nor the index, then errors, then what does touch them
  all_goals first
    | exact .quiet rfl rfl hp
    | exact .quiet rfl rfl trivial
    | exact .quiet rfl rfl ⟨hp.1, hp.2⟩
    | exact .of_write rfl rfl trivial (fun _ => late_transientError hlate hok rfl _) rfl
    | exact .of_write rfl rfl trivial (fun hl => by cases hl) rfl
    | exact .of_write rfl rfl hp (fun _ => ⟨fun _ => rfl, fun _ => hp⟩) rfl
    | exact .of_fill rfl rfl hp fun _ => .inr hp
    | exact .of_fill rfl rfl rfl fun hb => by cases hb

theorem mainLoop_moves (h : mainLoop Q spec v pc event = some (pc', es)) (hp : Place v.state spec.isVolatile filled pc)
    (hlate : v.state.late = true → (spec.isVolatile = true → v.state = .running) ∧ (spec.isVolatile = false → filled = true))
    (hcommand : v.command ≠ some (some .delete))
    (hok : failsTransiently pc event = true → spec.isVolatile = false ∧ v.state.late = true) :
    Moves v.state spec.isVolatile filled pc' es := by
  unfold mainLoop at h
  split at h
  case h_1 =>
    split at h
    all_goals cases h
    · exact .quiet rfl rfl trivial
    · rename_i hc
      exact absurd hc hcommand
    · exact .quiet rfl rfl trivial
    · exact .of_write rfl rfl trivial (fun hl => by cases hl) rfl
  case h_3 =>
    split at h
    · split at h <;> cases h <;> exact .quiet rfl rfl hp
    · cases h
  case h_4 =>
    split at h
    · simp only at h
      split at h <;> cases h <;> exact .quiet rfl rfl hp
    · rename_i hconv
      cases h
      refine .of_write rfl rfl trivial (fun _ => late_transientError hlate hok ?_ _) rfl
      simp [failsTransiently, hconv]
  all_goals cases h
  all_goals first
    | exact .quiet rfl rfl hp
    | exact .quiet rfl rfl trivial
    | exact hp.elim
    | exact .of_write rfl rfl trivial (fun _ => late_transientError hlate hok rfl _) rfl

variable (filled) in
/-- **Every step of the program** keeps the place, if transient failures happen only behind the bootstrap. -/
theorem next_moves (h : next Q spec v pc event = some (pc', es)) (hp : Place v.state spec.isVolatile filled pc)
    (hlate : v.state.late = true → (spec.isVolatile = true → v.state = .running) ∧ (spec.isVolatile = false → filled = true))
    (hcommand : v.command ≠ some (some .delete))
    (hok : failsTransiently pc event = true → spec.isVolatile = false ∧ v.state.late = true) :
    Moves v.state spec.isVolatile filled pc' es := by
  cases hs : pc.inStartup with
  | true =>
    rw [next_of_inStartup hs] at h
    exact startup_moves h hp hlate hok
  | false =>
    rw [next_of_not_inStartup hs] at h
    exact mainLoop_moves h hp hlate hcommand hok

end Table

/-! ## The invariant of the host -/

/-- a late state is backed by the index: with a persistent one it is filled, and with a volatile one only Running occurs,
in which the next start bootstraps again -/
def Backed (s : Host Change Index Row) (q : QueryState) : Prop :=
  ∃ spec, s.saved.config = some spec ∧ (spec.isVolatile = true → q = .running) ∧
    (spec.isVolatile = false → s.store.filled = true)

structure BootInv (s : Host Change Index Row) : Prop where
  late : ∀ q ∈ s.marks, q.late = true → Backed s q
  /-- before the bootstrap of a persistent index nothing tells of an earlier one -/
  early : s.actor.state.early = true → ∀ spec, s.saved.config = some spec → spec.isVolatile = false →
    ∀ q ∈ s.marks, q.late = false
  place : ∀ i, (s.worker i).isFinished = false →
    Place s.actor.state (s.worker i).spec.isVolatile (s.storeOf i).filled (s.worker i).pc

/-- the condition on a step: a failure that is taken as transient happens with a persistent index and behind the
bootstrap -/
def FailsLate (s : Host Change Index Row) : Op Change → Prop
  | .worker i event => failsTransiently (s.worker i).pc event = true →
      (s.worker i).spec.isVolatile = false ∧ s.actor.state.late = true
  | _ => True

theorem init_bootInv (Q : ContinuousQuery Change Index Row) : BootInv (.init Q) where
  late q hq hl := by
    simp only [Host.marks, Host.init, Actor.inactive, Option.toList_none, List.append_nil, List.mem_singleton] at hq
    subst hq
    cases hl
  early h := by cases h
  place i hi := by cases hi

/-! ### A step of a worker -/

variable [DecidableEq Row] (Q : ContinuousQuery Change Index Row)

omit [DecidableEq Row] in
/-- a state behind the bootstrap is backed by the index of a worker at work -/
theorem BootInv.backed {s : Host Change Index Row} (h : BootInv s) (hp : Provisioned s) {i : ℕ}
    (hi : (s.worker i).isFinished = false) {q : QueryState} (hq : q ∈ s.marks) (hl : q.late = true) :
    ((s.worker i).spec.isVolatile = true → q = .running) ∧
      ((s.worker i).spec.isVolatile = false → (s.storeOf i).filled = true) := by
  obtain ⟨spec, hspec, hvol, hfilled⟩ := h.late q hq hl
  obtain rfl : (s.worker i).spec = spec := by simpa [hspec] using (hp.spec hi).symm
  refine ⟨hvol, fun hv => ?_⟩
  simp only [Host.storeOf, hv, Bool.false_eq_true, if_false]
  exact hfilled hv

omit [DecidableEq Row] in
theorem Provisioned.view_command {s : Host Change Index Row} (h : Provisioned s) (i : ℕ) :
    (s.view i).command ≠ some (some .delete) := by
  intro hc
  simp only [Host.view] at hc
  split at hc
  · rename_i c cs hcs
    simp only [Option.some.injEq] at hc
    exact h.commands i (by rw [hcs, hc]; exact List.mem_cons_self)
  · split at hc <;> cases hc

omit [DecidableEq Row] in
/-- the marks after a worker has written to the lifecycle -/
theorem marks_writes {s s' : Host Change Index Row} {es : List (Effect Change Row)} {q : QueryState} (hq : q ∈ s'.marks)
    (hactor : s'.actor = s.actor.write (writes es)) (hsaved : s'.saved = s.saved) : q ∈ s.marks ∨ writes es = some q := by
  cases hw : writes es with
  | none =>
    rw [hw] at hactor
    simp only [Host.marks, hactor, hsaved, Actor.write] at hq
    exact .inl hq
  | some q0 =>
    rw [hw] at hactor
    change s'.actor = s.actor.changeState q0 at hactor
    have hstate : s'.actor.state = q0 := by rw [hactor]; rfl
    rcases marks_changeState (s := s) hq hstate (by rw [hactor]; rfl) (by rw [hactor]; rfl) (by rw [hsaved]) with rfl | hq
    · exact .inr rfl
    · exact .inl hq

/-- **A step of a worker** keeps the invariant. -/
theorem BootInv.worker {s : Host Change Index Row} (hp : Provisioned s) (h : BootInv s) (i : ℕ) (event : Event Change)
    (hok : FailsLate s (.worker i event)) : BootInv (workerStep Q s i event) := by
  have hp' := hp.worker Q i event
  obtain ⟨-, heq⟩ | ⟨pc, es, hn, heq, hpc, hother, hspec, hsaved, hcount⟩ := workerStep_cases Q s i event
  · rw [heq]; exact h
  have hun : (s.worker i).isFinished = false := unfinished_of_next Q hn
  have hconfig := hp.spec hun
  have hm := next_moves (s.storeOf i).filled hn (h.place i hun) (h.backed hp hun List.mem_cons_self) (hp.view_command i) hok
  -- what the step has done to the lifecycle and to the indexes
  have hactor : (workerStep Q s i event).actor = s.actor.write (writes es) := by rw [heq, foldl_exec_writes, goto_actor]
  have hstate : (workerStep Q s i event).actor.state = (writes es).getD s.actor.state := by
    rw [hactor]
    cases writes es <;> rfl
  have hfills := foldl_exec_fills Q i (s.goto i pc) es
  rw [← heq, goto_storeOf, goto_spec] at hfills
  have hstore : (s.worker i).spec.isVolatile = false → (workerStep Q s i event).store.filled =
      (fills (s.worker i).spec.isVolatile es).getD (s.storeOf i).filled := by
    intro hv
    rw [← hfills.1]
    simp only [Host.storeOf, hspec i, hv, Bool.false_eq_true, if_false]
  -- a state that was backed stays so: an index is cleared only where nothing tells of it
  have hbacked : ∀ q ∈ s.marks, q.late = true → Backed (workerStep Q s i event) q := by
    intro q hq hl
    obtain ⟨hvol, hfilled⟩ := h.backed hp hun hq hl
    refine ⟨(s.worker i).spec, by rw [hsaved]; exact hconfig, hvol, fun hv => ?_⟩
    rw [hstore hv]
    cases hf : fills (s.worker i).spec.isVolatile es with
    | none => exact hfilled hv
    | some b =>
      cases b with
      | true => rfl
      | false =>
        rcases hm.cleared hf with hv' | hs
        · rw [hv] at hv'; cases hv'
        · have hearly : s.actor.state.early = true := by
            change s.actor.state = _ at hs
            rw [hs]; rfl
          rw [h.early hearly _ hconfig hv q hq] at hl
          cases hl
  refine ⟨fun q hq hl => ?_, fun hearly spec' hspec' hv q hq => ?_, fun j hj => ?_⟩
  · rcases marks_writes hq hactor hsaved with hq | hw
    · exact hbacked q hq hl
    · obtain ⟨hvol, hfilled⟩ := hm.late q hw hl
      exact ⟨(s.worker i).spec, by rw [hsaved]; exact hconfig, hvol, fun hv => by rw [hstore hv]; exact hfilled hv⟩
  · rw [hsaved, hconfig, Option.some.injEq] at hspec'
    subst hspec'
    rw [hstate] at hearly
    cases hw : writes es with
    | none =>
      rw [hw] at hearly
      rcases marks_writes hq hactor hsaved with hq | hw'
      · exact h.early hearly _ hconfig hv q hq
      · rw [hw] at hw'; cases hw'
    | some q0 =>
      rw [hw, Option.getD_some] at hearly
      rcases marks_writes hq hactor hsaved with hq | hw'
      · rcases hm.early q0 hw hearly with hv' | hs
        · rw [hv] at hv'; cases hv'
        · exact h.early hs _ hconfig hv q hq
      · rw [hw, Option.some.injEq] at hw'
        subst hw'
        exact QueryState.late_of_early hearly
  · obtain rfl : j = i := by
      by_contra hne
      exact hne (hp.only hun (by rw [← isFinished_congr (hother j hne)]; exact hj))
    rw [hstate, hspec, hfills.1, hpc]
    exact hm.place

/-! ### Every step -/

omit [DecidableEq Row] in
/-- a step that is not a worker's, from what it does to the lifecycle, to the store and to the workers -/
theorem BootInv.of_lifecycle {s s' : Host Change Index Row} (hp : Provisioned s) (h : BootInv s) (hl : Lifecycle s s')
    (hfilled : s'.store.filled = s.store.filled)
    (hworker : ∀ j, (s'.worker j).isFinished = false → (s.worker j).isFinished = false ∧
        (s'.worker j).pc = (s.worker j).pc ∧ (s'.worker j).spec = (s.worker j).spec ∧
        (s'.storeOf j).filled = (s.storeOf j).filled ∨
      (s.worker j).isFinished = true ∧ (s'.worker j).pc = .build) : BootInv s' := by
  refine ⟨fun q hq hlate => ?_, fun he spec hspec hv q hq => ?_, fun j hj => ?_⟩
  · obtain ⟨spec, hspec, hrest⟩ := h.late q (hl.marks q hq hlate) hlate
    rcases hl.config with hc | hc
    · exact ⟨spec, by rw [hc]; exact hspec, by rw [hfilled]; exact hrest⟩
    · rw [hc] at hspec; cases hspec
  · by_contra hlate
    rw [Bool.not_eq_false] at hlate
    have hq' := hl.marks q hq hlate
    rcases hl.early he with hs | hm
    · rcases hl.config with hc | hc
      · rw [h.early (hs ▸ he) spec (hc ▸ hspec) hv q hq'] at hlate
        cases hlate
      · exact hp.late q hq' hlate hc
    · rw [hm q hq] at hlate
      cases hlate
  · rcases hworker j hj with ⟨hj', hpc, hspec, hfill⟩ | ⟨hj', hpc⟩
    · rw [hl.kept j hj' hj, hpc, hspec, hfill]
      exact h.place j hj'
    · rw [hpc]
      exact hl.fresh j hj' hj

/-- **One step** keeps the invariant. -/
theorem step_bootstrapped (s : Host Change Index Row) (op : Op Change) (hp : Provisioned s) (h : BootInv s)
    (hop : op.provisioned = true) (hok : FailsLate s op) : BootInv (step Q s op) := by
  cases hw : op.isWorker with
  | true =>
    cases op with
    | worker i event => exact h.worker Q hp i event hok
    | _ => cases hw
  | false =>
    have hl := (step_provisioned Q s op hp hop).2 hw
    cases hactor : op.isActor with
    | true =>
      obtain ⟨hun, hmoved | ⟨-, spec, hst⟩⟩ := step_actor Q s op hactor
      · have hcore := hmoved.workers
        refine h.of_lifecycle hp hl (by rw [hun.store]) fun j hj => .inl ⟨?_, hmoved.pc j, congrArg (·.spec) (hcore j), ?_⟩
        · rw [← isFinished_congr (hmoved.pc j)]; exact hj
        · have hspec : ((step Q s op).worker j).spec = (s.worker j).spec := congrArg (·.spec) (hcore j)
          have hmemory : ((step Q s op).worker j).memory = (s.worker j).memory := congrArg (·.memory) (hcore j)
          simp only [Host.storeOf, hun.store, hspec, hmemory]
      · refine h.of_lifecycle hp hl (by rw [hun.store]) fun j hj => ?_
        by_cases hj' : j = s.count
        · subst hj'
          refine .inr ⟨?_, by rw [hst.fresh]; rfl⟩
          rw [Worker.isFinished, hp.beyond _ le_rfl]
        · have hsame := hst.others j hj'
          refine .inl ⟨by rw [← hsame]; exact hj, by rw [hsame], by rw [hsame], ?_⟩
          simp only [Host.storeOf, hun.store, hsame]
    | false =>
      cases op with
      | persistRead i =>
        refine h.of_lifecycle hp hl rfl fun j hj => .inl ⟨?_, setWorker_map (·.pc) s i j rfl, setWorker_map (·.spec) s i j rfl, ?_⟩
        · have hfin : ((step Q s (.persistRead i)).worker j).isFinished = (s.worker j).isFinished :=
            setWorker_map Worker.isFinished s i j rfl
          rw [← hfin]
          exact hj
        · have hstore : (step Q s (.persistRead i)).storeOf j = s.storeOf j := storeOf_setWorker s i j rfl rfl
          rw [hstore]
      | persistWrite i ok =>
        obtain ⟨⟨sequence, hstore⟩, -⟩ := persistWrite_store s i ok i
        refine h.of_lifecycle hp hl (by simp only [step, hstore]) fun j hj => .inl ?_
        obtain ⟨hpc, hspec, -⟩ := persistWrite_frame s i ok j
        obtain ⟨-, sequence', hof⟩ := persistWrite_store s i ok j
        exact ⟨by rw [← isFinished_congr hpc]; exact hj, hpc, hspec, by simp only [step, hof]⟩
      | crash => exact h.of_lifecycle hp hl rfl fun j hj => by cases hj
      | worker _ _ => cases hw
      | _ => cases hactor

/-- **A run** from the start. -/
theorem run_bootstrapped (ops : List (Op Change)) (hops : ∀ op ∈ ops, op.provisioned = true)
    (hm : Run.Meets (step Q) FailsLate (.init Q) ops) :
    Provisioned (Run.run (step Q) (.init Q) ops) ∧ BootInv (Run.run (step Q) (.init Q) ops) := by
  have hstep : ∀ s, ∀ op ∈ ops, Provisioned s ∧ BootInv s → FailsLate s op →
      Provisioned (step Q s op) ∧ BootInv (step Q s op) := fun s op hop h hok =>
    ⟨(step_provisioned Q s op h.1 (hops op hop)).1, step_bootstrapped Q s op h.1 h.2 (hops op hop) hok⟩
  exact hm.inv hstep ⟨init_provisioned Q, init_bootInv Q⟩

/-! ## Changes are consumed from a bootstrapped index -/

/-- the worker has entered Running: it opens the change stream, or consumes it -/
def Pc.running : Pc Change Row → Bool
  | .openStream | .publishRunning => true
  | pc => pc.consuming

/-- a worker that has entered Running uses an index that a completed bootstrap filled -/
def Bootstrapped (s : Host Change Index Row) : Prop :=
  ∀ i, (s.worker i).pc.running = true → (s.storeOf i).filled = true

omit [DecidableEq Row] in
theorem BootInv.bootstrapped {s : Host Change Index Row} (h : BootInv s) : Bootstrapped s := by
  intro i hi
  have hun : (s.worker i).isFinished = false := by
    by_contra hfin
    rw [Bool.not_eq_false, isFinished_iff] at hfin
    rw [hfin] at hi
    cases hi
  have hp := h.place i hun
  cases hpc : (s.worker i).pc <;> rw [hpc] at hi hp <;> first | exact hp | cases hi

/-- **Changes are consumed from a bootstrapped index.** In every run of configure, activations, reminders, host restarts and
failures in which a failure that is taken as transient happens only with a persistent index and behind the bootstrap: every
worker that has entered Running uses an index that a completed bootstrap filled. -/
theorem bootstrapped_before_running (ops : List (Op Change)) (hops : ∀ op ∈ ops, op.provisioned = true)
    (hm : Run.Meets (step Q) FailsLate (.init Q) ops) : Bootstrapped (Run.run (step Q) (.init Q) ops) :=
  (run_bootstrapped Q ops hops hm).2.bootstrapped

instance (s : Host Change Index Row) (op : Op Change) : Decidable (FailsLate s op) :=
  match op with
  | .worker _ _ => inferInstanceAs (Decidable (_ → _))
  | .turn _ | .arrive _ | .persistRead _ | .persistWrite _ _ | .watcherRead | .watcherWrite _ | .activate _
  | .deactivate | .reminder | .configure _ | .deprovision | .crash => inferInstanceAs (Decidable True)

/-- the query runs, the stream fails, and the reminder starts a second worker -/
def restarted : List (Op ℕ) :=
  configured false ++ (succeed 0 14 ++ [.worker 0 (.fail "poll"), .worker 0 .ok, .reminder] ++ succeed 1 10)

/-- the second worker skips the bootstrap, and runs on the index of the first -/
theorem bootstrapped_before_running_restarted :
    Bootstrapped (Run.run (step collect) (.init collect) restarted) ∧
    ((Run.run (step collect) (.init collect) restarted).worker 1).pc.running = true := by
  refine ⟨bootstrapped_before_running collect restarted ?_ ?_, ?_⟩
  all_goals decide

/-- building the index fails once, and the reminder starts a second worker -/
def builtLate : List (Op ℕ) := configured false ++ (.worker 0 (.fail "build") :: .reminder :: succeed 1 10)

/-- the second worker consumes changes on an index that nothing has filled -/
theorem running_on_empty_index :
    ¬ Bootstrapped (Run.run (step collect) (.init collect) builtLate) ∧
    (Run.run (step collect) (.init collect) builtLate).actor.state = .running ∧
    ((Run.run (step collect) (.init collect) builtLate).worker 1).pc.consuming = true ∧
    ((Run.run (step collect) (.init collect) builtLate).storeOf 1).filled = false := by
  have hpc : ((Run.run (step collect) (.init collect) builtLate).worker 1).pc.running = true := by decide
  have hfilled : ((Run.run (step collect) (.init collect) builtLate).storeOf 1).filled = false := by decide
  refine ⟨fun h => ?_, ?_, ?_, hfilled⟩
  · rw [h 1 hpc] at hfilled
    cases hfilled
  all_goals decide

end DrasiPlatform.QueryHost
