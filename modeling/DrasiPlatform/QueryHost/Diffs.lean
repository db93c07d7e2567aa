/-
Is a result diff ever lost? `process_change` updates the index, publishes the difference and returns; the change is
acknowledged after that. If the publish fails, or the host goes down before it, the index already holds the change: when the
change is delivered again, processing it gives the empty difference, nothing is published, and it is acknowledged. A publish
that the results topic answers with an error status counts as a success (`ResultPublisher::publish` does not look at the
status, where `SourceClient` does), so its difference is lost at once.

- `Host.shown`: the fold of what the results topic has accepted. As the view service does, it starts over at
  BootstrapStarted.
- `Books`, `Balanced`: the index of a worker beside that fold, and what holds of the two where a worker is.
- `next_balanced`, `next_region`: every step of the program.
- `DiffInv`, `step_diffs`, `run_diffs`: the invariant of the whole host.
- `diffs_published`: in every run between configure and deprovision, between two changes, and so whenever a change has been
  acknowledged, the fold of what the topic has accepted is the result set of the index, if
  · every publish of results is accepted, and the host does not go down before one;
  · a bootstrap clears the index and its BootstrapStarted is accepted (where there is something to clear);
  · a failure that is taken as transient happens with a persistent index and behind the bootstrap (`FailsLate`).
Witness: `diff_lost` (one publish fails; the change is delivered again and acknowledged).
-/
import Mathlib.Tactic
import DrasiPlatform.QueryHost.Bootstrapped

namespace DrasiPlatform.QueryHost

variable {Change Index Row : Type} [DecidableEq Row] (Q : ContinuousQuery Change Index Row)

/-! ## What the topic shows -/

/-- an event of the results topic, accepted or not -/
def accept (rows : Finset Row) : ResultEvent Row × Bool → Finset Row
  | (.change _ results, true) => results.apply rows
  | (.control _ .bootstrapStarted, true) => Q.rows Q.empty
  | _ => rows

/-- the fold of all events the results topic has accepted -/
def Host.shown (s : Host Change Index Row) : Finset Row := s.topic.foldl (accept Q) (Q.rows Q.empty)

/-- the index of a worker, and what the topic shows -/
structure Books (Index Row : Type) where
  index : Index
  shown : Finset Row

def Host.books (s : Host Change Index Row) (i : ℕ) : Books Index Row := ⟨(s.storeOf i).index, s.shown Q⟩

/-- one effect on the books -/
def Books.apply (isVolatile : Bool) (b : Books Index Row) : Effect Change Row → Books Index Row
  | .newIndex => if isVolatile then { b with index := Q.empty } else b
  | .clearIndex => { b with index := Q.empty }
  | .deleteIndex => { b with index := Q.empty }
  | .process change => { b with index := Q.process change b.index }
  | .publishChange results true => { b with shown := results.apply b.shown }
  | .publishControl .bootstrapStarted true => { b with shown := Q.rows Q.empty }
  | _ => b

theorem publish_shown (s : Host Change Index Row) (event : ResultEvent Row) (accepted : Bool) :
    (s.publish event accepted).shown Q = accept Q (s.shown Q) (event, accepted) := by
  simp [Host.shown, Host.publish]

theorem setStore_books (s : Host Change Index Row) (i : ℕ) (st : Store Index) :
    (s.setStore i st).books Q i = ⟨st.index, s.shown Q⟩ := by
  rw [Host.books, storeOf_setStore]
  unfold Host.setStore
  split <;> rfl

theorem establish_books (s : Host Change Index Row) (i : ℕ) (r : Resource) : (s.establish i r).books Q i = s.books Q i := by
  unfold Host.establish
  split <;> rfl

theorem remove_books (s : Host Change Index Row) (i : ℕ) (r : Resource) : (s.remove i r).books Q i = s.books Q i := by
  unfold Host.remove
  split <;> rfl

theorem setWorker_books (s : Host Change Index Row) (i : ℕ) {w : Worker Change Index Row} (hspec : w.spec = (s.worker i).spec)
    (hmem : w.memory = (s.worker i).memory) : (s.setWorker i w).books Q i = s.books Q i := by
  rw [Host.books, storeOf_setWorker s i i hspec hmem]
  rfl

theorem exec_books (i : ℕ) (s : Host Change Index Row) (e : Effect Change Row) :
    (exec Q i s e).books Q i = (s.books Q i).apply Q (s.worker i).spec.isVolatile e := by
  cases e with
  | setState _ | ack => rfl
  | newIndex =>
    simp only [exec, Host.books, Host.storeOf, setWorker_self, Books.apply]
    split <;> rfl
  | newSequence | increment | takeCommand | drop => exact setWorker_books Q s i rfl rfl
  | publishChange results accepted =>
    simp only [exec, Host.books, publish_shown]
    cases accepted <;> rfl
  | publishControl signal accepted =>
    simp only [exec, Host.books, publish_shown]
    cases accepted <;> cases signal <;> rfl
  | clearIndex | bootstrapped => exact setStore_books Q s i _
  | process change => exact (establish_books Q _ i _).trans (setStore_books Q s i _)
  | subscribe source => exact establish_books Q s i _
  | openStream => exact establish_books Q s i _
  | deleteIndex => exact (remove_books Q _ i _).trans (setStore_books Q s i _)
  | deleteConsumer pending => exact remove_books Q _ i _
  | unsubscribe source => exact remove_books Q s i _

theorem foldl_exec_books (i : ℕ) (s : Host Change Index Row) (es : List (Effect Change Row)) :
    (es.foldl (exec Q i) s).books Q i = es.foldl (Books.apply Q (s.worker i).spec.isVolatile) (s.books Q i) := by
  induction es generalizing s with
  | nil => rfl
  | cons e es ih => rw [List.foldl_cons, ih, exec_books, (exec_worker Q s i i e).2, List.foldl_cons]

/-! ## Where a worker is -/

/-- what holds of the books where a worker is: they agree, or differ by the results that are to be published next -/
def Balanced (b : Books Index Row) : Pc Change Row → Prop
  | .bootstrapClear => b.shown = Q.rows Q.empty
  | .subscribe _ | .initialData _ | .bootstrapProcess _ _ | .bootstrapCompleted => Q.rows b.index = b.shown
  | .setRunning | .openStream | .publishRunning => Q.rows b.index = b.shown
  | .main | .processChange _ | .ack | .publishStopped => Q.rows b.index = b.shown
  | .bootstrapPublish _ results | .publishResults results => Q.rows b.index = results.apply b.shown
  | .deleteIndexes | .deleteConsumer | .deleteSubscriptions _ | .publishDeleted | .deprovisionView => False
  | _ => True

/-- the parts of a worker's program -/
inductive Region where
  | starting
  | bootstrapping
  | running
  | publishing
  | deleting
  | done
deriving DecidableEq

def Pc.region : Pc Change Row → Region
  | .build | .tryBuild | .connect | .configureView | .checkVolatile | .newSequence | .decideBootstrap => .starting
  | .clearIndexes | .bootstrapStarted | .bootstrapClear | .subscribe _ | .initialData _ => .bootstrapping
  | .bootstrapProcess _ _ | .bootstrapPublish _ _ | .bootstrapCompleted => .bootstrapping
  | .setRunning | .openStream | .publishRunning => .running
  | .main | .processChange _ | .ack | .publishStopped => .running
  | .publishResults _ => .publishing
  | .deleteIndexes | .deleteConsumer | .deleteSubscriptions _ | .publishDeleted | .deprovisionView => .deleting
  | .finished => .done

/-- the condition on a step of a worker: what it publishes is accepted, and a bootstrap starts from nothing -/
def delivers (v : View Change Index) (shown : Finset Row) : Pc Change Row → Event Change → Bool
  | .publishResults _, .fail _ | .publishResults _, .rejected => false
  | .bootstrapPublish _ _, .rejected => false
  | .bootstrapStarted, .rejected => shown = Q.rows Q.empty
  | .bootstrapClear, .fail _ => Q.rows v.index = Q.rows Q.empty
  | _, _ => true

/-- the bootstrap is skipped -/
def skips (v : View Change Index) : Pc Change Row → Bool
  | .decideBootstrap => !v.state.early
  | _ => false

section Table

variable {Q} {spec : QuerySpec} {v : View Change Index} {pc pc' : Pc Change Row} {event : Event Change}
  {es : List (Effect Change Row)} {shown : Finset Row}

theorem balanced_nextSource (b : Books Index Row) (sources : List String) :
    Balanced Q b (nextSource sources : Pc Change Row) ↔ Q.rows b.index = b.shown := by
  cases sources <;> rfl

/-- the results of a change bring the topic to the new result set -/
theorem apply_results {old new : Index} (h : Q.rows old = shown) :
    Q.rows new = (Diff.between (Q.rows old) (Q.rows new)).apply shown := by
  rw [← h, Diff.apply_between]

theorem startup_balanced (h : startup Q spec v pc event = some (pc', es)) (hb : Balanced Q ⟨v.index, shown⟩ pc)
    (hd : delivers Q v shown pc event = true) (hskip : skips v pc = true → Q.rows v.index = shown) :
    Balanced Q (es.foldl (Books.apply Q spec.isVolatile) ⟨v.index, shown⟩) pc' := by
  unfold startup at h
  split at h
  case h_9 => cases h; trivial
  -- the decision on the bootstrap
  case h_12 =>
    split at h
    · cases h; trivial
    · cases h; trivial
    · cases h; trivial
    · rename_i hc hb _
      cases h
      exact hskip (by cases hs : v.state <;> simp_all [skips, QueryState.early])
  -- the bootstrap starts from nothing
  case h_16 =>
    cases h
    have hshown : shown = Q.rows Q.empty := by simpa [delivers] using hd
    exact hshown
  case h_18 => cases h; exact (balanced_nextSource ..).2 hb.symm
  case h_19 =>
    cases h
    have hempty : Q.rows v.index = Q.rows Q.empty := by simpa [delivers] using hd
    exact (balanced_nextSource ..).2 (hempty.trans hb.symm)
  case h_24 => cases h; exact (balanced_nextSource ..).2 hb
  -- an element is processed, and its results are published
  case h_26 => cases h; exact apply_results hb
  all_goals cases h
  all_goals trivial

theorem mainLoop_balanced (h : mainLoop Q spec v pc event = some (pc', es)) (hb : Balanced Q ⟨v.index, shown⟩ pc)
    (hcommand : v.command ≠ some (some .delete)) (hd : delivers Q v shown pc event = true) :
    Balanced Q (es.foldl (Books.apply Q spec.isVolatile) ⟨v.index, shown⟩) pc' := by
  unfold mainLoop at h
  split at h
  case h_1 =>
    split at h
    all_goals cases h
    · exact hb
    · rename_i hc; exact absurd hc hcommand
    · trivial
    · exact hb
  case h_3 =>
    split at h
    · split at h <;> cases h <;> exact hb
    · cases h
  -- a change is processed: its results are published, unless there are none
  case h_4 =>
    split at h
    · rename_i change hconv
      simp only at h
      split at h
      · rename_i hempty
        cases h
        exact ((Diff.isEmpty_between _ _).1 hempty).symm.trans hb
      · cases h; exact apply_results hb
    · cases h; exact hb
  all_goals cases h
  all_goals trivial

/-- **Every step of the program** keeps the books, if what it publishes is accepted. -/
theorem next_balanced (h : next Q spec v pc event = some (pc', es)) (hb : Balanced Q ⟨v.index, shown⟩ pc)
    (hcommand : v.command ≠ some (some .delete)) (hd : delivers Q v shown pc event = true)
    (hskip : skips v pc = true → Q.rows v.index = shown) :
    Balanced Q (es.foldl (Books.apply Q spec.isVolatile) ⟨v.index, shown⟩) pc' := by
  cases hs : pc.inStartup with
  | true =>
    rw [next_of_inStartup hs] at h
    exact startup_balanced h hb hd hskip
  | false =>
    rw [next_of_not_inStartup hs] at h
    exact mainLoop_balanced h hb hcommand hd

/-- where a step leads: into a part of the program in which the books are kept, or to its end without touching them, or out
of a bootstrap that leaves no state behind it -/
theorem next_region (h : next Q spec v pc event = some (pc', es)) (hregion : pc.region ≠ .deleting)
    (hcommand : v.command ≠ some (some .delete)) :
    (pc'.region = .bootstrapping ∨ pc'.region = .running ∨ pc'.region = .publishing) ∨
    ((pc.region = .starting ∨ pc.region = .running) ∧ (∀ b, es.foldl (Books.apply Q false) b = b) ∧
      ∀ q, writes es = some q → q.late = true → failsTransiently pc event = true) ∨
    (pc.region = .bootstrapping ∧ ∀ q, writes es = some q → q.late = false) := by
  have hsource : ∀ sources : List String, (nextSource sources : Pc Change Row).region = .bootstrapping := fun sources => by
    cases sources <;> rfl
  have hleft : ∀ err, ∀ q, writes (leave (.terminalError err) : Pc Change Row × List (Effect Change Row)).2 = some q →
      q.late = false := by
    intro err q hq
    cases hq
    rfl
  cases hs : pc.inStartup with
  | true =>
    rw [next_of_inStartup hs] at h
    unfold startup at h
    split at h
    case h_9 =>
      cases h
      refine .inr (.inl ⟨.inl rfl, fun b => by split <;> rfl, fun q hq hl => ?_⟩)
      split at hq <;> cases hq
      cases hl
    case h_12 =>
      split at h
      · cases h; exact .inl (.inl rfl)
      · cases h; exact .inl (.inl rfl)
      · cases h; exact .inr (.inl ⟨.inl rfl, fun b => rfl, fun q hq => by cases hq⟩)
      · cases h; exact .inl (.inr (.inl rfl))
    all_goals cases h
    all_goals first
      | exact .inl (.inl rfl)
      | exact .inl (.inl (hsource _))
      | exact .inl (.inr (.inl rfl))
      | exact .inr (.inl ⟨.inl rfl, fun b => rfl, fun _ _ _ => rfl⟩)
      | exact .inr (.inl ⟨.inl rfl, fun b => rfl, fun q hq hl => by cases hq <;> cases hl⟩)
      | exact .inr (.inl ⟨.inr rfl, fun b => rfl, fun _ _ _ => rfl⟩)
      | exact .inr (.inr ⟨rfl, hleft _⟩)
  | false =>
    rw [next_of_not_inStartup hs] at h
    unfold mainLoop at h
    split at h
    case h_1 =>
      split at h
      all_goals cases h
      · exact .inl (.inr (.inl rfl))
      · rename_i hc; exact absurd hc hcommand
      · exact .inr (.inl ⟨.inr rfl, fun b => rfl, fun q hq => by cases hq⟩)
      · exact .inl (.inr (.inl rfl))
    case h_3 =>
      split at h
      · split at h <;> cases h <;> exact .inl (.inr (.inl rfl))
      · cases h
    case h_4 =>
      split at h
      · simp only at h
        split at h
        · cases h; exact .inl (.inr (.inl rfl))
        · cases h; exact .inl (.inr (.inr rfl))
      · cases h; exact .inl (.inr (.inl rfl))
    all_goals cases h
    all_goals first
      | exact .inl (.inr (.inl rfl))
      | exact .inr (.inl ⟨.inr rfl, fun b => rfl, fun q hq => by cases hq⟩)
      | exact absurd rfl hregion

end Table

/-! ## The invariant of the host -/

/-- no worker waits for its results to be published -/
def Host.settled (s : Host Change Index Row) : Prop := ∀ i, (s.worker i).pc.region ≠ .publishing

structure DiffInv (s : Host Change Index Row) : Prop where
  /-- behind the bootstrap, a persistent index has the result set that the topic shows -/
  late : ∀ q ∈ s.marks, q.late = true → ∀ spec, s.saved.config = some spec → spec.isVolatile = false → s.settled →
    Q.rows s.store.index = s.shown Q
  balanced : ∀ i, Balanced Q (s.books Q i) (s.worker i).pc

/-- the condition on a step -/
def Delivers (s : Host Change Index Row) (op : Op Change) : Prop :=
  FailsLate s op ∧
    match op with
    | .worker i event => delivers Q (s.view i) (s.shown Q) (s.worker i).pc event = true
    | .crash => ∀ i < s.count, (s.worker i).pc.region ≠ .publishing
    | _ => True

theorem init_diffs : DiffInv Q (.init Q) where
  late q hq hl := by
    simp only [Host.marks, Host.init, Actor.inactive, Option.toList_none, List.append_nil, List.mem_singleton] at hq
    subst hq
    cases hl
  balanced i := trivial


/-! ### A step of a worker -/

section WorkerStep

variable {Q} {s : Host Change Index Row}

theorem balanced_running {b : Books Index Row} {pc : Pc Change Row} (h : Balanced Q b pc) (hr : pc.region = .running) :
    Q.rows b.index = b.shown := by
  cases pc <;> first | exact h | cases hr

theorem balanced_deleting {b : Books Index Row} {pc : Pc Change Row} (h : Balanced Q b pc) : pc.region ≠ .deleting := by
  intro hr
  cases pc <;> first | exact h | cases hr

omit [DecidableEq Row] in
theorem place_bootstrapping {state : QueryState} {isVolatile filled : Bool} {pc : Pc Change Row}
    (h : Place state isVolatile filled pc) (hr : pc.region = .bootstrapping) : state = .bootstrapping := by
  cases pc <;> first | exact h | cases hr

omit [DecidableEq Row] in
/-- a worker at work elsewhere is the only one at work -/
theorem Provisioned.settled (hp : Provisioned s) {i : ℕ} (hi : (s.worker i).isFinished = false)
    (hr : (s.worker i).pc.region ≠ .publishing) : s.settled := by
  intro j hj
  have hun : (s.worker j).isFinished = false := by
    by_contra hfin
    rw [Bool.not_eq_false, isFinished_iff] at hfin
    rw [hfin] at hj
    cases hj
  rw [hp.only hi hun] at hj
  exact hr hj

omit [DecidableEq Row] in
theorem storeOf_persistent {i : ℕ} (hv : (s.worker i).spec.isVolatile = false) : s.storeOf i = s.store := by
  simp [Host.storeOf, hv]

/-- a worker at work that can rely on a state behind the bootstrap has books that agree -/
theorem DiffInv.agrees (hp : Provisioned s) (h : DiffInv Q s) {i : ℕ} (hi : (s.worker i).isFinished = false)
    (hr : (s.worker i).pc.region ≠ .publishing) (hv : (s.worker i).spec.isVolatile = false) {q : QueryState}
    (hq : q ∈ s.marks) (hl : q.late = true) : Q.rows (s.storeOf i).index = s.shown Q := by
  rw [storeOf_persistent hv]
  exact h.late q hq hl _ (hp.spec hi) hv (hp.settled hi hr)

/-- a worker that skips the bootstrap does so on an index that has what the topic shows -/
theorem DiffInv.skips (hp : Provisioned s) (hboot : BootInv s) (h : DiffInv Q s) {i : ℕ}
    (hi : (s.worker i).isFinished = false) (hskip : skips (s.view i) (s.worker i).pc = true) :
    Q.rows (s.storeOf i).index = s.shown Q := by
  have hplace := hboot.place i hi
  cases hpc : (s.worker i).pc with
  | decideBootstrap =>
    rw [hpc] at hskip hplace
    have hl : s.actor.state.late = true := by
      rcases hplace.1 with he | hl
      · simp only [QueryHost.skips, Bool.not_eq_true'] at hskip
        rw [show s.actor.state.early = false from hskip] at he
        cases he
      · exact hl
    have hv : (s.worker i).spec.isVolatile = false := by
      cases hvol : (s.worker i).spec.isVolatile with
      | false => rfl
      | true => exact absurd ((hboot.backed hp hi List.mem_cons_self hl).1 hvol) (hplace.2 hvol)
    exact h.agrees hp hi (by rw [hpc]; simp [Pc.region]) hv List.mem_cons_self hl
  | _ => rw [hpc] at hskip; cases hskip

variable (Q) in
/-- **A step of a worker** keeps the invariant. -/
theorem DiffInv.worker (hp : Provisioned s) (hboot : BootInv s) (h : DiffInv Q s) (i : ℕ) (event : Event Change)
    (hok : Delivers Q s (.worker i event)) : DiffInv Q (workerStep Q s i event) := by
  have hboot' := hboot.worker Q hp i event hok.1
  obtain ⟨-, heq⟩ | ⟨pc, es, hn, heq, hpc, hother, hspec, hsaved, -⟩ := workerStep_cases Q s i event
  · rw [heq]; exact h
  have hun : (s.worker i).isFinished = false := unfinished_of_next Q hn
  have hbooks : (workerStep Q s i event).books Q i =
      es.foldl (Books.apply Q (s.worker i).spec.isVolatile) (s.books Q i) := by
    rw [heq, foldl_exec_books, goto_spec]
    congr 1
    exact setWorker_books Q s i rfl rfl
  have hbalanced : ∀ j, Balanced Q ((workerStep Q s i event).books Q j) ((workerStep Q s i event).worker j).pc := by
    intro j
    by_cases hji : j = i
    · subst hji
      rw [hpc, hbooks]
      exact next_balanced hn (h.balanced j) (hp.view_command j) hok.2 (h.skips hp hboot hun)
    · rw [hother j hji]
      have hfin : (s.worker j).isFinished = true := by
        by_contra hj
        exact hji (hp.only hun (by simpa using hj))
      rw [isFinished_iff.1 hfin]
      trivial
  refine ⟨fun q hq hl spec hconfig hv hsettled => ?_, hbalanced⟩
  obtain rfl : (s.worker i).spec = spec := by simpa [hsaved, hp.spec hun] using hconfig
  have hstore : (workerStep Q s i event).storeOf i = (workerStep Q s i event).store :=
    storeOf_persistent (by rw [hspec]; exact hv)
  rw [← hstore]
  have hactor : (workerStep Q s i event).actor = s.actor.write (writes es) := by rw [heq, foldl_exec_writes, goto_actor]
  obtain (hr | hr | hr) | ⟨hr, hsame, hfails⟩ | ⟨hr, hearly⟩ := next_region hn (balanced_deleting (h.balanced i)) (hp.view_command i)
  · -- in the bootstrap nothing tells of an earlier one
    have hun' : ((workerStep Q s i event).worker i).isFinished = false := by
      by_contra hfin
      rw [Bool.not_eq_false, isFinished_iff, hpc] at hfin
      rw [hfin] at hr
      cases hr
    have hstate := place_bootstrapping (hboot'.place i hun') (by rw [hpc]; exact hr)
    have hnone := hboot'.early (by rw [hstate]; rfl) _ hconfig hv q hq
    rw [hnone] at hl
    cases hl
  · exact balanced_running (hbalanced i) (by rw [hpc]; exact hr)
  · exact absurd (by rw [hpc]; exact hr) (hsettled i)
  · -- the books are not touched, and agreed before
    have hkept : (workerStep Q s i event).books Q i = s.books Q i := by rw [hbooks, hv]; exact hsame _
    have hbefore : Q.rows (s.storeOf i).index = s.shown Q := by
      rcases hr with hr | hr
      · have hne : (s.worker i).pc.region ≠ .publishing := by rw [hr]; simp
        rcases marks_writes hq hactor hsaved with hq | hw
        · exact h.agrees hp hun hne hv hq hl
        · exact h.agrees hp hun hne hv List.mem_cons_self (hok.1 (hfails q hw hl)).2
      · exact balanced_running (h.balanced i) hr
    have := congrArg (fun b => Q.rows b.index = b.shown) hkept
    exact this.mpr hbefore
  · rcases marks_writes hq hactor hsaved with hq | hw
    · have hstate := place_bootstrapping (hboot.place i hun) hr
      rw [hboot.early (by rw [hstate]; rfl) _ (hp.spec hun) hv q hq] at hl
      cases hl
    · rw [hearly q hw] at hl
      cases hl

end WorkerStep

/-! ### Every step -/

/-- a step that is not a worker's, from what it does to the lifecycle, to the indexes and to the workers -/
theorem DiffInv.of_lifecycle {s s' : Host Change Index Row} (hp : Provisioned s) (h : DiffInv Q s) (hl : Lifecycle s s')
    (hindex : s'.store.index = s.store.index) (htopic : s'.topic = s.topic) (hsettled : s'.settled → s.settled)
    (hworker : ∀ j, (s'.worker j).pc = (s.worker j).pc ∧ (s'.storeOf j).index = (s.storeOf j).index ∨
      (s'.worker j).pc.region = .starting ∨ (s'.worker j).pc = .finished) : DiffInv Q s' := by
  have hshown : s'.shown Q = s.shown Q := by rw [Host.shown, htopic]; rfl
  refine ⟨fun q hq hlate spec hspec hv hset => ?_, fun j => ?_⟩
  · have hq' := hl.marks q hq hlate
    rw [hindex, hshown]
    rcases hl.config with hc | hc
    · exact h.late q hq' hlate spec (hc ▸ hspec) hv (hsettled hset)
    · exact absurd hc (hp.late q hq' hlate)
  · rcases hworker j with ⟨hpc, hof⟩ | hr | hfin
    · have hbooks : s'.books Q j = s.books Q j := by simp only [Host.books, hof, hshown]
      rw [hpc, hbooks]
      exact h.balanced j
    · cases hpc : (s'.worker j).pc <;> rw [hpc] at hr <;> trivial
    · rw [hfin]
      trivial

/-- **One step** keeps the invariant. -/
theorem step_diffs (s : Host Change Index Row) (op : Op Change) (hp : Provisioned s) (hboot : BootInv s) (h : DiffInv Q s)
    (hop : op.provisioned = true) (hok : Delivers Q s op) : DiffInv Q (step Q s op) := by
  cases hw : op.isWorker with
  | true =>
    cases op with
    | worker i event => exact h.worker Q hp hboot i event hok
    | _ => cases hw
  | false =>
    have hl := (step_provisioned Q s op hp hop).2 hw
    cases hactor : op.isActor with
    | true =>
      obtain ⟨hun, hmoved | ⟨-, spec, hst⟩⟩ := step_actor Q s op hactor
      · have hcore := hmoved.workers
        refine h.of_lifecycle Q hp hl (by rw [hun.store]) hun.topic (fun hset j => ?_) fun j => .inl ⟨hmoved.pc j, ?_⟩
        · rw [← hmoved.pc]; exact hset j
        · have hspec : ((step Q s op).worker j).spec = (s.worker j).spec := congrArg (·.spec) (hcore j)
          have hmemory : ((step Q s op).worker j).memory = (s.worker j).memory := congrArg (·.memory) (hcore j)
          simp only [Host.storeOf, hun.store, hspec, hmemory]
      · refine h.of_lifecycle Q hp hl (by rw [hun.store]) hun.topic (fun hset j => ?_) fun j => ?_
        · by_cases hj : j = s.count
          · subst hj; rw [hp.beyond _ le_rfl]; simp [Pc.region]
          · rw [← hst.others j hj]; exact hset j
        · by_cases hj : j = s.count
          · subst hj; exact .inr (.inl (by rw [hst.fresh]; rfl))
          · have hsame := hst.others j hj
            exact .inl ⟨by rw [hsame], by simp only [Host.storeOf, hun.store, hsame]⟩
    | false =>
      cases op with
      | persistRead i =>
        have hpc : ∀ j, ((step Q s (.persistRead i)).worker j).pc = (s.worker j).pc := fun j => setWorker_map (·.pc) s i j rfl
        refine h.of_lifecycle Q hp hl rfl rfl (fun hset j => ?_) fun j => .inl ⟨hpc j, ?_⟩
        · rw [← hpc]; exact hset j
        · have hstore : (step Q s (.persistRead i)).storeOf j = s.storeOf j := storeOf_setWorker s i j rfl rfl
          rw [hstore]
      | persistWrite i ok =>
        obtain ⟨⟨sequence, hstore⟩, -⟩ := persistWrite_store s i ok i
        have hpc : ∀ j, ((step Q s (.persistWrite i ok)).worker j).pc = (s.worker j).pc := fun j =>
          (persistWrite_frame s i ok j).1
        refine h.of_lifecycle Q hp hl (by simp only [step, hstore]) (persistWrite_rest s i ok).1 (fun hset j => ?_)
          fun j => .inl ⟨hpc j, ?_⟩
        · rw [← hpc]; exact hset j
        · obtain ⟨-, sequence', hof⟩ := persistWrite_store s i ok j
          simp only [step, hof]
      | crash =>
        refine h.of_lifecycle Q hp hl rfl rfl (fun _ j => ?_) fun j => .inr (.inr rfl)
        rcases lt_or_ge j s.count with hj | hj
        · exact hok.2 j hj
        · rw [hp.beyond j hj]; simp [Pc.region]
      | worker _ _ => cases hw
      | _ => cases hactor

/-- **A run** from the start. -/
theorem run_diffs (ops : List (Op Change)) (hops : ∀ op ∈ ops, op.provisioned = true)
    (hm : Run.Meets (step Q) (Delivers Q) (.init Q) ops) : DiffInv Q (Run.run (step Q) (.init Q) ops) := by
  have hstep : ∀ s, ∀ op ∈ ops, (Provisioned s ∧ BootInv s) ∧ DiffInv Q s → Delivers Q s op →
      (Provisioned (step Q s op) ∧ BootInv (step Q s op)) ∧ DiffInv Q (step Q s op) := by
    rintro s op hop ⟨⟨hp, hboot⟩, h⟩ hok
    have hprovisioned := hops op hop
    exact ⟨⟨(step_provisioned Q s op hp hprovisioned).1, step_bootstrapped Q s op hp hboot hprovisioned hok.1⟩,
      step_diffs Q s op hp hboot h hprovisioned hok⟩
  exact (hm.inv hstep ⟨⟨init_provisioned Q, init_bootInv Q⟩, init_diffs Q⟩).2

/-! ## Acknowledgements -/

omit [DecidableEq Row] in
theorem foldl_exec_acked (i : ℕ) (s : Host Change Index Row) (es : List (Effect Change Row)) (h : .ack ∉ es) :
    (es.foldl (exec Q i) s).stream.acked = s.stream.acked := by
  have hstore : ∀ (s : Host Change Index Row) st, (s.setStore i st).stream = s.stream := by
    intro s st
    unfold Host.setStore
    split <;> rfl
  have hestablish : ∀ (s : Host Change Index Row) r, (s.establish i r).stream = s.stream := by
    intro s r
    unfold Host.establish
    split <;> rfl
  have hremove : ∀ (s : Host Change Index Row) r, (s.remove i r).stream = s.stream := by
    intro s r
    unfold Host.remove
    split <;> rfl
  induction es generalizing s with
  | nil => rfl
  | cons e es ih =>
    rw [List.foldl_cons, ih _ fun hmem => h (List.mem_cons_of_mem e hmem)]
    cases e with
    | ack => exact absurd List.mem_cons_self h
    | _ => simp [exec, hstore, hestablish, hremove, Host.setWorker, Host.publish]

/-- only the end of a turn of the main loop acknowledges -/
theorem next_acks {Q : ContinuousQuery Change Index Row} {spec : QuerySpec} {v : View Change Index} {pc pc' : Pc Change Row}
    {event : Event Change} {es : List (Effect Change Row)} (h : next Q spec v pc event = some (pc', es)) (hack : .ack ∈ es) :
    pc' = .main := by
  cases hs : pc.inStartup with
  | true =>
    rw [next_of_inStartup hs] at h
    unfold startup at h
    split at h
    case h_9 => cases h; split at hack <;> simp at hack
    case h_12 => split at h <;> cases h <;> simp at hack
    all_goals cases h
    all_goals simp [control] at hack
  | false =>
    rw [next_of_not_inStartup hs] at h
    unfold mainLoop at h
    split at h
    case h_1 => split at h <;> cases h <;> simp at hack
    case h_3 =>
      split at h
      · split at h <;> cases h <;> simp at hack
      · cases h
    case h_4 =>
      split at h
      · simp only at h
        split at h <;> cases h <;> simp at hack
      · cases h; simp at hack
    all_goals cases h
    all_goals first | rfl | simp [control] at hack

/-- **A change is acknowledged** by a worker that is then between two changes. -/
theorem step_acks (s : Host Change Index Row) (op : Op Change) (h : (step Q s op).stream.acked ≠ s.stream.acked) :
    ∃ i, ((step Q s op).worker i).pc = .main := by
  cases hactor : op.isActor with
  | true => exact absurd (step_actor Q s op hactor).1.acked h
  | false =>
    cases op with
    | worker i event =>
      obtain ⟨-, heq⟩ | ⟨pc, es, hn, heq, hpc, -⟩ := workerStep_cases Q s i event
      · exact absurd (by simp only [step, heq]) h
      · refine ⟨i, hpc.trans (next_acks hn ?_)⟩
        by_contra hack
        exact h (by simp only [step]; rw [heq]; exact foldl_exec_acked Q i _ es hack)
    | persistRead i => exact absurd rfl h
    | persistWrite i ok => exact absurd (by simp only [step, (persistWrite_rest s i ok).2.1]) h
    | crash => exact absurd rfl h
    | _ => cases hactor

/-! ## No diff is lost -/

/-- **No diff is lost.** In every run between configure and deprovision whose steps all meet the condition: after a step that
acknowledges a change, the fold of the events the results topic has accepted is the result set of the query. -/
theorem diffs_published (ops : List (Op Change)) (op : Op Change) (hops : ∀ o ∈ ops ++ [op], o.provisioned = true)
    (hm : Run.Meets (step Q) (Delivers Q) (.init Q) (ops ++ [op]))
    (hack : (Run.run (step Q) (.init Q) (ops ++ [op])).stream.acked ≠ (Run.run (step Q) (.init Q) ops).stream.acked) :
    ∃ i, ((Run.run (step Q) (.init Q) (ops ++ [op])).worker i).pc = .main ∧
      (Run.run (step Q) (.init Q) (ops ++ [op])).shown Q =
        Q.rows ((Run.run (step Q) (.init Q) (ops ++ [op])).storeOf i).index := by
  have hdiffs := run_diffs Q (ops ++ [op]) hops hm
  rw [Run.run_append, Run.run_cons, Run.run_nil] at hack hdiffs ⊢
  obtain ⟨i, hi⟩ := step_acks Q _ op hack
  have hbalanced := hdiffs.balanced i
  rw [hi] at hbalanced
  exact ⟨i, hi, hbalanced.symm⟩

instance (s : Host Change Index Row) (op : Op Change) : Decidable (Delivers Q s op) :=
  match op with
  | .worker _ _ => inferInstanceAs (Decidable (_ ∧ _))
  | .crash => inferInstanceAs (Decidable (_ ∧ _))
  | .turn _ | .arrive _ | .persistRead _ | .persistWrite _ _ | .watcherRead | .watcherWrite _ | .activate _
  | .deactivate | .reminder | .configure _ | .deprovision => inferInstanceAs (Decidable (_ ∧ True))

/-- the change 7 arrives at a running query, and is processed -/
def processed : List (Op ℕ) :=
  configured false ++ (succeed 0 14 ++ [.arrive ⟨true, .ok 7⟩, .worker 0 .message, .worker 0 .ok])

/-- its results are published, the acknowledgement fails, and the change is delivered again to a second worker -/
def redelivered : List (Op ℕ) :=
  processed ++ ([.worker 0 .ok, .worker 0 (.fail "redis"), .worker 0 (.fail "poll"), .worker 0 .ok, .reminder] ++
    (succeed 1 10 ++ [.worker 1 .message, .worker 1 .ok]))

theorem diffs_published_redelivered :
    ∃ i, ((Run.run (step collect) (.init collect) (redelivered ++ [.worker 1 .ok])).worker i).pc = .main ∧
      (Run.run (step collect) (.init collect) (redelivered ++ [.worker 1 .ok])).shown collect =
        collect.rows ((Run.run (step collect) (.init collect) (redelivered ++ [.worker 1 .ok])).storeOf i).index := by
  refine diffs_published collect redelivered (.worker 1 .ok) ?_ ?_ ?_
  all_goals decide

/-- publishing the results fails, and the change is delivered again to a second worker -/
def unpublished : List (Op ℕ) :=
  processed ++ ([.worker 0 (.fail "dapr"), .worker 0 .ok, .reminder] ++ (succeed 1 10 ++ [.worker 1 .message, .worker 1 .ok]))

/-- the second worker acknowledges the change: the result set is {7}, and the topic has accepted nothing of it -/
theorem diff_lost :
    (Run.run (step collect) (.init collect) (unpublished ++ [.worker 1 .ok])).stream.acked = [⟨true, .ok 7⟩] ∧
    (Run.run (step collect) (.init collect) unpublished).stream.acked = [] ∧
    (Run.run (step collect) (.init collect) (unpublished ++ [.worker 1 .ok])).shown collect = ∅ ∧
    collect.rows ((Run.run (step collect) (.init collect) (unpublished ++ [.worker 1 .ok])).storeOf 1).index = {7} := by
  refine ⟨?_, ?_, ?_, ?_⟩
  all_goals decide +kernel

end DrasiPlatform.QueryHost
