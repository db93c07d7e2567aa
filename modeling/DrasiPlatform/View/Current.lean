/-
The current view: does `get_view` without a timestamp answer the rows that are in the result set?

`get_view` shows the documents that are valid at the smaller of the RECORDED time (of the last result or control event) and
the server's clock. A row is valid from the time of the event that brought it. So the view hides rows when an event is
recorded with an earlier time than one before it, or when the server's clock is behind the recorded time; rows that are
gone may come back. This is so for every retention policy.

One list of operations (`ViewOp`) is any run of a view: result events, control events, configurations and garbage
collections. `KeepsCurrent` is the condition on each step: recorded times never go back and stay up to `MAX_TIMESTAMP`, no
event removes a key it has just brought, and a policy is set when a change is recorded (it is forgotten with
`BootstrapStarted`).

- `step_current`: a step that meets the condition keeps the invariant `CurrentInv`.
- `current_view`: after every run of such steps, asked at any time from the recorded one on, the view answers exactly the
  rows of the result set.
Witness: `clock_hides_rows` (a row at 2000, then the signal `Running` stamped 1000; a row at 2000 asked for at 1500).
-/
import Mathlib.Tactic
import DrasiPlatform.Core.Run
import DrasiPlatform.View.Temporal

namespace DrasiPlatform.View

open Run

variable {Row Hash : Type} [DecidableEq Row] [DecidableEq Hash]

/-! ## Model -/

/-- the view store, and the result set of the query that the events describe -/
structure ViewState (Row Hash : Type) where
  store : MongoViewStore Row Hash
  rows : Finset Row

/-- what happens to a view -/
inductive ViewOp (Row : Type) where
  /-- a result event, with the result set it leads to -/
  | change (step : Step Row)
  | control (event : ResultControlEvent)
  /-- a worker starts, or is reconfigured -/
  | configure (policy : RetentionPolicy)
  | collectGarbage (now : UInt64)

def ViewOp.step (H : Hashing Row Hash) (queryId : String) (v : ViewState Row Hash) : ViewOp Row → ViewState Row Hash
  | .change e => ⟨(recordChange H v.store queryId e.event).2, e.result⟩
  | .control event =>
    ⟨handleControl v.store queryId event, if resets event.controlSignal then ∅ else v.rows⟩
  | .configure policy => { v with store := v.store.setRetentionPolicy queryId policy }
  | .collectGarbage now => { v with store := v.store.collectGarbage queryId now }

/-- asked at the time `now`, the view answers exactly the rows of the result set -/
def IsCurrent (v : ViewState Row Hash) (queryId : String) (now : UInt64) : Prop :=
  ∃ header rows, getView v.store queryId none now = .ok (header, rows) ∧ (rows : Multiset Row) = v.rows.val

/-! ## The condition -/

/-- the time is not before the recorded one, and not behind `MAX_TIMESTAMP` -/
def InTime (v : ViewState Row Hash) (queryId : String) (t : UInt64) : Prop :=
  t ≤ maxTime ∧ ∀ m ∈ (v.store.collection queryId).metadata, m.ts ≤ t.toInt64

/-- the epoch of the garbage collection does not overflow -/
def CollectsPast (v : ViewState Row Hash) (queryId : String) (now : UInt64) : Prop :=
  ∀ afterSeconds, v.store.retentionPolicy queryId = some (.expire afterSeconds) →
    now.toInt64 - afterSeconds.toInt64 * 1000 ≤ maxTimestamp

/-- the event describes the change of the result set, between rows with different keys -/
structure Describing (H : Hashing Row Hash) (key : Row → Hash) (S : Finset Row) (e : Step Row) : Prop where
  keyed : KeyedBy H key e.event
  carries : Carries S e.result e.event.touches
  distinct : Set.InjOn key e.result

/-- the condition on a step -/
def KeepsCurrent (H : Hashing Row Hash) (key : Row → Hash) (queryId : String) (v : ViewState Row Hash) : ViewOp Row → Prop
  | .change e => Describing H key v.rows e ∧ UnchainedTouches key e.event.touches ∧
      (v.store.retentionPolicy queryId).isSome ∧ InTime v queryId e.event.sourceTimeMs
  | .control event => resets event.controlSignal = true ∨ InTime v queryId event.sourceTimeMs
  | .configure _ => True
  | .collectGarbage now => CollectsPast v queryId now

/-! ## The invariant -/

/-- the documents are dated with the recorded time; without one there is nothing -/
structure CurrentInv (key : Row → Hash) (queryId : String) (v : ViewState Row Hash) : Prop where
  distinct : Set.InjOn key v.rows
  recorded : ∀ m ∈ (v.store.collection queryId).metadata,
    m.ts ≤ maxTimestamp ∧ Dated key m.ts v.rows (v.store.collection queryId).docs
  unrecorded : (v.store.collection queryId).metadata = none → v.rows = ∅ ∧ (v.store.collection queryId).docs = []

variable {H : Hashing Row Hash} {key : Row → Hash} {queryId : String} {v : ViewState Row Hash}

omit [DecidableEq Row] in
/-- the documents are dated with every time that is in time -/
theorem CurrentInv.dated (h : CurrentInv key queryId v) {t : UInt64} (ht : InTime v queryId t) :
    Dated key t.toInt64 v.rows (v.store.collection queryId).docs := by
  rcases hm : (v.store.collection queryId).metadata with _ | m
  · obtain ⟨hrows, hdocs⟩ := h.unrecorded hm
    rw [hrows, hdocs]
    exact dated_nil key _
  · have hd := (h.recorded m hm).2
    exact ⟨hd.unique, hd.maps, hd.stamped.mono (ht.2 m hm)⟩

omit [DecidableEq Row] in
/-- the invariant of a state whose recorded time is `t` -/
theorem CurrentInv.of_dated {t : UInt64} (ht : t ≤ maxTime) {seq : Int64} {state : Option String}
    (hm : (v.store.collection queryId).metadata = some ⟨seq, t.toInt64, state⟩) (hS : Set.InjOn key v.rows)
    (hd : Dated key t.toInt64 v.rows (v.store.collection queryId).docs) : CurrentInv key queryId v := by
  refine ⟨hS, ?_, ?_⟩
  · intro m hm'
    rw [hm, Option.mem_def, Option.some.injEq] at hm'
    subst hm'
    exact ⟨toInt64_le_max ht, hd⟩
  · intro hnone
    rw [hm] at hnone
    cases hnone

theorem change_current {e : Step Row} (h : CurrentInv key queryId v) (hok : KeepsCurrent H key queryId v (.change e)) :
    CurrentInv key queryId ((ViewOp.change e).step H queryId v) := by
  obtain ⟨hdesc, hun, hpol, htime⟩ := hok
  obtain ⟨policy, hpol⟩ := Option.isSome_iff_exists.1 hpol
  have hcol : (recordChange H v.store queryId e.event).2.collection queryId =
      recordEvent H policy (v.store.collection queryId) e := by simp [recordChange, hpol, recordEvent]
  obtain ⟨state, hmeta⟩ := recordEvent_metadata H policy (v.store.collection queryId) e
  refine CurrentInv.of_dated (t := e.event.sourceTimeMs) htime.1 (hcol ▸ hmeta) hdesc.distinct ?_
  have hdocs : ((ViewOp.change e).step H queryId v).store.collection queryId =
      recordEvent H policy (v.store.collection queryId) e := hcol
  rw [hdocs, recordEvent_docs hdesc.keyed]
  exact touches_dated htime.1 (Int64.le_refl _) policy h.distinct hdesc.distinct hdesc.carries hun (h.dated htime)

theorem control_current {event : ResultControlEvent} (h : CurrentInv key queryId v)
    (hok : KeepsCurrent H key queryId v (.control event)) :
    CurrentInv key queryId ((ViewOp.control event).step H queryId v) := by
  by_cases hr : resets event.controlSignal = true
  · -- the view is dropped, and the result set is empty
    have hstore : handleControl v.store queryId event = v.store.deleteView queryId := by
      unfold handleControl
      cases hs : event.controlSignal <;> simp [hs, resets] at hr ⊢
    simp only [ViewOp.step, hstore, hr, if_true]
    refine ⟨by simp, ?_, ?_⟩ <;> simp [MongoViewStore.deleteView]
  · have htime := hok.resolve_left hr
    have hstore : handleControl v.store queryId event =
        v.store.setState queryId event.sequence event.sourceTimeMs event.controlSignal.toString := by
      unfold handleControl
      cases hs : event.controlSignal <;> simp [hs, resets] at hr ⊢
    have hmeta : ((v.store.setState queryId event.sequence event.sourceTimeMs event.controlSignal.toString).collection
        queryId).metadata =
          some ⟨event.sequence.toInt64, event.sourceTimeMs.toInt64, some event.controlSignal.toString⟩ := by
      simp [MongoViewStore.setState]
    simp only [ViewOp.step, hstore, hr]
    refine CurrentInv.of_dated (t := event.sourceTimeMs) htime.1 hmeta h.distinct ?_
    simpa [MongoViewStore.setState] using h.dated htime

omit [DecidableEq Row] in
theorem configure_current (h : CurrentInv key queryId v) (policy : RetentionPolicy) :
    CurrentInv key queryId ((ViewOp.configure policy).step H queryId v) := ⟨h.1, h.2, h.3⟩

omit [DecidableEq Row] in
/-- a filter that keeps every open document keeps the invariant of the documents -/
theorem Dated.filter {T : Int64} {S : Finset Row} {docs : List (ViewDocument Row Hash)} (h : Dated key T S docs)
    {p : ViewDocument Row Hash → Bool} (hp : ∀ d ∈ docs, d.validTo = maxTimestamp → p d = true) :
    Dated key T S (docs.filter p) := by
  have hopen : openDocuments (docs.filter p) = openDocuments docs := by
    unfold openDocuments
    rw [List.filter_filter]
    refine List.filter_congr fun d hd => ?_
    by_cases ho : d.validTo = maxTimestamp
    · simp [ho, hp d hd ho]
    · simp [ho]
  have hrow : openRow (docs.filter p) = openRow docs := by
    funext hash
    rw [openRow_eq, openRow_eq, hopen]
  refine ⟨?_, hrow ▸ h.maps, ?_, ?_, ?_⟩
  · unfold OpenUnique
    rw [hopen]
    exact h.unique
  · intro d hd; exact h.stamped.keyed d (List.mem_of_mem_filter hd)
  · intro d hd; exact h.stamped.began d (List.mem_of_mem_filter hd)
  · intro d hd; exact h.stamped.ended d (List.mem_of_mem_filter hd)

theorem collectGarbage_current {now : UInt64} (h : CurrentInv key queryId v)
    (hok : KeepsCurrent H key queryId v (.collectGarbage now)) :
    CurrentInv key queryId ((ViewOp.collectGarbage now).step H queryId v) := by
  simp only [ViewOp.step, MongoViewStore.collectGarbage]
  split
  · rename_i afterSeconds hpol
    have hepoch := hok afterSeconds hpol
    refine ⟨h.distinct, ?_, ?_⟩
    · simp only [Function.update_self]
      intro m hm
      obtain ⟨hmax, hd⟩ := h.recorded m hm
      refine ⟨hmax, hd.filter fun d _ ho => ?_⟩
      simpa [ho] using hepoch
    · simp only [Function.update_self]
      intro hm
      obtain ⟨hrows, hdocs⟩ := h.unrecorded hm
      exact ⟨hrows, by rw [hdocs]; rfl⟩
  · exact h

theorem step_current {op : ViewOp Row} (h : CurrentInv key queryId v) (hok : KeepsCurrent H key queryId v op) :
    CurrentInv key queryId (op.step H queryId v) := by
  cases op with
  | change e => exact change_current h hok
  | control event => exact control_current h hok
  | configure policy => exact configure_current h policy
  | collectGarbage now => exact collectGarbage_current h hok

theorem run_current {ops : List (ViewOp Row)} (h : CurrentInv key queryId v)
    (hm : Meets (ViewOp.step H queryId) (KeepsCurrent H key queryId) v ops) :
    CurrentInv key queryId (run (ViewOp.step H queryId) v ops) :=
  hm.inv (fun _ _ _ hinv hok => step_current hinv hok) h

/-! ## The current view -/

/-- the view is asked for with a policy set, with something recorded at a time up to the server's clock, and (with the
policy `Expire`) with an expiry that does not overflow -/
def Askable (v : ViewState Row Hash) (queryId : String) (now : UInt64) : Prop :=
  ∃ policy m, v.store.retentionPolicy queryId = some policy ∧ (v.store.collection queryId).metadata = some m ∧
    m.ts ≤ now.toInt64 ∧ expired policy none now = false

/-- an expiry below 2^63 milliseconds never hides the current view -/
theorem expired_now {afterSeconds now : UInt64} (ha : (afterSeconds * 1000).toNat < 2 ^ 63) (hnow : now ≤ maxTime) :
    expired (.expire afterSeconds) none now = false := by
  have hn := toInt_toInt64 hnow
  have hn' : now.toNat ≤ 253402300799999 := UInt64.le_iff_toNat_le.1 hnow
  have hbv : (afterSeconds * 1000).toInt64.toInt = (afterSeconds * 1000).toBitVec.toInt := rfl
  have hnat : (afterSeconds * 1000).toBitVec.toNat = (afterSeconds * 1000).toNat := rfl
  have hx : (afterSeconds * 1000).toInt64.toInt = (afterSeconds * 1000).toNat := by
    rw [hbv, BitVec.toInt_eq_toNat_bmod, hnat, Int.bmod]
    omega
  have hle : (now - afterSeconds * 1000).toInt64 ≤ now.toInt64 := by
    rw [UInt64.toInt64_sub, Int64.le_iff_toInt_le, Int64.toInt_sub, hx, hn, Int.bmod]
    omega
  simp only [expired, Option.getD_none, decide_eq_false_iff_not]
  grind

omit [DecidableEq Row] in
theorem CurrentInv.isCurrent (h : CurrentInv key queryId v) {now : UInt64} (hask : Askable v queryId now) :
    IsCurrent v queryId now := by
  obtain ⟨policy, m, hpol, hm, hnow, hexp⟩ := hask
  obtain ⟨hmax, hd⟩ := h.recorded m hm
  have heff : effectiveAt m none now = m.ts := effectiveAt_now hnow
  refine ⟨m.header, findRows (v.store.collection queryId).docs m.ts, ?_, hd.findRows_eq h.distinct (Int64.le_refl _) hmax⟩
  simp only [getView, hpol, hm, hexp, heff, Bool.false_eq_true, if_false]

/-- a view of which nothing is recorded, of a query without rows -/
structure Blank (v : ViewState Row Hash) (queryId : String) : Prop where
  rows : v.rows = ∅
  docs : (v.store.collection queryId).docs = []
  metadata : (v.store.collection queryId).metadata = none

/-- **The current view.** For every run of result events, control events, configurations and garbage collections, with
every retention policy, whose steps keep the recorded time from going back (and from passing `MAX_TIMESTAMP`), record no
change without a policy and no event that removes a key it has brought: asked at any time from the recorded one on,
`get_view` without a timestamp answers exactly the rows of the result set. -/
theorem current_view (H : Hashing Row Hash) (key : Row → Hash) (queryId : String) (v : ViewState Row Hash)
    (hblank : Blank v queryId) (ops : List (ViewOp Row))
    (hm : Meets (ViewOp.step H queryId) (KeepsCurrent H key queryId) v ops) (now : UInt64)
    (hask : Askable (run (ViewOp.step H queryId) v ops) queryId now) :
    IsCurrent (run (ViewOp.step H queryId) v ops) queryId now := by
  have hstart : CurrentInv key queryId v := by
    refine ⟨by simp [hblank.rows], ?_, fun _ => ⟨hblank.rows, hblank.docs⟩⟩
    intro m hm
    rw [hblank.metadata] at hm
    cases hm
  exact (run_current hstart hm).isCurrent hask

/-! ## Rows that are numbers -/

/-- the view of the query `q` of which nothing is recorded -/
def blankView (policy : RetentionPolicy) : ViewState ℕ ℕ := ⟨emptyView policy, ∅⟩

theorem blankView_blank (policy : RetentionPolicy) : Blank (blankView policy) "q" := ⟨rfl, rfl, rfl⟩

/-- the query runs at 1000, 1 comes at 2000 and becomes 2 at 3000 -/
def steadyOps : List (ViewOp ℕ) :=
  [.control ⟨1, 1000, .running⟩, .change (numberStep 2 2000 [] [] [1] {1}), .change (numberStep 3 3000 [] [(1, 2)] [] {2})]

/-- asked for at 3000, the view with the policy `Latest` answers 2 -/
theorem current_view_steady :
    IsCurrent (run (ViewOp.step numberHashing "q") (blankView .latest) steadyOps) "q" 3000 := by
  refine current_view numberHashing id "q" (blankView .latest) (blankView_blank _) steadyOps ?_ 3000 ?_
  · have hdesc : ∀ (S : Finset ℕ) (e : Step ℕ), Carries S e.result e.event.touches → KeyedBy numberHashing id e.event →
        Describing numberHashing id S e := fun S e hc hk => ⟨hk, hc, Set.injOn_id _⟩
    refine ⟨.inr ⟨by decide, by decide⟩, ⟨?_, ?_, by decide, by decide, by decide⟩, ⟨?_, ?_, by decide, by decide, by decide⟩,
      trivial⟩
    · exact hdesc _ _ ⟨by decide, by decide⟩ (numberStep_keyed _ _ _ _ _ _)
    · unfold UnchainedTouches; decide
    · exact hdesc _ _ ⟨by decide, by decide⟩ (numberStep_keyed _ _ _ _ _ _)
    · unfold UnchainedTouches; decide
  · exact ⟨.latest, _, rfl, rfl, by decide, rfl⟩

/-- **Clocks that disagree hide rows.** A row that came at 2000 is hidden by a `Running` signal stamped 1000, whenever the
view is asked for; and asked for at 1500 by the server's clock, a row that came at 2000 is not shown. -/
theorem clock_hides_rows :
    ¬ IsCurrent (run (ViewOp.step numberHashing "q") (blankView .latest)
        [.change (numberStep 1 2000 [] [] [1] {1}), .control ⟨2, 1000, .running⟩]) "q" 5000 ∧
    ¬ IsCurrent (run (ViewOp.step numberHashing "q") (blankView .latest) [.change (numberStep 1 2000 [] [] [1] {1})])
        "q" 1500 := by
  have hempty : ∀ ops now, (getView (run (ViewOp.step numberHashing "q") (blankView .latest) ops).store "q" none now).map
      Prod.snd = .ok [] → (run (ViewOp.step numberHashing "q") (blankView .latest) ops).rows = {1} →
      ¬ IsCurrent (run (ViewOp.step numberHashing "q") (blankView .latest) ops) "q" now := by
    rintro ops now hview hrows ⟨header, rows, hok, hset⟩
    rw [hok] at hview
    obtain rfl : rows = [] := by simpa [Except.map] using hview
    rw [hrows] at hset
    exact absurd hset (by decide)
  exact ⟨hempty _ _ (by decide) rfl, hempty _ _ (by decide) rfl⟩

end DrasiPlatform.View
