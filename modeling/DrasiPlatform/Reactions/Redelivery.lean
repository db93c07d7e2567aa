/-
Redelivery to the sync-statestore reaction. The events of one query, in sequence order, are delivered by a schedule that
delivers each of them first in order and any of them again at any time; a delivery may fail between the writes to the store
and the update of the sync point.

- `sync_point_grows`, `below_unchanged`: the two sync points are equal in every reachable state and never decrease, and an
  event below them changes nothing.
- `redelivery`: both, and: when after every handling of an event each later event is handled again, the rows in the
  store are those of delivering each event once; the whole store is, when every event is handled once without a failure.
- `resumed_of_stepsUp`: a schedule that delivers only suffixes of the delivered events again is of this kind.
Witness: `lone_redelivery_stays` (an event at the sync point is delivered again after a later event was written but not
acknowledged; the next event moves the sync point, and the event in between is skipped from then on).
-/
import Mathlib.Tactic
import DrasiPlatform.Core.Run
import DrasiPlatform.Reactions.ChangeEventHandler

namespace DrasiPlatform.SyncStateStore

open Run

/-! ## Schedules -/

/-- an event is delivered, and the update of the sync point fails or not -/
structure Delivery where
  index : ℕ
  saved : Bool
deriving DecidableEq, Repr

/-- the writes succeed -/
def Delivery.outcome (d : Delivery) : Outcome := ⟨none, fun _ => .done, d.saved⟩

/-- from `m` delivered events on: an event is delivered after those before it, or again, and at the end all are -/
def DeliveredInOrder (total : ℕ) : ℕ → List Delivery → Prop
  | m, [] => m = total
  | m, d :: ds => d.index < total ∧ d.index ≤ m ∧ DeliveredInOrder total (max m (d.index + 1)) ds

instance decidableDeliveredInOrder (total : ℕ) : (m : ℕ) → (ds : List Delivery) → Decidable (DeliveredInOrder total m ds)
  | m, [] => inferInstanceAs (Decidable (m = total))
  | m, d :: ds =>
    have := decidableDeliveredInOrder total (max m (d.index + 1)) ds
    inferInstanceAs (Decidable (d.index < total ∧ d.index ≤ m ∧ DeliveredInOrder total (max m (d.index + 1)) ds))

/-- each event once -/
def once (total : ℕ) : List Delivery := (List.range total).map fun i => ⟨i, true⟩

/-- from the event `i` on, no delivery goes further than one event past the one before it, and the last one is of the last
event: so it is when only suffixes of the delivered events are delivered again -/
def StepsUp (total : ℕ) : ℕ → List Delivery → Prop
  | i, [] => i + 1 = total
  | i, d :: ds => d.index ≤ i + 1 ∧ StepsUp total d.index ds

instance decidableStepsUp (total : ℕ) : (i : ℕ) → (ds : List Delivery) → Decidable (StepsUp total i ds)
  | i, [] => inferInstanceAs (Decidable (i + 1 = total))
  | i, d :: ds =>
    have := decidableStepsUp total d.index ds
    inferInstanceAs (Decidable (d.index ≤ i + 1 ∧ StepsUp total d.index ds))

section Schedule

variable {Obj : Type} [ToString Obj]
variable (keyField : Option String) (stateStoreName : String) (events : List (ChangeEvent Obj))

/-- the events of one query in sequence order; no write of theirs has the key of the sync point -/
structure Sequenced (queryId : String) : Prop where
  query : ∀ e ∈ events, e.queryId = queryId
  increasing : events.Pairwise fun e e' => e.sequence < e'.sequence
  keys : ∀ e ∈ events, ∀ b, prepare keyField e = .ok b → ∀ w ∈ b.writes, w.1 ≠ getSyncPointKeyForQuery queryId

def redeliver (s : State Obj) (d : Delivery) : State Obj :=
  match events[d.index]? with
  | some e => (handleChange (some ⟨keyField, some stateStoreName⟩) s e d.outcome).1
  | none => s

omit [ToString Obj] in
/-- the event is not below the sync point -/
def handles (s : State Obj) (d : Delivery) : Bool :=
  match events[d.index]? with
  | some e =>
    match s.syncPoints e.queryId with
    | some n => n ≤ e.sequence
    | none => false
  | none => false

/-- the deliveries of a schedule that are not skipped -/
def handledDeliveries : State Obj → List Delivery → List Delivery
  | _, [] => []
  | s, d :: ds =>
    let later := handledDeliveries (redeliver keyField stateStoreName events s d) ds
    if handles events s d then d :: later else later

/-- what the handling of an event writes -/
def writesOf (d : Delivery) : List (String × Option (Entry Obj)) :=
  match events[d.index]? with
  | some e =>
    match prepare keyField e with
    | .ok b => b.writes
    | .error _ => []
  | none => []

/-- every row of the event has a key -/
def Prepared (e : ChangeEvent Obj) : Prop := ∃ b, prepare keyField e = .ok b

/-- both sync points are `n` -/
def SyncAt (queryId : String) (n : Int) (s : State Obj) : Prop :=
  s.syncPoints queryId = some n ∧ s.store (getSyncPointKeyForQuery queryId) = some (.syncPoint n)

/-! ## One delivery -/

variable {keyField stateStoreName events} {queryId : String} {s : State Obj} {n : Int} {d : Delivery} {e : ChangeEvent Obj}

theorem redeliver_of_some (he : events[d.index]? = some e) : redeliver keyField stateStoreName events s d =
    (handleChange (some ⟨keyField, some stateStoreName⟩) s e d.outcome).1 := by
  simp [redeliver, he]

theorem handles_iff (hseq : Sequenced keyField events queryId) (hs : SyncAt queryId n s) :
    handles events s d = true ↔ ∃ e, events[d.index]? = some e ∧ n ≤ e.sequence := by
  cases he : events[d.index]? with
  | none => simp [handles, he]
  | some e =>
    have hcached : s.syncPoints e.queryId = some n := by
      rw [hseq.query e (List.mem_of_getElem? he)]
      exact hs.1
    simp [handles, he, hcached]

/-- a delivery that is not handled changes nothing -/
theorem redeliver_of_not_handles (hseq : Sequenced keyField events queryId) (hs : SyncAt queryId n s)
    (h : handles events s d = false) : redeliver keyField stateStoreName events s d = s := by
  cases he : events[d.index]? with
  | none => simp [redeliver, he]
  | some e =>
    have hlt : e.sequence < n := by
      by_contra hle
      rw [(handles_iff hseq hs).2 ⟨e, he, not_lt.1 hle⟩] at h
      cases h
    have hcached : s.syncPoints e.queryId = some n := by
      rw [hseq.query e (List.mem_of_getElem? he)]
      exact hs.1
    rw [redeliver_of_some he, handleChange_skip hcached hlt]

omit [ToString Obj] in
theorem execute_outcome (s : State Obj) (e : ChangeEvent Obj) (b : Batch Obj) (d : Delivery) :
    (execute s e b d.outcome).1 =
      if d.saved then handled s e b else { s with store := Writes.apply s.store b.writes } := by
  have hexc : d.outcome.exceptions b = 0 := by simp [Outcome.exceptions, Delivery.outcome]
  rw [execute, if_neg (not_not.2 hexc), applied_eq_self hexc]
  cases hsaved : d.saved <;> simp [Delivery.outcome, tryUpdateSyncPoint, hsaved, handled]

variable (stateStoreName) in
/-- a handled delivery writes the event's batch; it moves both sync points, or neither -/
theorem redeliver_of_handled (hseq : Sequenced keyField events queryId) (hs : SyncAt queryId n s)
    (he : events[d.index]? = some e) (hle : n ≤ e.sequence) :
    (∀ k ≠ getSyncPointKeyForQuery queryId, (redeliver keyField stateStoreName events s d).store k =
      Writes.apply s.store (writesOf keyField events d) k) ∧
    (SyncAt queryId e.sequence (redeliver keyField stateStoreName events s d) ∧ Prepared keyField e ∨
      SyncAt queryId n (redeliver keyField stateStoreName events s d) ∧ ¬ (d.saved = true ∧ Prepared keyField e)) := by
  have hmem : e ∈ events := List.mem_of_getElem? he
  have hquery : e.queryId = queryId := hseq.query e hmem
  have hcached : s.syncPoints e.queryId = some n := by rw [hquery]; exact hs.1
  rw [redeliver_of_some he]
  cases hb : prepare keyField e with
  | error err =>
    rw [handleChange_unprepared hcached hle _ hb]
    refine ⟨fun k _ => by simp [writesOf, he, hb, Writes.apply], .inr ⟨hs, ?_⟩⟩
    rintro ⟨-, b, hb'⟩
    cases hb.symm.trans hb'
  | ok b =>
    have hkeys := hseq.keys e hmem b hb
    have hwrites : writesOf keyField events d = b.writes := by simp [writesOf, he, hb]
    rw [handleChange_run hcached hle _ hb, execute_outcome, hwrites]
    cases hsaved : d.saved with
    | true =>
      rw [if_pos rfl]
      refine ⟨fun k hk => handled_store_of_ne (by rw [hquery]; exact hk), .inl ⟨⟨?_, ?_⟩, b, hb⟩⟩
      · rw [← hquery]
        exact Function.update_self _ _ _
      · rw [← hquery]
        exact handled_store_syncPoint s e b
    | false =>
      rw [if_neg Bool.false_ne_true]
      refine ⟨fun k _ => rfl, .inr ⟨⟨hs.1, ?_⟩, fun h => Bool.false_ne_true h.1⟩⟩
      have hlast : Writes.last (getSyncPointKeyForQuery queryId) b.writes = none := (Writes.last_eq_none_iff _ _).2 hkeys
      have hunwritten : Writes.apply s.store b.writes (getSyncPointKeyForQuery queryId) =
          s.store (getSyncPointKeyForQuery queryId) := by
        rw [Writes.apply_eq, hlast]
        rfl
      exact hunwritten.trans hs.2

/-! ## A schedule -/

variable (stateStoreName) in
/-- after any deliveries both sync points are the initial one or the sequence of an event that has been handled, and not
below that of an event whose handling did not fail -/
theorem run_syncPoint (hseq : Sequenced keyField events queryId) (hs : SyncAt queryId n s) (ds : List Delivery) :
    ∃ m, SyncAt queryId m (run (redeliver keyField stateStoreName events) s ds) ∧ n ≤ m ∧
      (m = n ∨ ∃ (i : ℕ) (e : ChangeEvent Obj), events[i]? = some e ∧ Prepared keyField e ∧ e.sequence = m) ∧
      ∀ d ∈ handledDeliveries keyField stateStoreName events s ds, d.saved = true →
        ∀ e ∈ events[d.index]?, Prepared keyField e → e.sequence ≤ m := by
  induction ds generalizing s n with
  | nil => exact ⟨n, hs, le_refl n, .inl rfl, fun d hd => by cases hd⟩
  | cons d ds ih =>
    cases hh : handles events s d with
    | false =>
      obtain ⟨m, hm⟩ := ih hs
      rw [run_cons, handledDeliveries, hh, redeliver_of_not_handles hseq hs hh]
      exact ⟨m, hm⟩
    | true =>
      obtain ⟨e, he, hle⟩ := (handles_iff hseq hs).1 hh
      rw [run_cons, handledDeliveries, hh]
      obtain ⟨-, ⟨hsync, hprepared⟩ | ⟨hsync, hnot⟩⟩ := redeliver_of_handled stateStoreName hseq hs he hle
      · obtain ⟨m, hm, hgrow, hreached, hsaved⟩ := ih hsync
        refine ⟨m, hm, hle.trans hgrow, .inr ?_, fun d' hd' hsave e' he' hp' => ?_⟩
        · rcases hreached with rfl | hreached
          · exact ⟨d.index, e, he, hprepared, rfl⟩
          · exact hreached
        · rcases List.mem_cons.1 hd' with rfl | hd'
          · obtain rfl : e = e' := Option.some.inj (he.symm.trans he')
            exact hgrow
          · exact hsaved d' hd' hsave e' he' hp'
      · obtain ⟨m, hm, hgrow, hreached, hsaved⟩ := ih hsync
        refine ⟨m, hm, hgrow, hreached, fun d' hd' hsave e' he' hp' => ?_⟩
        rcases List.mem_cons.1 hd' with rfl | hd'
        · obtain rfl : e = e' := Option.some.inj (he.symm.trans he')
          exact absurd ⟨hsave, hp'⟩ hnot
        · exact hsaved d' hd' hsave e' he' hp'

/-- apart from the sync point the store has what the handled deliveries wrote, one after the other -/
theorem run_store (hseq : Sequenced keyField events queryId) (hs : SyncAt queryId n s) (ds : List Delivery) {k : String}
    (hk : k ≠ getSyncPointKeyForQuery queryId) :
    (run (redeliver keyField stateStoreName events) s ds).store k =
      Writes.apply s.store ((handledDeliveries keyField stateStoreName events s ds).flatMap (writesOf keyField events)) k := by
  induction ds generalizing s n with
  | nil => rfl
  | cons d ds ih =>
    cases hh : handles events s d with
    | false =>
      rw [run_cons, handledDeliveries, hh, redeliver_of_not_handles hseq hs hh, ih hs]
      rfl
    | true =>
      obtain ⟨e, he, hle⟩ := (handles_iff hseq hs).1 hh
      obtain ⟨hstore, hsync⟩ := redeliver_of_handled stateStoreName hseq hs he hle
      have hlater (m : Int) (hm : SyncAt queryId m (redeliver keyField stateStoreName events s d)) :
          (run (redeliver keyField stateStoreName events) s (d :: ds)).store k =
            Writes.apply s.store ((handledDeliveries keyField stateStoreName events s (d :: ds)).flatMap
              (writesOf keyField events)) k := by
        rw [run_cons, ih hm, handledDeliveries, hh, if_pos rfl, List.flatMap_cons, Writes.apply_append, Writes.apply_eq,
          hstore k hk, ← Writes.apply_eq]
      rcases hsync with ⟨hm, -⟩ | ⟨hm, -⟩
      · exact hlater _ hm
      · exact hlater _ hm

/-- a handled event is not below the initial sync point -/
theorem mem_handledDeliveries (hseq : Sequenced keyField events queryId) (hs : SyncAt queryId n s) {ds : List Delivery}
    (h : d ∈ handledDeliveries keyField stateStoreName events s ds) : ∃ e, events[d.index]? = some e ∧ n ≤ e.sequence := by
  induction ds generalizing s n with
  | nil => cases h
  | cons d' ds ih =>
    obtain ⟨m, hm, hgrow, -⟩ := run_syncPoint stateStoreName hseq hs [d']
    rw [handledDeliveries] at h
    have hlater (hd : d ∈ handledDeliveries keyField stateStoreName events (redeliver keyField stateStoreName events s d') ds) :
        ∃ e, events[d.index]? = some e ∧ n ≤ e.sequence := by
      obtain ⟨e, he, hle⟩ := ih hm hd
      exact ⟨e, he, hgrow.trans hle⟩
    cases hh : handles events s d' with
    | false =>
      rw [hh] at h
      exact hlater h
    | true =>
      rw [hh] at h
      rcases List.mem_cons.1 h with rfl | h
      · exact (handles_iff hseq hs).1 hh
      · exact hlater h

theorem Sequenced.lt (hseq : Sequenced keyField events queryId) {i j : ℕ} {a b : ChangeEvent Obj} (ha : events[i]? = some a)
    (hb : events[j]? = some b) (hij : i < j) : a.sequence < b.sequence := by
  obtain ⟨hi, rfl⟩ := List.getElem?_eq_some_iff.1 ha
  obtain ⟨hj, rfl⟩ := List.getElem?_eq_some_iff.1 hb
  exact List.pairwise_iff_getElem.1 hseq.increasing i j hi hj hij

variable (stateStoreName d) in
/-- the sync point that a delivery leaves: the one before it, or the event's -/
theorem syncAt_redeliver (hseq : Sequenced keyField events queryId) (hs : SyncAt queryId n s) :
    ∃ m, SyncAt queryId m (redeliver keyField stateStoreName events s d) ∧
      (m = n ∨ ∃ e, events[d.index]? = some e ∧ e.sequence = m) := by
  cases hh : handles events s d with
  | false =>
    rw [redeliver_of_not_handles hseq hs hh]
    exact ⟨n, hs, .inl rfl⟩
  | true =>
    obtain ⟨e, he, hle⟩ := (handles_iff hseq hs).1 hh
    obtain ⟨-, ⟨hsync, -⟩ | ⟨hsync, -⟩⟩ := redeliver_of_handled stateStoreName hseq hs he hle
    · exact ⟨_, hsync, .inr ⟨e, he, rfl⟩⟩
    · exact ⟨n, hsync, .inl rfl⟩

/-- the first delivery of an event is handled, for nothing after it has moved the sync point -/
theorem handled_of_inOrder (hseq : Sequenced keyField events queryId) {n₀ : Int} {m : ℕ} {ds : List Delivery}
    (hord : DeliveredInOrder events.length m ds) (hs : SyncAt queryId n s)
    (hn : n = n₀ ∨ ∃ i < m, ∃ e, events[i]? = some e ∧ e.sequence = n) {j : ℕ} (hj : m ≤ j) (he : events[j]? = some e)
    (hle : n₀ ≤ e.sequence) : ∃ d ∈ handledDeliveries keyField stateStoreName events s ds, d.index = j := by
  induction ds generalizing s n m with
  | nil =>
    obtain rfl : m = events.length := hord
    exact absurd (List.getElem?_eq_some_iff.1 he).1 (not_lt.2 hj)
  | cons d ds ih =>
    obtain ⟨-, hd, hlater⟩ := hord
    by_cases hdj : d.index = j
    · have hhandles : handles events s d = true := by
        refine (handles_iff hseq hs).2 ⟨e, hdj ▸ he, ?_⟩
        rcases hn with rfl | ⟨i, hi, a, ha, rfl⟩
        · exact hle
        · exact (hseq.lt ha he (hi.trans_le hj)).le
      refine ⟨d, ?_, hdj⟩
      rw [handledDeliveries, hhandles]
      exact List.mem_cons_self
    · obtain ⟨n', hs', hn'⟩ := syncAt_redeliver stateStoreName d hseq hs
      have hn₀ : n' = n₀ ∨ ∃ i < max m (d.index + 1), ∃ a, events[i]? = some a ∧ a.sequence = n' := by
        rcases hn' with rfl | ⟨a, ha, rfl⟩
        · exact hn.imp_right fun ⟨i, hi, h⟩ => ⟨i, hi.trans_le (le_max_left _ _), h⟩
        · exact .inr ⟨d.index, (Nat.lt_succ_self _).trans_le (le_max_right _ _), a, ha, rfl⟩
      have hmax : max m (d.index + 1) ≤ j := max_le hj (Nat.lt_of_le_of_ne (hd.trans hj) hdj)
      obtain ⟨d', hd', hindex⟩ := ih hlater hs' hn₀ hmax
      refine ⟨d', ?_, hindex⟩
      rw [handledDeliveries]
      cases handles events s d with
      | false => exact hd'
      | true => exact List.mem_cons_of_mem d hd'

theorem handledDeliveries_sublist (s : State Obj) (ds : List Delivery) :
    (handledDeliveries keyField stateStoreName events s ds).Sublist ds := by
  induction ds generalizing s with
  | nil => exact List.Sublist.refl _
  | cons d ds ih =>
    rw [handledDeliveries]
    cases handles events s d with
    | false => exact (ih _).cons d
    | true => exact (ih _).cons_cons d

/-! ### Each event once -/

theorem range'_inOrder (m k : ℕ) : DeliveredInOrder (m + k) m ((List.range' m k).map fun i => ⟨i, true⟩) := by
  induction k generalizing m with
  | zero => rfl
  | succ k ih =>
    rw [List.range'_succ, List.map_cons, ← Nat.succ_add_eq_add_succ]
    refine ⟨Nat.lt_add_right k (Nat.lt_succ_self m), le_refl m, ?_⟩
    rw [max_eq_right (Nat.le_succ m)]
    exact ih (m + 1)

theorem once_inOrder (total : ℕ) : DeliveredInOrder total 0 (once total) := by
  have h := range'_inOrder 0 total
  rwa [Nat.zero_add, ← List.range_eq_range'] at h

theorem once_pairwise (total : ℕ) : (once total).Pairwise fun d d' => d.index < d'.index :=
  List.pairwise_map.2 List.pairwise_lt_range

theorem saved_of_mem_once {total : ℕ} {d : Delivery} (h : d ∈ once total) : d.saved = true := by
  obtain ⟨i, -, rfl⟩ := List.mem_map.1 h
  rfl

/-! ## The results -/

variable (keyField stateStoreName events) in
/-- after every handling of an event each later event is handled again, or for the first time -/
def Resumed (s : State Obj) (schedule : List Delivery) : Prop :=
  Writes.LastInOrder Delivery.index (handledDeliveries keyField stateStoreName events s schedule)

variable (keyField stateStoreName events) in
/-- every event that is not below the initial sync point is handled once without a failure of its sync point update -/
def Acknowledged (n : Int) (s : State Obj) (schedule : List Delivery) : Prop :=
  ∀ i, ∀ e ∈ events[i]?, n ≤ e.sequence →
    ∃ d ∈ handledDeliveries keyField stateStoreName events s schedule, d.index = i ∧ d.saved = true

/-- **The sync points never decrease**, and they are equal. -/
theorem sync_point_grows (hseq : Sequenced keyField events queryId) (hs : SyncAt queryId n s) (ds later : List Delivery) :
    ∃ m m', SyncAt queryId m (run (redeliver keyField stateStoreName events) s ds) ∧
      SyncAt queryId m' (run (redeliver keyField stateStoreName events) s (ds ++ later)) ∧ m ≤ m' := by
  obtain ⟨m, hm, -⟩ := run_syncPoint stateStoreName hseq hs ds
  obtain ⟨m', hm', hgrow, -⟩ := run_syncPoint stateStoreName hseq hm later
  rw [run_append]
  exact ⟨m, m', hm, hm', hgrow⟩

/-- an event below the sync point changes nothing -/
theorem below_unchanged (hseq : Sequenced keyField events queryId) (hs : SyncAt queryId n s)
    (he : ∀ e ∈ events[d.index]?, e.sequence < n) : redeliver keyField stateStoreName events s d = s := by
  refine redeliver_of_not_handles hseq hs ?_
  rw [Bool.eq_false_iff]
  intro hh
  obtain ⟨e, hmem, hle⟩ := (handles_iff hseq hs).1 hh
  exact absurd (he e hmem) (not_lt.2 hle)

/-- two schedules that are resumed leave the same rows -/
theorem rows_eq (hseq : Sequenced keyField events queryId) (hs : SyncAt queryId n s) {schedule schedule' : List Delivery}
    (hord : DeliveredInOrder events.length 0 schedule) (hord' : DeliveredInOrder events.length 0 schedule')
    (hres : Resumed keyField stateStoreName events s schedule) (hres' : Resumed keyField stateStoreName events s schedule')
    {k : String} (hk : k ≠ getSyncPointKeyForQuery queryId) :
    (run (redeliver keyField stateStoreName events) s schedule).store k =
      (run (redeliver keyField stateStoreName events) s schedule').store k := by
  have hcovers {a b : List Delivery} (hb : DeliveredInOrder events.length 0 b) :
      ∀ i ∈ handledDeliveries keyField stateStoreName events s a,
        ∃ i' ∈ handledDeliveries keyField stateStoreName events s b, i'.index = i.index := by
    intro i hi
    obtain ⟨e, he, hle⟩ := mem_handledDeliveries hseq hs hi
    exact handled_of_inOrder hseq hb hs (.inl rfl) (Nat.zero_le _) he hle
  have hsame (i i' : Delivery) (h : i.index = i'.index) : writesOf keyField events i = writesOf keyField events i' := by
    rw [writesOf, writesOf, h]
  rw [run_store hseq hs _ hk, run_store hseq hs _ hk, Writes.apply_eq, Writes.apply_eq,
    Writes.last_flatMap_congr (fun i _ i' _ => hsame i i') hres hres' (hcovers hord')]
  intro i' hi'
  exact hcovers hord i' hi'

/-- where every event is acknowledged, the sync point is no lower than anywhere else -/
theorem syncPoint_le (hseq : Sequenced keyField events queryId) (hs : SyncAt queryId n s) {schedule schedule' : List Delivery}
    (hack : Acknowledged keyField stateStoreName events n s schedule') {m m' : Int}
    (hm : SyncAt queryId m (run (redeliver keyField stateStoreName events) s schedule))
    (hm' : SyncAt queryId m' (run (redeliver keyField stateStoreName events) s schedule')) : m ≤ m' := by
  obtain ⟨a, ha, hna, hreached, -⟩ := run_syncPoint stateStoreName hseq hs schedule
  obtain ⟨b, hb, hnb, -, hsaved⟩ := run_syncPoint stateStoreName hseq hs schedule'
  obtain rfl : a = m := Option.some.inj (ha.1.symm.trans hm.1)
  obtain rfl : b = m' := Option.some.inj (hb.1.symm.trans hm'.1)
  rcases hreached with rfl | ⟨i, e, he, hprepared, rfl⟩
  · exact hnb
  · obtain ⟨d, hd, rfl, hsave⟩ := hack i e he hna
    exact hsaved d hd hsave e he hprepared

theorem once_resumed (s : State Obj) : Resumed keyField stateStoreName events s (once events.length) :=
  Writes.lastInOrder_of_pairwise ((once_pairwise _).sublist (handledDeliveries_sublist s _))

theorem once_acknowledged (hseq : Sequenced keyField events queryId) (hs : SyncAt queryId n s) :
    Acknowledged keyField stateStoreName events n s (once events.length) := by
  intro i e he hle
  obtain ⟨d, hd, hindex⟩ := handled_of_inOrder hseq (once_inOrder _) hs (.inl rfl) (Nat.zero_le i) he hle
  exact ⟨d, hd, hindex, saved_of_mem_once ((handledDeliveries_sublist s _).mem hd)⟩

/-- **Redelivery.** Along every schedule the sync points are equal and never decrease, and an event below them changes
nothing. When after every handling of an event each later one is handled, the rows are those of delivering each event
once, and so is the whole store when every event is acknowledged. -/
theorem redelivery (hseq : Sequenced keyField events queryId) (hs : SyncAt queryId n s) {schedule : List Delivery}
    (hord : DeliveredInOrder events.length 0 schedule) :
    (∀ pre mid post, schedule = pre ++ mid ++ post →
      ∃ m m', SyncAt queryId m (run (redeliver keyField stateStoreName events) s pre) ∧
        SyncAt queryId m' (run (redeliver keyField stateStoreName events) s (pre ++ mid)) ∧ m ≤ m') ∧
    (∀ pre d post, schedule = pre ++ d :: post → ∀ m, SyncAt queryId m (run (redeliver keyField stateStoreName events) s pre) →
      (∀ e ∈ events[d.index]?, e.sequence < m) →
      run (redeliver keyField stateStoreName events) s (pre ++ [d]) = run (redeliver keyField stateStoreName events) s pre) ∧
    (Resumed keyField stateStoreName events s schedule →
      (∀ k ≠ getSyncPointKeyForQuery queryId, (run (redeliver keyField stateStoreName events) s schedule).store k =
        (run (redeliver keyField stateStoreName events) s (once events.length)).store k) ∧
      (Acknowledged keyField stateStoreName events n s schedule →
        (run (redeliver keyField stateStoreName events) s schedule).store =
          (run (redeliver keyField stateStoreName events) s (once events.length)).store)) := by
  refine ⟨fun pre mid post _ => sync_point_grows hseq hs pre mid, fun pre d post _ m hm he => ?_, fun hres => ?_⟩
  · rw [run_append]
    exact below_unchanged hseq hm he
  · have hrows (k : String) (hk : k ≠ getSyncPointKeyForQuery queryId) :
        (run (redeliver keyField stateStoreName events) s schedule).store k =
          (run (redeliver keyField stateStoreName events) s (once events.length)).store k :=
      rows_eq hseq hs hord (once_inOrder _) hres (once_resumed s) hk
    refine ⟨hrows, fun hack => funext fun k => ?_⟩
    by_cases hk : k = getSyncPointKeyForQuery queryId
    · obtain ⟨m, hm, -⟩ := run_syncPoint stateStoreName hseq hs schedule
      obtain ⟨m', hm', -⟩ := run_syncPoint stateStoreName hseq hs (once events.length)
      have hle : m ≤ m' := syncPoint_le hseq hs (once_acknowledged hseq hs) hm hm'
      have hge : m' ≤ m := syncPoint_le hseq hs hack hm' hm
      rw [hk, hm.2, hm'.2, le_antisymm hle hge]
    · exact hrows k hk

/-! ## Redelivery of suffixes -/

theorem handled_of_stepsUp (hseq : Sequenced keyField events queryId) {i j : ℕ} {ds : List Delivery}
    (hsteps : StepsUp events.length i ds) (hs : SyncAt queryId n s) (hij : i < j) (he : events[j]? = some e)
    (hle : n ≤ e.sequence) : ∃ d ∈ handledDeliveries keyField stateStoreName events s ds, d.index = j := by
  induction ds generalizing s n i with
  | nil =>
    have hlast : i + 1 = events.length := hsteps
    exact absurd (List.getElem?_eq_some_iff.1 he).1 (by omega)
  | cons d ds ih =>
    obtain ⟨hd, hlater⟩ := hsteps
    by_cases hdj : d.index = j
    · have hhandles : handles events s d = true := (handles_iff hseq hs).2 ⟨e, hdj ▸ he, hle⟩
      refine ⟨d, ?_, hdj⟩
      rw [handledDeliveries, hhandles]
      exact List.mem_cons_self
    · have hlt : d.index < j := Nat.lt_of_le_of_ne (hd.trans hij) hdj
      obtain ⟨n', hs', hn'⟩ := syncAt_redeliver stateStoreName d hseq hs
      have hle' : n' ≤ e.sequence := by
        rcases hn' with rfl | ⟨a, ha, rfl⟩
        · exact hle
        · exact (hseq.lt ha he hlt).le
      obtain ⟨d', hd', hindex⟩ := ih hlater hs' hlt hle'
      refine ⟨d', ?_, hindex⟩
      rw [handledDeliveries]
      cases handles events s d with
      | false => exact hd'
      | true => exact List.mem_cons_of_mem d hd'

theorem handled_later_of_stepsUp (hseq : Sequenced keyField events queryId) {i : ℕ} {ds : List Delivery}
    (hsteps : StepsUp events.length i ds) (hs : SyncAt queryId n s) {pre post : List Delivery}
    (hsplit : handledDeliveries keyField stateStoreName events s ds = pre ++ d :: post) {j : ℕ} (he : events[j]? = some e)
    (hdj : d.index < j) : ∃ d' ∈ post, d'.index = j := by
  induction ds generalizing s n i pre with
  | nil => cases pre <;> cases hsplit
  | cons a ds ih =>
    obtain ⟨n', hs', hn'⟩ := syncAt_redeliver stateStoreName a hseq hs
    rw [handledDeliveries] at hsplit
    cases hh : handles events s a with
    | false =>
      rw [hh] at hsplit
      exact ih hsteps.2 hs' hsplit
    | true =>
      rw [hh] at hsplit
      cases pre with
      | cons b pre => exact ih hsteps.2 hs' (List.cons.inj hsplit).2
      | nil =>
        obtain ⟨rfl, hpost⟩ := List.cons.inj hsplit
        obtain ⟨b, hb, hle⟩ := (handles_iff hseq hs).1 hh
        have hle' : n' ≤ e.sequence := by
          rcases hn' with rfl | ⟨b', hb', rfl⟩
          · exact hle.trans (hseq.lt hb he hdj).le
          · exact (hseq.lt hb' he hdj).le
        rw [← hpost]
        exact handled_of_stepsUp hseq hsteps.2 hs' hdj he hle'

/-- a schedule that redelivers suffixes resumes after every redelivery -/
theorem resumed_of_stepsUp (hseq : Sequenced keyField events queryId) {i : ℕ} {schedule : List Delivery}
    (hsteps : StepsUp events.length i schedule) (hs : SyncAt queryId n s) :
    Resumed keyField stateStoreName events s schedule := by
  intro pre d post hsplit j hj hlt
  obtain ⟨e, he, -⟩ := mem_handledDeliveries hseq hs hj
  exact handled_later_of_stepsUp hseq hsteps hs hsplit he hlt

end Schedule

/-! ### Witnesses -/

def saveEvent (sequence : Int) (key name : String) : ChangeEvent String :=
  ⟨"q", sequence, some [some [("id", some key), ("name", some name)]], none, none⟩

/-- the row 1 is saved twice, then the row 2 -/
def saves : List (ChangeEvent String) := [saveEvent 6 "1" "Ann", saveEvent 7 "1" "Anna", saveEvent 8 "2" "Bob"]

theorem sequenced_saves : Sequenced (some "id") saves "q" where
  query := by decide
  increasing := by decide
  keys := by
    intro e he b hb w hw
    simp only [saves, List.mem_cons, List.not_mem_nil, or_false] at he
    rcases he with rfl | rfl | rfl <;>
      · obtain rfl := Except.ok.inj hb
        obtain rfl := List.mem_singleton.1 hw
        decide

def at5 : State String where
  store := fun k => if k = getSyncPointKeyForQuery "q" then some (.syncPoint 5) else none
  syncPoints := fun q => if q = "q" then some 5 else none

theorem syncAt_at5 : SyncAt "q" 5 at5 := by
  have hstored : at5.store (getSyncPointKeyForQuery "q") = some (.syncPoint 5) := by rfl
  exact ⟨rfl, hstored⟩

/-- the deliveries of `saves` -/
abbrev replay (schedule : List Delivery) : State String := run (redeliver (some "id") "people" saves) at5 schedule

/-- the second event fails after its writes, the first two are delivered again, the rest follows -/
def suffixAgain : List Delivery := [⟨0, true⟩, ⟨1, false⟩, ⟨0, true⟩, ⟨1, true⟩, ⟨2, true⟩]

theorem suffixAgain_rows :
    Resumed (some "id") "people" saves at5 suffixAgain ∧
      ∀ k ≠ getSyncPointKeyForQuery "q", (replay suffixAgain).store k = (replay (once 3)).store k := by
  have hord : DeliveredInOrder saves.length 0 suffixAgain := by decide
  have hsteps : StepsUp saves.length 0 suffixAgain := by decide
  have hres : Resumed (some "id") "people" saves at5 suffixAgain := resumed_of_stepsUp sequenced_saves hsteps syncAt_at5
  exact ⟨hres, ((redelivery sequenced_saves syncAt_at5 hord).2.2 hres).1⟩

/-- as before, but after the first event the third is delivered: the second is skipped when it comes again -/
def loneAgain : List Delivery := [⟨0, true⟩, ⟨1, false⟩, ⟨0, true⟩, ⟨2, true⟩, ⟨1, true⟩]

theorem lone_redelivery_stays :
    ¬ ∀ schedule : List Delivery, DeliveredInOrder saves.length 0 schedule →
      ∀ k ≠ getSyncPointKeyForQuery "q", (replay schedule).store k = (replay (once saves.length)).store k := by
  intro h
  have hrow := h loneAgain (by decide) "1" (by decide)
  have hfirst : (replay loneAgain).store "1" = some (.row [("id", some "1"), ("name", some "Ann")]) := by rfl
  have hsecond : (replay (once saves.length)).store "1" = some (.row [("id", some "1"), ("name", some "Anna")]) := by rfl
  rw [hfirst, hsecond] at hrow
  revert hrow
  simp

end DrasiPlatform.SyncStateStore
