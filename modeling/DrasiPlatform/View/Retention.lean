/-
The arithmetic of the policy `Expire` (`query-container/view-svc/src/mongo_view_store.rs`): the horizon `now - after_seconds
* 1000` is computed as `i64` by `collect_garbage` and as `u64` by `get_view`, and an expiry may be any `u64`.

Both computations wrap, and both give the integer difference modulo 2^64 (`toInt_epoch_eq`). So the collector deletes too
much when the difference lies below the `i64` range, or behind `MAX_TIMESTAMP`; and `get_view` compares two numbers that
have each been brought into the `i64` range.

- `collects_exactly_iff`, `refuses_exactly_iff`: for which horizons, and which timestamps, each of the two is exact.
- `retention_exact_iff`: when both are.
Witness: `huge_expiry_collects`, an expiry of 2^62 seconds that acts as one of no time at all.
-/
import Mathlib.Tactic
import DrasiPlatform.View.GarbageCollection

namespace DrasiPlatform.View

/-! ## Statements -/

/-- `now - 1000 * after_seconds` over the integers -/
def horizon (afterSeconds now : UInt64) : Int := now.toNat - 1000 * afterSeconds.toNat

section Exact

variable (Row Hash : Type) (afterSeconds now : UInt64)

/-- what a collection deletes has ended before the horizon, and is not open -/
def CollectsExactly : Prop :=
  ∀ (st : MongoViewStore Row Hash) (queryId : String), st.retentionPolicy queryId = some (.expire afterSeconds) →
    ∀ d ∈ (st.collection queryId).docs, d ∉ ((st.collectGarbage queryId now).collection queryId).docs →
      d.validTo.toInt < horizon afterSeconds now ∧ d.validTo ≠ maxTimestamp

/-- a view that there is refuses a timestamp when it lies before the horizon, and only then -/
def RefusesExactly (timestamp : Option UInt64) : Prop :=
  ∀ (st : MongoViewStore Row Hash) (queryId : String), st.retentionPolicy queryId = some (.expire afterSeconds) →
    (st.collection queryId).metadata.isSome →
      (getView st queryId timestamp now = .error .notFound ↔
        ((timestamp.getD now).toNat : Int) < horizon afterSeconds now)

/-- the horizon is an `i64` up to `MAX_TIMESTAMP`, or it wraps to an instant before all that is to be kept -/
def SafeHorizon : Prop :=
  (-2 ^ 63 ≤ horizon afterSeconds now ∧ horizon afterSeconds now ≤ maxTimestamp.toInt) ∨
    2 ^ 63 ≤ horizon afterSeconds now ∨ 2 ^ 64 ∣ horizon afterSeconds now + 2 ^ 63

/-- the horizon and the timestamp are both `i64`, or both behind the `i64` range, or wrap so that nothing is refused -/
def SafeTimestamp (timestamp : UInt64) : Prop :=
  (2 ^ 63 ≤ horizon afterSeconds now ∧ 2 ^ 63 ≤ timestamp.toNat) ∨
    (horizon afterSeconds now < 2 ^ 63 ∧
      ((-2 ^ 63 ≤ horizon afterSeconds now ∧ timestamp.toNat < 2 ^ 63) ∨
        (horizon afterSeconds now).bmod (2 ^ 64) ≤ (timestamp.toNat : Int).bmod (2 ^ 64)))

end Exact

/-! ## Wrapping -/

variable {Row Hash : Type}

theorem toInt_toInt64_eq_bmod (t : UInt64) : t.toInt64.toInt = (t.toNat : Int).bmod (2 ^ 64) := by
  have hlt := t.toNat_lt
  rw [toInt_toInt64_eq, Int.bmod]
  split_ifs <;> omega

/-- both horizons are the integer one, wrapped -/
theorem toInt_epoch_eq (afterSeconds now : UInt64) :
    (epoch afterSeconds now).toInt = (horizon afterSeconds now).bmod (2 ^ 64) := by
  have h1000 : (1000 : Int64).toInt = 1000 := rfl
  rw [epoch, Int64.toInt_sub, Int64.toInt_mul, toInt_toInt64_eq_bmod, toInt_toInt64_eq_bmod, h1000, horizon,
    Int.bmod_mul_bmod, Int.bmod_sub_bmod, Int.sub_bmod_bmod, mul_comm]

theorem expired_iff (afterSeconds now : UInt64) (timestamp : Option UInt64) :
    expired (.expire afterSeconds) timestamp now = true ↔
      ((timestamp.getD now).toNat : Int).bmod (2 ^ 64) < (horizon afterSeconds now).bmod (2 ^ 64) := by
  rw [expired, decide_eq_true_iff, horizon_eq_epoch, Int64.lt_iff_toInt_lt, toInt_epoch_eq, toInt_toInt64_eq_bmod]

theorem mem_collected {st : MongoViewStore Row Hash} {queryId : String} {afterSeconds now : UInt64}
    (hpolicy : st.retentionPolicy queryId = some (.expire afterSeconds)) (d : ViewDocument Row Hash) :
    d ∈ ((st.collectGarbage queryId now).collection queryId).docs ↔
      d ∈ (st.collection queryId).docs ∧ epoch afterSeconds now ≤ d.validTo := by
  simp [MongoViewStore.collectGarbage, hpolicy, epoch]

/-! ## The two checks -/

/-- the collector is exact as soon as every instant before its epoch lies before the horizon and is not the open one -/
theorem collectsExactly_iff_forall [Inhabited Row] [Inhabited Hash] (afterSeconds now : UInt64) :
    CollectsExactly Row Hash afterSeconds now ↔
      ∀ validTo : Int64, validTo.toInt < (horizon afterSeconds now).bmod (2 ^ 64) →
        validTo.toInt < horizon afterSeconds now ∧ validTo ≠ maxTimestamp := by
  constructor
  · intro h validTo hlt
    let d : ViewDocument Row Hash := ⟨default, default, 0, validTo⟩
    let st : MongoViewStore Row Hash := ⟨fun _ => some (.expire afterSeconds), fun _ => ⟨[d], none⟩⟩
    refine h st "" rfl d (List.mem_singleton_self d) fun hmem => ?_
    have hpolicy : st.retentionPolicy "" = some (.expire afterSeconds) := rfl
    have hle := ((mem_collected hpolicy d).1 hmem).2
    rw [Int64.le_iff_toInt_le, toInt_epoch_eq] at hle
    exact absurd hlt (not_lt.2 hle)
  · intro h st queryId hpolicy d hd hgone
    refine h d.validTo ?_
    by_contra hle
    rw [← toInt_epoch_eq, not_lt, ← Int64.le_iff_toInt_le] at hle
    exact hgone ((mem_collected hpolicy d).2 ⟨hd, hle⟩)

theorem collects_exactly_iff [Inhabited Row] [Inhabited Hash] (afterSeconds now : UInt64) :
    CollectsExactly Row Hash afterSeconds now ↔ SafeHorizon afterSeconds now := by
  have hmax : maxTimestamp.toInt = 253402300799999 := rfl
  have hnow := now.toNat_lt
  have hupper : horizon afterSeconds now < 2 ^ 64 := by
    rw [horizon]
    omega
  rw [collectsExactly_iff_forall]
  constructor
  · intro h
    by_contra hunsafe
    simp only [SafeHorizon, not_or, not_and, not_le, hmax] at hunsafe
    obtain ⟨hrange, hhigh, hdvd⟩ := hunsafe
    by_cases hlow : -2 ^ 63 ≤ horizon afterSeconds now
    · -- the horizon is behind the instant of the open documents
      have hbehind := hrange hlow
      refine (h maxTimestamp ?_).2 rfl
      rw [hmax, Int.bmod]
      split_ifs <;> omega
    · -- the horizon has wrapped to a later instant
      have hmin : Int64.minValue.toInt = -2 ^ 63 := rfl
      have hlt := (h Int64.minValue (by rw [hmin, Int.bmod]; split_ifs <;> omega)).1
      rw [hmin] at hlt
      exact hlow hlt.le
  · intro hsafe validTo hlt
    have hge := validTo.le_toInt
    have hlt' := validTo.toInt_lt
    have hne : validTo.toInt ≠ maxTimestamp.toInt → validTo ≠ maxTimestamp := fun hne heq => hne (congrArg _ heq)
    rw [hmax] at hne
    rw [SafeHorizon, hmax] at hsafe
    rw [Int.bmod] at hlt
    refine ⟨?_, hne ?_⟩
    · split_ifs at hlt <;> omega
    · split_ifs at hlt <;> omega

theorem refusesExactly_iff_expired [Inhabited Row] [Inhabited Hash] (afterSeconds now : UInt64)
    (timestamp : Option UInt64) :
    RefusesExactly Row Hash afterSeconds now timestamp ↔
      (expired (.expire afterSeconds) timestamp now = true ↔
        ((timestamp.getD now).toNat : Int) < horizon afterSeconds now) := by
  have hview : ∀ (st : MongoViewStore Row Hash) queryId, st.retentionPolicy queryId = some (.expire afterSeconds) →
      (st.collection queryId).metadata.isSome →
        (getView st queryId timestamp now = .error .notFound ↔ expired (.expire afterSeconds) timestamp now = true) := by
    intro st queryId hpolicy hmeta
    obtain ⟨m, hm⟩ := Option.isSome_iff_exists.1 hmeta
    simp [getView, hpolicy, hm]
  constructor
  · intro h
    let st : MongoViewStore Row Hash := ⟨fun _ => some (.expire afterSeconds), fun _ => ⟨[], some ⟨0, 0, none⟩⟩⟩
    rw [← hview st "" rfl rfl]
    exact h st "" rfl rfl
  · intro h st queryId hpolicy hmeta
    rw [hview st queryId hpolicy hmeta]
    exact h

theorem refuses_exactly_iff [Inhabited Row] [Inhabited Hash] (afterSeconds now : UInt64) (timestamp : Option UInt64) :
    RefusesExactly Row Hash afterSeconds now timestamp ↔ SafeTimestamp afterSeconds now (timestamp.getD now) := by
  have hnow := now.toNat_lt
  have hts := (timestamp.getD now).toNat_lt
  have hupper : horizon afterSeconds now < 2 ^ 64 := by
    rw [horizon]
    omega
  rw [refusesExactly_iff_expired, expired_iff, SafeTimestamp, Int.bmod, Int.bmod]
  generalize (timestamp.getD now).toNat = s at *
  generalize horizon afterSeconds now = T at *
  split_ifs <;> omega

/-- **When retention is exact.** For every expiry, clock and timestamp, the collector deletes nothing but what ended
before the horizon and the view refuses exactly the timestamps before it, if and only if neither is led astray by what
wraps. -/
theorem retention_exact_iff [Inhabited Row] [Inhabited Hash] (afterSeconds now : UInt64) (timestamp : Option UInt64) :
    (CollectsExactly Row Hash afterSeconds now ∧ RefusesExactly Row Hash afterSeconds now timestamp) ↔
      (SafeHorizon afterSeconds now ∧ SafeTimestamp afterSeconds now (timestamp.getD now)) :=
  and_congr (collects_exactly_iff afterSeconds now) (refuses_exactly_iff afterSeconds now timestamp)

/-- an expiry of 2^62 seconds: 1000 times it is a multiple of 2^64, and all that has ended is collected at once -/
theorem huge_expiry_collects :
    ¬(CollectsExactly ℕ ℕ 4611686018427387904 1700000000000 ∧
      RefusesExactly ℕ ℕ 4611686018427387904 1700000000000 none) := by
  rintro ⟨hcollects, -⟩
  rw [collects_exactly_iff, SafeHorizon, horizon] at hcollects
  exact absurd hcollects (by decide)

end DrasiPlatform.View
