/-
Followers of a log. A follower reads the entries of a log in their order, hands each one on, and persists how far it has
come. It can stop at any point, and begins again at the position it persisted or, where there is none, at another one.

An entry that is handed on need not be published yet: it can wait in a channel, and is lost there when the process ends. A
follower that publishes on its own has `handed` and `published` the same.

`Safe` says that nothing is passed over, of all that comes after the position where the follower first began: what lies
before the persisted position has been published, and what lies before the position it reads at has been handed on.

- `safe_moveTo_iff`: a follower that begins at a position stays safe exactly when all entries before it are handed on.
- `GoesTo.safe_iff`, `Advances.safe_iff`: one that goes on stays safe exactly when it hands on all that it goes over.
- `safe_store_iff`: one that persists a position stays safe exactly when all entries before it are published.
-/
import Mathlib.Tactic

namespace DrasiPlatform

/-! ## Stretches of a log -/

/-- all positions from `a` on and before `b` are done -/
def Covers (done : ℕ → Prop) (a b : ℕ) : Prop := ∀ i, a ≤ i → i < b → done i

namespace Covers

variable {done done' : ℕ → Prop} {a b c : ℕ}

theorem empty (h : b ≤ a) : Covers done a b := fun i ha hb => by omega

theorem mono (hdone : ∀ i, done i → done' i) (h : Covers done a b) : Covers done' a b :=
  fun i ha hb => hdone i (h i ha hb)

theorem shorten (h : Covers done a c) (hb : b ≤ c) : Covers done a b := fun i ha hi => h i ha (by omega)

theorem join (h : Covers done a b) (h' : Covers done b c) : Covers done a c := by
  intro i ha hc
  by_cases hi : i < b
  · exact h i ha hi
  · exact h' i (by omega) hc

theorem join_iff (hab : a ≤ b) (hbc : b ≤ c) : Covers done a c ↔ Covers done a b ∧ Covers done b c := by
  constructor
  · intro h
    exact ⟨h.shorten hbc, fun i hi hc => h i (by omega) hc⟩
  · rintro ⟨h, h'⟩
    exact h.join h'

theorem succ (h : Covers done a b) (hb : done b) : Covers done a (b + 1) := by
  intro i ha hi
  by_cases hlt : i < b
  · exact h i ha hlt
  · have hi' : i = b := by omega
    exact hi' ▸ hb

end Covers

/-! ## Calls of another service -/

/-- how a call ends: it returns, it fails, or it takes effect and fails all the same -/
inductive Call where
  | returns
  | fails
  | failsAfter
deriving DecidableEq

namespace Call

def effect : Call → Bool
  | .returns | .failsAfter => true
  | .fails => false

def ok : Call → Bool
  | .returns => true
  | .fails | .failsAfter => false

end Call

/-! ## Followers -/

structure Follower where
  /-- where the follower first began -/
  first : Option ℕ
  /-- where it reads, while it does -/
  cursor : Option ℕ
  stored : Option ℕ
  handed : ℕ → Prop
  published : ℕ → Prop

namespace Follower

variable {f g : Follower}

/-- nothing is passed over since the first position -/
structure Safe (f : Follower) : Prop where
  stored : ∀ a p, f.first = some a → f.stored = some p → Covers f.published a p
  cursor : ∀ a p, f.first = some a → f.cursor = some p → Covers f.handed a p

/-- the first position, where a follower begins at `t` -/
theorem le_of_begins {first : Option ℕ} {a t : ℕ} (ha : first.or (some t) = some a) (hle : ∀ b, first = some b → b ≤ t) :
    a ≤ t := by
  cases first with
  | none => exact (Option.some.inj ha).ge
  | some b => exact hle a ha

def moveTo (f : Follower) (p : ℕ) : Follower := { f with first := f.first.or (some p), cursor := some p }

def store (f : Follower) (p : ℕ) : Follower := { f with stored := some p }

/-- `g` has handed on and published what `f` has, and holds the same positions -/
structure Grows (f g : Follower) : Prop where
  first : g.first = f.first
  stored : g.stored = f.stored
  published : ∀ i, f.published i → g.published i
  /-- where `g` reads at all, it is where `f` reads, and nothing that was handed on is lost -/
  cursor : ∀ p, g.cursor = some p → f.cursor = some p ∧ ∀ i, f.handed i → g.handed i

theorem Grows.safe (h : Grows f g) (hsafe : f.Safe) : g.Safe where
  stored a p ha hp := by
    rw [h.first] at ha
    rw [h.stored] at hp
    exact (hsafe.stored a p ha hp).mono h.published
  cursor a p ha hp := by
    rw [h.first] at ha
    obtain ⟨hcursor, hhanded⟩ := h.cursor p hp
    exact (hsafe.cursor a p ha hcursor).mono hhanded

/-- `g` reads at `q`, and holds the first and the persisted position of `f` -/
structure GoesTo (f g : Follower) (q : ℕ) : Prop where
  first : g.first = f.first
  stored : g.stored = f.stored
  published : ∀ i, f.published i → g.published i
  cursor : g.cursor = some q

theorem GoesTo.safe_iff {q : ℕ} (h : GoesTo f g q) (hsafe : f.Safe) :
    g.Safe ↔ ∀ a, f.first = some a → Covers g.handed a q := by
  constructor
  · intro hg a ha
    exact hg.cursor a q (h.first.trans ha) h.cursor
  · intro hcovers
    constructor
    · intro a r ha hr
      exact (hsafe.stored a r (h.first.symm.trans ha) (h.stored.symm.trans hr)).mono h.published
    · intro a r ha hr
      obtain rfl : q = r := Option.some.inj (h.cursor.symm.trans hr)
      exact hcovers a (h.first.symm.trans ha)

/-- `g` is `f` gone on from `p` to `q` -/
structure Advances (f g : Follower) (p q : ℕ) : Prop extends GoesTo f g q where
  before : f.cursor = some p
  handed : ∀ i, f.handed i → g.handed i
  le : p ≤ q

/-- a follower that goes on stays safe exactly when all that it goes over is handed on -/
theorem Advances.safe_iff {p q : ℕ} (h : Advances f g p q) (hsafe : f.Safe) (hbegun : ∃ a, f.first = some a ∧ a ≤ p) :
    g.Safe ↔ Covers g.handed p q := by
  obtain ⟨a, ha, hap⟩ := hbegun
  rw [h.toGoesTo.safe_iff hsafe]
  have hcovered : Covers g.handed a p := (hsafe.cursor a p ha h.before).mono h.handed
  constructor
  · intro hall
    exact ((Covers.join_iff hap h.le).1 (hall a ha)).2
  · intro hrest a' ha'
    obtain rfl : a = a' := Option.some.inj (ha.symm.trans ha')
    exact hcovered.join hrest

/-- a follower that has begun, or that begins where it left off, loses nothing it has persisted -/
theorem safe_moveTo_iff {p : ℕ} (hsafe : f.Safe) (hfirst : f.first = none → ∀ q, f.stored = some q → q ≤ p) :
    (f.moveTo p).Safe ↔ ∀ a, f.first = some a → Covers f.handed a p := by
  constructor
  · intro h a ha
    have hfirst' : (f.moveTo p).first = some a := by simp [moveTo, ha]
    exact h.cursor a p hfirst' rfl
  · intro h
    cases hf : f.first with
    | none =>
      constructor
      · intro a q ha hq
        have hap : a = p := by simpa [moveTo, hf, eq_comm] using ha
        exact Covers.empty (hap ▸ hfirst hf q hq)
      · intro a q ha hq
        have hap : a = p := by simpa [moveTo, hf, eq_comm] using ha
        have hqp : q = p := by simpa [moveTo, eq_comm] using hq
        exact Covers.empty (by omega)
    | some b =>
      constructor
      · intro a q ha hq
        have hab : b = a := by simpa [moveTo, hf] using ha
        exact hsafe.stored a q (hab ▸ hf) hq
      · intro a q ha hq
        have hab : b = a := by simpa [moveTo, hf] using ha
        have hqp : p = q := by simpa [moveTo] using hq
        exact hqp ▸ h a (hab ▸ hf)

theorem safe_store_iff {p : ℕ} (hsafe : f.Safe) :
    (f.store p).Safe ↔ ∀ a, f.first = some a → Covers f.published a p := by
  constructor
  · intro h a ha
    exact h.stored a p ha rfl
  · intro h
    constructor
    · intro a q ha hq
      have hpq : p = q := by simpa [store] using hq
      exact hpq ▸ h a ha
    · exact hsafe.cursor

end Follower

end DrasiPlatform
