/-
Numbers as text and as packed words. A number written with a fixed count of digits in a base of at most sixteen, and the
reader that `Long.parseLong` is; numbers packed into one word, each in a field of its own.

- `parseLong_digits`: the digits of a number that a long can hold are read back.
- `packed_lt_iff`: where the lower field has room for its number, the packed numbers are in the order of the pairs.
-/
import Mathlib.Tactic

namespace DrasiPlatform.Digits

/-! ## Digits -/

/-- `Character.digit`, of the digits and letters of ASCII -/
def digit (c : Char) (radix : ℕ) : Option ℕ :=
  let value : Option ℕ :=
    if '0' ≤ c ∧ c ≤ '9' then some (c.toNat - '0'.toNat)
    else if 'a' ≤ c ∧ c ≤ 'z' then some (c.toNat - 'a'.toNat + 10)
    else if 'A' ≤ c ∧ c ≤ 'Z' then some (c.toNat - 'A'.toNat + 10)
    else none
  value.filter (· < radix)

/-- the number that a run of digits continues -/
def readDigits (radix : ℕ) (n : ℕ) (s : List Char) : Option ℕ :=
  s.foldlM (fun n c => (digit c radix).map fun d => n * radix + d) n

/-- `Long.parseLong(s, radix)`; `none` is its `NumberFormatException` -/
def parseLong (s : List Char) (radix : ℕ) : Option Int64 :=
  let (negative, digits) := match s with
    | '-' :: rest => (true, rest)
    | '+' :: rest => (false, rest)
    | _ => (false, s)
  if digits.isEmpty then none
  else do
    let n ← readDigits radix 0 digits
    if negative then
      if n ≤ 2 ^ 63 then some (Int64.ofInt (-n)) else none
    else if n < 2 ^ 63 then some (Int64.ofNat n) else none

/-- the last `width` digits of a number -/
def digits (base : ℕ) : ℕ → ℕ → List Char
  | 0, _ => []
  | width + 1, n => digits base width (n / base) ++ [Nat.digitChar (n % base)]

section Digits

variable {base : ℕ}

/-- a digit is read back, and it is neither a sign nor a separator -/
theorem digit_digitChar : ∀ d < 16, ∀ radix ≤ 16, d < radix → digit (Nat.digitChar d) radix = some d := by decide

theorem digitChar_ne : ∀ d < 16, Nat.digitChar d ∉ ['-', '+', ':', '.'] := by decide

@[simp] theorem length_digits (width n : ℕ) : (digits base width n).length = width := by
  induction width generalizing n with
  | zero => rfl
  | succ width ih => simp [digits, ih]

theorem mem_digits {width n : ℕ} (hpos : 0 < base) (hbase : base ≤ 16) {c : Char} (hc : c ∈ digits base width n) :
    c ∉ ['-', '+', ':', '.'] := by
  induction width generalizing n with
  | zero => cases hc
  | succ width ih =>
    rcases List.mem_append.1 hc with h | h
    · exact ih h
    · rw [List.mem_singleton.1 h]
      exact digitChar_ne _ ((Nat.mod_lt n hpos).trans_le hbase)

theorem readDigits_digits (hpos : 0 < base) (hbase : base ≤ 16) (width n : ℕ) :
    readDigits base 0 (digits base width n) = some (n % base ^ width) := by
  induction width generalizing n with
  | zero => simp [digits, readDigits, Nat.mod_one]
  | succ width ih =>
    have hd : n % base < base := Nat.mod_lt n hpos
    have hread : readDigits base 0 (digits base width (n / base)) = some (n / base % base ^ width) := ih (n / base)
    have hvalue : n / base % base ^ width * base + n % base = n % base ^ (width + 1) := by
      rw [Nat.pow_succ', Nat.mod_mul, Nat.add_comm, Nat.mul_comm]
    unfold readDigits at hread ⊢
    rw [digits, List.foldlM_append, hread]
    simp [digit_digitChar _ (hd.trans_le hbase) base hbase hd, hvalue]

/-- **The digits of a number** that has no more of them, and that a long can hold, are read back. -/
theorem parseLong_digits (hpos : 0 < base) (hbase : base ≤ 16) {width n : ℕ} (hwidth : 0 < width)
    (hn : n < base ^ width) (hlong : n < 2 ^ 63) : parseLong (digits base width n) base = some (Int64.ofNat n) := by
  have hread := readDigits_digits hpos hbase width n
  rw [Nat.mod_eq_of_lt hn] at hread
  have hmem : ∀ c ∈ digits base width n, c ∉ ['-', '+', ':', '.'] := fun c => mem_digits hpos hbase
  cases hs : digits base width n with
  | nil =>
    have hlen : (digits base width n).length = width := length_digits width n
    rw [hs] at hlen
    exact absurd hlen.symm hwidth.ne'
  | cons c cs =>
    rw [hs] at hread hmem
    have hc : c ∉ ['-', '+', ':', '.'] := hmem c List.mem_cons_self
    have hminus : c ≠ '-' := fun h => hc (by simp [h])
    have hplus : c ≠ '+' := fun h => hc (by simp [h])
    unfold parseLong
    simpa [hminus, hplus, hread] using hlong

end Digits

/-! ## Packed words -/

/-- **Packing keeps the order**: the pairs with the first number in the higher field. -/
theorem packed_lt_iff {size a b a' b' : ℕ} (hb : b < size) (hb' : b' < size) :
    a * size + b < a' * size + b' ↔ a < a' ∨ a = a' ∧ b < b' := by
  refine ⟨fun h => ?_, ?_⟩
  · rcases Nat.lt_trichotomy a a' with ha | ha | ha
    · exact Or.inl ha
    · subst ha
      exact Or.inr ⟨rfl, by omega⟩
    · have hmul : (a' + 1) * size ≤ a * size := Nat.mul_le_mul_right size ha
      rw [Nat.succ_mul] at hmul
      omega
  · rintro (ha | ⟨rfl, hlt⟩)
    · have hmul : (a + 1) * size ≤ a' * size := Nat.mul_le_mul_right size ha
      rw [Nat.succ_mul] at hmul
      omega
    · omega

/-- a number shifted over the bits of a lower one that has room there -/
theorem shiftLeft_or {bits b : ℕ} (a : ℕ) (hb : b < 2 ^ bits) : a <<< bits ||| b = a * 2 ^ bits + b := by
  rw [← Nat.shiftLeft_add_eq_or_of_lt hb, Nat.shiftLeft_eq]

/-- the bits of a number that has no room in its field reach into the next one -/
theorem shiftLeft_or_overlap (bits a b : ℕ) :
    a <<< bits ||| b = (a ||| b / 2 ^ bits) * 2 ^ bits + b % 2 ^ bits := by
  have hb : b = (b / 2 ^ bits) <<< bits ||| b % 2 ^ bits := by
    rw [shiftLeft_or _ (Nat.mod_lt b (Nat.two_pow_pos bits)), Nat.div_add_mod']
  calc a <<< bits ||| b = a <<< bits ||| ((b / 2 ^ bits) <<< bits ||| b % 2 ^ bits) := by rw [← hb]
    _ = (a ||| b / 2 ^ bits) <<< bits ||| b % 2 ^ bits := by rw [Nat.shiftLeft_or_distrib, Nat.or_assoc]
    _ = (a ||| b / 2 ^ bits) * 2 ^ bits + b % 2 ^ bits := shiftLeft_or _ (Nat.mod_lt b (Nat.two_pow_pos bits))

end DrasiPlatform.Digits
