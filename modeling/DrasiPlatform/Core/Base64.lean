/-
Bytes as text, four characters for every three bytes, the last of them padded.

- `decode_encode`: what is written is read back.
-/
import Mathlib.Tactic

namespace DrasiPlatform.Base64

def alphabet : List Char := "ABCDEFGHIJKLMNOPQRSTUVWXYZabcdefghijklmnopqrstuvwxyz0123456789+/".toList

def pad : Char := '='

/-- the character of six bits -/
def sextet (n : ℕ) : Char := alphabet.getD n pad

def value (c : Char) : Option ℕ := if c ∈ alphabet then some (alphabet.idxOf c) else none

def encode : List UInt8 → List Char
  | [] => []
  | [a] => [sextet (a.toNat / 4), sextet (a.toNat % 4 * 16), pad, pad]
  | [a, b] => [sextet (a.toNat / 4), sextet (a.toNat % 4 * 16 + b.toNat / 16), sextet (b.toNat % 16 * 4), pad]
  | a :: b :: c :: rest =>
    sextet (a.toNat / 4) :: sextet (a.toNat % 4 * 16 + b.toNat / 16) :: sextet (b.toNat % 16 * 4 + c.toNat / 64) ::
      sextet (c.toNat % 64) :: encode rest

/-- the three bytes of four groups of six bits -/
def first (w x : ℕ) : UInt8 := .ofNat (w * 4 + x / 16)

def second (x y : ℕ) : UInt8 := .ofNat (x % 16 * 16 + y / 4)

def third (y z : ℕ) : UInt8 := .ofNat (y % 4 * 64 + z)

def decode : List Char → Option (List UInt8)
  | [] => some []
  | w :: x :: y :: z :: rest => do
    let w ← value w
    let x ← value x
    if y = pad ∧ z = pad ∧ rest = [] then return [first w x]
    else
      let y ← value y
      if z = pad ∧ rest = [] then return [first w x, second x y]
      else
        let z ← value z
        let rest ← decode rest
        return first w x :: second x y :: third y z :: rest
  | _ => none

theorem nodup_alphabet : alphabet.Nodup := by decide

theorem length_alphabet : alphabet.length = 64 := by decide

theorem sextet_eq {n : ℕ} (h : n < alphabet.length) : sextet n = alphabet[n] := by
  simp [sextet, h]

theorem value_sextet {n : ℕ} (h : n < 64) : value (sextet n) = some n := by
  have hlen : n < alphabet.length := length_alphabet.symm ▸ h
  rw [value, sextet_eq hlen, if_pos (List.getElem_mem hlen), nodup_alphabet.idxOf_getElem]

theorem sextet_ne_pad {n : ℕ} (h : n < 64) : sextet n ≠ pad := by
  have hlen : n < alphabet.length := length_alphabet.symm ▸ h
  have hpad : pad ∉ alphabet := by decide
  rw [sextet_eq hlen]
  exact fun heq => hpad (heq ▸ List.getElem_mem hlen)

theorem first_eq (a : UInt8) (k : ℕ) (h : k < 16) : first (a.toNat / 4) (a.toNat % 4 * 16 + k) = a := by
  have ha := a.toNat_lt
  refine UInt8.toNat.inj ?_
  rw [first, UInt8.toNat_ofNat']
  omega

theorem second_eq (b : UInt8) (j k : ℕ) (h : k < 4) : second (j * 16 + b.toNat / 16) (b.toNat % 16 * 4 + k) = b := by
  have hb := b.toNat_lt
  refine UInt8.toNat.inj ?_
  rw [second, UInt8.toNat_ofNat']
  omega

theorem third_eq (c : UInt8) (j : ℕ) : third (j * 4 + c.toNat / 64) (c.toNat % 64) = c := by
  have hc := c.toNat_lt
  refine UInt8.toNat.inj ?_
  rw [third, UInt8.toNat_ofNat']
  omega

/-- **Bytes are read back from their text.** -/
theorem decode_encode (bytes : List UInt8) : decode (encode bytes) = some bytes := by
  induction bytes using encode.induct with
  | case1 => rfl
  | case2 a =>
    have ha := a.toNat_lt
    have hfirst := first_eq a 0 (by decide)
    rw [Nat.add_zero] at hfirst
    simp [encode, decode, value_sextet (n := a.toNat / 4) (by omega), value_sextet (n := a.toNat % 4 * 16) (by omega), hfirst]
  | case3 a b =>
    have ha := a.toNat_lt
    have hb := b.toNat_lt
    have hsecond := second_eq b (a.toNat % 4) 0 (by decide)
    rw [Nat.add_zero] at hsecond
    simp [encode, decode, value_sextet (n := a.toNat / 4) (by omega),
      value_sextet (n := a.toNat % 4 * 16 + b.toNat / 16) (by omega), value_sextet (n := b.toNat % 16 * 4) (by omega),
      sextet_ne_pad (n := b.toNat % 16 * 4) (by omega), first_eq a (b.toNat / 16) (by omega), hsecond]
  | case4 a b c rest ih =>
    have ha := a.toNat_lt
    have hb := b.toNat_lt
    have hc := c.toNat_lt
    simp [encode, decode, value_sextet (n := a.toNat / 4) (by omega),
      value_sextet (n := a.toNat % 4 * 16 + b.toNat / 16) (by omega),
      value_sextet (n := b.toNat % 16 * 4 + c.toNat / 64) (by omega), value_sextet (n := c.toNat % 64) (by omega),
      sextet_ne_pad (n := b.toNat % 16 * 4 + c.toNat / 64) (by omega), sextet_ne_pad (n := c.toNat % 64) (by omega),
      first_eq a (b.toNat / 16) (by omega), second_eq b (a.toNat % 4) (c.toNat / 64) (by omega),
      third_eq c (b.toNat % 16), ih]

end DrasiPlatform.Base64
