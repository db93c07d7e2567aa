/-
Reading a log with redelivery: a reader takes the entries of a log one after the other and may at any moment go back to an
earlier one, as a queue makes it do that delivers again what was not acknowledged.

`Reads log c out c'` says that a reader that stands at position `c` takes the entries `out` and then stands at `c'`.

- `Reads.sublist`: nothing between the two positions is left out, and it comes in order.
- `Reads.mem`: nothing is taken that is not in the log.
- `Reads.duplicate`: an entry may be taken twice in a row.
- `Reads.flatMap`: a reader that makes entries of its own of each one reads the log of those.
- `Reads.last_eq`: whoever keeps the last value written to a key has, at the end of the log, what the log alone leaves.
-/
import Mathlib.Tactic
import DrasiPlatform.Core.Writes

namespace DrasiPlatform.Redelivery

variable {A B K V : Type*}

inductive Reads (log : List A) : ℕ → List A → ℕ → Prop
  | stop (c : ℕ) : Reads log c [] c
  | next {c c' : ℕ} {a : A} {out : List A} (ha : log[c]? = some a) (h : Reads log (c + 1) out c') :
      Reads log c (a :: out) c'
  | back {c b c' : ℕ} {out : List A} (hb : b ≤ c) (h : Reads log b out c') : Reads log c out c'

namespace Reads

variable {log log' : List A} {c c' c'' : ℕ} {out out' : List A}

theorem trans (h : Reads log c out c') (h' : Reads log c' out' c'') : Reads log c (out ++ out') c'' := by
  induction h with
  | stop => exact h'
  | next ha _ ih => exact .next ha (ih h')
  | back hb _ ih => exact .back hb (ih h')

/-- the log may grow -/
theorem extend (h : Reads log c out c') (hlog : log <+: log') : Reads log' c out c' := by
  obtain ⟨more, rfl⟩ := hlog
  induction h with
  | stop => exact .stop _
  | next ha _ ih =>
    refine .next ?_ ih
    rw [List.getElem?_append_left (List.getElem?_eq_some_iff.1 ha).1, ha]
  | back hb _ ih => exact .back hb ih

theorem le_length (h : Reads log c out c') (hc : c ≤ log.length) : c' ≤ log.length := by
  induction h with
  | stop => exact hc
  | next ha _ ih => exact ih (List.getElem?_eq_some_iff.1 ha).1
  | back hb _ ih => exact ih (hb.trans hc)

/-- the entries that come next -/
theorem take (log : List A) (c n : ℕ) (h : c + n ≤ log.length) : Reads log c ((log.drop c).take n) (c + n) := by
  induction n generalizing c with
  | zero => exact .stop c
  | succ n ih =>
    have hc : c < log.length := by omega
    rw [List.drop_eq_getElem_cons hc, List.take_succ_cons, show c + (n + 1) = c + 1 + n by omega]
    exact .next (List.getElem?_eq_getElem hc) (ih (c + 1) (by omega))

/-- entries of the log that stand behind `before` -/
theorem segment {before part after : List A} (hlog : log = before ++ part ++ after) (hc : before.length ≤ c) :
    Reads log c part (before.length + part.length) := by
  have h := take log before.length part.length (by rw [hlog]; simp)
  rw [hlog, List.append_assoc, List.drop_left, List.take_left, ← List.append_assoc, ← hlog] at h
  exact .back hc h

/-- **Nothing is taken that is not in the log.** -/
theorem mem (h : Reads log c out c') {a : A} (ha : a ∈ out) : a ∈ log := by
  induction h with
  | stop => cases ha
  | next hget _ ih =>
    rcases List.mem_cons.1 ha with rfl | ha
    · exact List.mem_of_getElem? hget
    · exact ih ha
  | back _ _ ih => exact ih ha

/-- **Nothing is left out**, and what is taken comes in the order of the log. -/
theorem sublist (h : Reads log c out c') : ((log.take c').drop c).Sublist out := by
  induction h with
  | stop c => simp
  | @next c c' a out ha _ ih =>
    obtain ⟨hc, rfl⟩ := List.getElem?_eq_some_iff.1 ha
    by_cases hlt : c < c'
    · have hc' : c < (log.take c').length := by rw [List.length_take]; omega
      rw [List.drop_eq_getElem_cons hc', List.getElem_take]
      exact ih.cons_cons _
    · rw [List.drop_eq_nil_of_le (by rw [List.length_take]; omega)]
      exact List.nil_sublist _
  | @back c b c' out hb _ ih =>
    obtain ⟨n, rfl⟩ := Nat.exists_eq_add_of_le hb
    rw [← List.drop_drop]
    exact (List.drop_sublist _ _).trans ih

/-- an entry may be taken twice in a row -/
theorem duplicate {a : A} {rest : List A} (h : Reads log c (out ++ a :: rest) c') :
    Reads log c (out ++ a :: a :: rest) c' := by
  generalize hall : out ++ a :: rest = all at h
  induction h generalizing out with
  | stop => cases out <;> cases hall
  | @next c c' x all ha htail ih =>
    cases out with
    | nil =>
      obtain ⟨rfl, rfl⟩ := List.cons.inj hall
      exact .next ha (.back (Nat.le_succ c) (.next ha htail))
    | cons y out =>
      obtain ⟨rfl, hrest⟩ := List.cons.inj hall
      exact .next ha (ih hrest)
  | back hb _ ih => exact .back hb (ih hall)

/-- a reader of images -/
theorem map (f : A → B) (h : Reads log c out c') : Reads (log.map f) c (out.map f) c' := by
  induction h with
  | stop c => exact .stop c
  | next ha _ ih => exact .next (by rw [List.getElem?_map, ha]; rfl) ih
  | back hb _ ih => exact .back hb ih

/-- a reader that makes any number of entries of each one -/
theorem flatMap (f : A → List B) (h : Reads log c out c') : Reads (log.flatMap f) ((log.take c).flatMap f).length
    (out.flatMap f) ((log.take c').flatMap f).length := by
  induction h with
  | stop c => exact .stop _
  | @next c c' a out ha _ ih =>
    obtain ⟨hc, rfl⟩ := List.getElem?_eq_some_iff.1 ha
    have hsplit : log.flatMap f = (log.take c).flatMap f ++ f log[c] ++ (log.drop (c + 1)).flatMap f := by
      rw [List.append_assoc, ← List.flatMap_cons, ← List.flatMap_append, ← List.drop_eq_getElem_cons hc,
        List.take_append_drop]
    have hthis := segment hsplit (le_refl _)
    rw [List.take_succ_eq_append_getElem hc, List.flatMap_append, List.flatMap_singleton, List.length_append] at ih
    exact hthis.trans ih
  | @back c b c' out hb _ ih =>
    have htake : (log.take b).flatMap f <+: (log.take c).flatMap f := by
      obtain ⟨more, hmore⟩ : log.take b <+: log.take c := List.take_prefix_take_left hb
      exact ⟨more.flatMap f, by rw [← hmore, List.flatMap_append]⟩
    exact .back htake.length_le ih

/-! ## The last write -/

section LastWrite

variable [DecidableEq K] {writes writtenOut : List (K × V)}

/-- a reader that comes to the end of the log: the last value it takes for a key is that of the log, or it takes none and
none is left ahead -/
theorem last_cases {c c' : ℕ} (h : Reads writes c writtenOut c') (hend : c' = writes.length) (k : K) :
    Writes.last k writtenOut = Writes.last k writes ∨
      (Writes.last k writtenOut = none ∧ Writes.last k (writes.drop c) = none) := by
  induction h with
  | stop c => exact .inr ⟨rfl, by rw [hend, List.drop_length]; rfl⟩
  | @next c c' w out hw _ ih =>
    obtain ⟨hc, rfl⟩ := List.getElem?_eq_some_iff.1 hw
    rw [List.drop_eq_getElem_cons hc]
    simp only [Writes.last]
    rcases ih hend with hlast | ⟨hnone, hahead⟩
    · rw [hlast]
      cases hall : Writes.last k writes with
      | some v => exact .inl rfl
      | none =>
        -- no entry of the log is of this key, so this one is not
        have hsplit := Writes.last_append k (writes.take c) (writes.drop c)
        rw [List.take_append_drop, hall, List.drop_eq_getElem_cons hc, Writes.last] at hsplit
        have hdrop := (Option.or_eq_none_iff.1 hsplit.symm).1
        exact .inl (by rw [Option.none_or]; exact (Option.or_eq_none_iff.1 hdrop).2)
    · rw [hnone, hahead, Option.none_or]
      by_cases hk : writes[c].1 = k
      · refine .inl ?_
        have hsplit := Writes.last_append k (writes.take c) (writes.drop c)
        rw [List.take_append_drop, List.drop_eq_getElem_cons hc, Writes.last, hahead, Option.none_or, if_pos hk] at hsplit
        rw [if_pos hk, hsplit, Option.some_or]
      · exact .inr ⟨if_neg hk, if_neg hk⟩
  | @back c b c' out hb _ ih =>
    refine (ih hend).imp_right fun hahead => ⟨hahead.1, ?_⟩
    have hsplit := Writes.last_append k ((writes.drop b).take (c - b)) ((writes.drop b).drop (c - b))
    rw [List.take_append_drop, hahead.2, List.drop_drop, Nat.add_sub_cancel' hb] at hsplit
    exact (Option.or_eq_none_iff.1 hsplit.symm).1

/-- **Redelivery does not show in the last values.** -/
theorem last_eq (h : Reads writes 0 writtenOut writes.length) (k : K) :
    Writes.last k writtenOut = Writes.last k writes := by
  rcases last_cases h rfl k with hlast | ⟨hnone, hall⟩
  · exact hlast
  · rw [hnone, ← hall, List.drop_zero]

theorem apply_eq (h : Reads writes 0 writtenOut writes.length) (f : K → V) :
    Writes.apply f writtenOut = Writes.apply f writes := by
  funext k
  rw [Writes.apply_eq, Writes.apply_eq, last_eq h]

end LastWrite

end Reads

end DrasiPlatform.Redelivery
