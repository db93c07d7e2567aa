/-
A log of requests and answers, each with a key, and the keys that are still owed an answer. An answer counts for every request
of its key before it, so that requests may be swallowed as long as their key is owed.

`Settled log owed` says that every request of the log has an answer after it or is of a key that is owed. The rules say what
keeps it: owing more (`Settled.mono`), a request of a key that is owed (`Settled.request`), answers, which pay what they answer
(`Settled.answers`).
-/
import Mathlib.Tactic

namespace DrasiPlatform.Answers

variable {K : Type*}

inductive Entry (K : Type*) where
  | request (k : K)
  | answer (k : K)
deriving DecidableEq

/-- every request has an answer after it, or its key is owed one -/
def Settled (log : List (Entry K)) (owed : Set K) : Prop :=
  ∀ before after k, log = before ++ .request k :: after → .answer k ∈ after ∨ k ∈ owed

theorem settled_nil (owed : Set K) : Settled [] owed := by
  intro before after k h
  exact absurd h.symm (by simp)

section Rules

variable {log : List (Entry K)} {owed owed' : Set K} {k : K}

theorem Settled.mono (h : Settled log owed) (howed : owed ⊆ owed') : Settled log owed' :=
  fun before after k hlog => (h before after k hlog).imp_right fun hk => howed hk

/-- a request of a key that is owed -/
theorem Settled.request (h : Settled log owed) (hk : k ∈ owed) : Settled (log ++ [.request k]) owed := by
  intro before after j hlog
  rcases List.eq_nil_or_concat after with rfl | ⟨after, e, rfl⟩
  · obtain ⟨-, hlast⟩ := List.append_inj' hlog rfl
    cases hlast
    exact Or.inr hk
  · have hconcat : log ++ [.request k] = before ++ .request j :: after ++ [e] := by simpa using hlog
    obtain ⟨hinit, -⟩ := List.append_inj' hconcat rfl
    exact (h before after j hinit).imp_left fun hmem => by simp [hmem]

/-- **Answers** pay what they answer. -/
theorem Settled.answers (h : Settled log owed) (ks : List K) :
    Settled (log ++ ks.map .answer) {k | k ∈ owed ∧ k ∉ ks} := by
  intro before after j hlog
  rcases List.append_eq_append_iff.1 hlog with ⟨m, hbefore, hks⟩ | ⟨m, hinit, hafter⟩
  · -- there is no request among the answers
    have hmem : Entry.request j ∈ ks.map .answer := hks ▸ List.mem_append_right m List.mem_cons_self
    obtain ⟨k, -, hk⟩ := List.mem_map.1 hmem
    cases hk
  · cases m with
    | nil =>
      have hmem : Entry.request j ∈ ks.map .answer := by
        rw [List.nil_append] at hafter
        exact hafter ▸ List.mem_cons_self
      obtain ⟨k, -, hk⟩ := List.mem_map.1 hmem
      cases hk
    | cons e m =>
      obtain ⟨rfl, rfl⟩ := List.cons.inj hafter
      by_cases hj : j ∈ ks
      · exact Or.inl (List.mem_append_right m (List.mem_map_of_mem hj))
      · rcases h before m j hinit with hanswer | howed
        · exact Or.inl (List.mem_append_left _ hanswer)
        · exact Or.inr ⟨howed, hj⟩

end Rules

end DrasiPlatform.Answers
