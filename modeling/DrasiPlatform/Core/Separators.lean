/-
Two texts with a separator between them. The pair can be told from the joined text when one of the two is known not to have
the separator in it; `joined_eq_iff` says which pairs are joined to one text otherwise.
-/
import Mathlib.Tactic

namespace DrasiPlatform.Separators

variable {α : Type*} {x y s t : List α} {a : α}

/-- **Joined texts** are equal for equal pairs, and where one of the first parts goes on after the other one with a separator
and a piece that the other's second part begins with. -/
theorem joined_eq_iff :
    x ++ a :: s = y ++ a :: t ↔
      x = y ∧ s = t ∨ (∃ w, y = x ++ a :: w ∧ s = w ++ a :: t) ∨ ∃ w, x = y ++ a :: w ∧ t = w ++ a :: s := by
  refine ⟨fun h => ?_, ?_⟩
  · rcases List.append_eq_append_iff.1 h with ⟨m, rfl, hm⟩ | ⟨m, rfl, hm⟩
    · rcases List.cons_eq_append_iff.1 hm with ⟨rfl, hs⟩ | ⟨w, rfl, hs⟩
      · obtain ⟨-, rfl⟩ := List.cons.inj hs
        exact Or.inl ⟨(List.append_nil x).symm, rfl⟩
      · exact Or.inr (Or.inl ⟨w, rfl, hs⟩)
    · rcases List.cons_eq_append_iff.1 hm with ⟨rfl, ht⟩ | ⟨w, rfl, ht⟩
      · obtain ⟨-, rfl⟩ := List.cons.inj ht
        exact Or.inl ⟨List.append_nil y, rfl⟩
      · exact Or.inr (Or.inr ⟨w, rfl, ht⟩)
  · rintro (⟨rfl, rfl⟩ | ⟨w, rfl, rfl⟩ | ⟨w, rfl, rfl⟩)
    · rfl
    · rw [List.append_assoc, List.cons_append]
    · rw [List.append_assoc, List.cons_append]

/-- a text cut at the first occurrence of a character -/
theorem append_cons_inj_of_notMem_left (hx : a ∉ x) (hy : a ∉ y) (h : x ++ a :: s = y ++ a :: t) : x = y ∧ s = t := by
  rcases joined_eq_iff.1 h with heq | ⟨w, rfl, -⟩ | ⟨w, rfl, -⟩
  · exact heq
  · exact absurd (List.mem_append_right x List.mem_cons_self) hy
  · exact absurd (List.mem_append_right y List.mem_cons_self) hx

/-- a text cut at the last occurrence of a character -/
theorem append_cons_inj_of_notMem_right (hs : a ∉ s) (ht : a ∉ t) (h : x ++ a :: s = y ++ a :: t) : x = y ∧ s = t := by
  rcases joined_eq_iff.1 h with heq | ⟨w, -, rfl⟩ | ⟨w, -, rfl⟩
  · exact heq
  · exact absurd (List.mem_append_right w List.mem_cons_self) hs
  · exact absurd (List.mem_append_right w List.mem_cons_self) ht

end DrasiPlatform.Separators
