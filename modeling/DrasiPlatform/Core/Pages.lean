/-
Listings that come page by page and may fail at any of them, and loops over what they bring.

A listing is the pages that are answered, one after the other; a page that fails leaves the rest of the contents unlisted. A
loop runs a body for each item: the body makes its outputs, and the first error of a body or of a page ends the loop with
what there is.

- `forEach_length_eq_iff`: a loop whose body is bounded makes all it can exactly when nothing is left unlisted and every
  item makes all it can.
- `forEach_eq`: then its outputs are those of the items.
-/
import Mathlib.Tactic

namespace DrasiPlatform

variable {ε α β : Type}

/-- the answers to the calls of a listing -/
inductive Pages (ε α : Type) where
  /-- a call that fails, with what is not listed because of it -/
  | failed (error : ε) (left : List α)
  | last (items : List α)
  | more (items : List α) (next : Pages ε α)

namespace Pages

/-- what there is to list -/
def contents : Pages ε α → List α
  | failed _ left => left
  | last items => items
  | more items next => items ++ next.contents

/-- what is left when a page fails -/
def left : Pages ε α → List α
  | failed _ left => left
  | last _ => []
  | more _ next => next.left

/-! ## Loops -/

/-- outputs, and how it ended -/
abbrev Outputs (ε β : Type) := List β × Except ε Unit

/-- goes on, unless there was an error -/
def andThen (first next : Outputs ε β) : Outputs ε β :=
  match first.2 with
  | .error e => (first.1, .error e)
  | .ok _ => (first.1 ++ next.1, next.2)

/-- the body `f`, item by item -/
def forEachIn (f : α → Outputs ε β) : List α → Outputs ε β
  | [] => ([], .ok ())
  | a :: l => andThen (f a) (forEachIn f l)

/-- the body `f` for the items of every page -/
def forEach (f : α → Outputs ε β) : Pages ε α → Outputs ε β
  | failed e _ => ([], .error e)
  | last items => forEachIn f items
  | .more items next => andThen (forEachIn f items) (next.forEach f)

theorem andThen_of_ok {first : Outputs ε β} (h : first.2 = .ok ()) (next : Outputs ε β) :
    andThen first next = (first.1 ++ next.1, next.2) := by
  rw [andThen, h]

theorem mem_andThen {first next : Outputs ε β} {b : β} (h : b ∈ (andThen first next).1) : b ∈ first.1 ∨ b ∈ next.1 := by
  unfold andThen at h
  split at h
  · exact .inl h
  · exact List.mem_append.1 h

variable {f : α → Outputs ε β}

theorem forEachIn_eq {l : List α} (hok : ∀ a ∈ l, (f a).2 = .ok ()) :
    forEachIn f l = (l.flatMap fun a => (f a).1, .ok ()) := by
  induction l with
  | nil => rfl
  | cons a l ih =>
    obtain ⟨ha, hl⟩ := List.forall_mem_cons.1 hok
    rw [forEachIn, andThen_of_ok ha, ih hl, List.flatMap_cons]

/-- **A loop that is not cut short makes the outputs of its items.** -/
theorem forEach_eq {pages : Pages ε α} (hleft : pages.left = []) (hok : ∀ a ∈ pages.contents, (f a).2 = .ok ()) :
    (pages.forEach f).1 = pages.contents.flatMap fun a => (f a).1 := by
  induction pages with
  | failed e left =>
    obtain rfl : left = [] := hleft
    rfl
  | last items => exact congrArg Prod.fst (forEachIn_eq hok)
  | more items next ih =>
    rw [contents, List.forall_mem_append] at hok
    rw [forEach, forEachIn_eq hok.1, andThen_of_ok rfl, ih hleft hok.2, contents, List.flatMap_append]

theorem mem_forEachIn {l : List α} {b : β} (h : b ∈ (forEachIn f l).1) : ∃ a ∈ l, b ∈ (f a).1 := by
  induction l with
  | nil => cases h
  | cons a l ih =>
    rcases mem_andThen h with ha | hl
    · exact ⟨a, List.mem_cons_self, ha⟩
    · obtain ⟨a', ha', hb⟩ := ih hl
      exact ⟨a', List.mem_cons_of_mem a ha', hb⟩

/-- nothing is made but from the contents -/
theorem mem_forEach {pages : Pages ε α} {b : β} (h : b ∈ (pages.forEach f).1) : ∃ a ∈ pages.contents, b ∈ (f a).1 := by
  induction pages with
  | failed e left => cases h
  | last items => exact mem_forEachIn h
  | more items next ih =>
    rcases mem_andThen h with hitems | hnext
    · obtain ⟨a, ha, hb⟩ := mem_forEachIn hitems
      exact ⟨a, List.mem_append_left _ ha, hb⟩
    · obtain ⟨a, ha, hb⟩ := ih hnext
      exact ⟨a, List.mem_append_right _ ha, hb⟩

/-! ## Loops that make all they can -/

/-- at most `n` outputs, and less after an error -/
structure Fits (r : Outputs ε β) (n : ℕ) : Prop where
  le : r.1.length ≤ n
  lt_of_error : ∀ e, r.2 = .error e → r.1.length < n

theorem Fits.ok_of_full {r : Outputs ε β} {n : ℕ} (h : Fits r n) (hfull : r.1.length = n) : r.2 = .ok () := by
  cases hr : r.2 with
  | error e => exact absurd hfull (h.lt_of_error e hr).ne
  | ok => rfl

section AndThen

variable {first next : Outputs ε β} {m n : ℕ}

theorem Fits.andThen (hfirst : Fits first m) (hnext : Fits next n) : Fits (andThen first next) (m + n) := by
  have hle := hfirst.le
  have hle' := hnext.le
  unfold Pages.andThen
  split
  · next e he =>
    have hlt := hfirst.lt_of_error e he
    exact ⟨Nat.le_add_right_of_le hle, fun _ _ => Nat.lt_add_right n hlt⟩
  · refine ⟨by rw [List.length_append]; omega, fun e he => ?_⟩
    have hlt := hnext.lt_of_error e he
    rw [List.length_append]
    omega

theorem length_andThen_le (hfirst : first.1.length ≤ m) (hnext : next.1.length ≤ n) :
    (andThen first next).1.length ≤ m + n := by
  unfold andThen
  split
  · exact Nat.le_add_right_of_le hfirst
  · rw [List.length_append]
    omega

/-- both parts are full where the whole is -/
theorem full_of_andThen (hfirst : Fits first m) (hnext : next.1.length ≤ n)
    (hfull : (andThen first next).1.length = m + n) : first.1.length = m ∧ next.1.length = n := by
  have hle := hfirst.le
  unfold andThen at hfull
  split at hfull
  · next e he =>
    have hlt := hfirst.lt_of_error e he
    simp only at hfull
    omega
  · rw [List.length_append] at hfull
    omega

end AndThen

variable {w : α → ℕ}

theorem fits_forEachIn (h : ∀ a, Fits (f a) (w a)) (l : List α) : Fits (forEachIn f l) (l.map w).sum := by
  induction l with
  | nil => exact ⟨le_rfl, fun e he => by cases he⟩
  | cons a l ih =>
    rw [List.map_cons, List.sum_cons]
    exact (h a).andThen ih

theorem full_of_forEachIn (h : ∀ a, Fits (f a) (w a)) {l : List α} (hfull : (forEachIn f l).1.length = (l.map w).sum) :
    ∀ a ∈ l, (f a).1.length = w a := by
  induction l with
  | nil =>
    intro a ha
    cases ha
  | cons a l ih =>
    rw [List.map_cons, List.sum_cons] at hfull
    obtain ⟨ha, hl⟩ := full_of_andThen (h a) (fits_forEachIn h l).le hfull
    exact List.forall_mem_cons.2 ⟨ha, ih hl⟩

theorem length_forEach_le (h : ∀ a, Fits (f a) (w a)) (pages : Pages ε α) :
    (pages.forEach f).1.length ≤ (pages.contents.map w).sum := by
  induction pages with
  | failed e left => exact Nat.zero_le _
  | last items => exact (fits_forEachIn h items).le
  | more items next ih =>
    rw [contents, List.map_append, List.sum_append]
    exact length_andThen_le (fits_forEachIn h items).le ih

/-- **A loop makes all it can** exactly when nothing is left unlisted and every item makes all it can. -/
theorem forEach_length_eq_iff (h : ∀ a, Fits (f a) (w a)) (hpos : ∀ a, 0 < w a) (pages : Pages ε α) :
    (pages.forEach f).1.length = (pages.contents.map w).sum ↔
      pages.left = [] ∧ ∀ a ∈ pages.contents, (f a).1.length = w a := by
  constructor
  · intro hfull
    induction pages with
    | failed e left =>
      cases left with
      | nil => exact ⟨rfl, fun a ha => by cases ha⟩
      | cons a left =>
        have ha := hpos a
        simp only [forEach, contents, List.length_nil, List.map_cons, List.sum_cons] at hfull
        omega
    | last items => exact ⟨rfl, full_of_forEachIn h hfull⟩
    | more items next ih =>
      rw [contents, List.map_append, List.sum_append] at hfull
      obtain ⟨hitems, hnext⟩ := full_of_andThen (fits_forEachIn h items) (length_forEach_le h next) hfull
      obtain ⟨hleft, hall⟩ := ih hnext
      exact ⟨hleft, List.forall_mem_append.2 ⟨full_of_forEachIn h hitems, hall⟩⟩
  · rintro ⟨hleft, hall⟩
    rw [forEach_eq hleft fun a ha => (h a).ok_of_full (hall a ha), List.length_flatMap, List.map_congr_left hall]

end Pages

end DrasiPlatform
