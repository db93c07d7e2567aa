/-
Sequences of writes to a keyed store: the last write to a key wins, a key that is not written keeps its value.
-/
import Mathlib.Tactic

namespace DrasiPlatform.Writes

variable {K V : Type*} [DecidableEq K]

/-- the writes one after the other -/
def apply (f : K → V) (ws : List (K × V)) : K → V := ws.foldl (fun f w => Function.update f w.1 w.2) f

/-- the last value written to `k` -/
def last (k : K) : List (K × V) → Option V
  | [] => none
  | w :: ws => (last k ws).or (if w.1 = k then some w.2 else none)

theorem last_append (k : K) (ws ws' : List (K × V)) : last k (ws ++ ws') = (last k ws').or (last k ws) := by
  induction ws with
  | nil => simp [last]
  | cons w ws ih => rw [List.cons_append, last, last, ih, Option.or_assoc]

/-- **The last write wins.** -/
theorem apply_eq (f : K → V) (ws : List (K × V)) (k : K) : apply f ws k = (last k ws).getD (f k) := by
  induction ws generalizing f with
  | nil => rfl
  | cons w ws ih =>
    have hcons : apply f (w :: ws) = apply (Function.update f w.1 w.2) ws := rfl
    rw [hcons, ih, last]
    by_cases h : w.1 = k
    · subst h; cases last w.1 ws <;> simp
    · have h' : k ≠ w.1 := fun e => h e.symm
      cases last k ws <;> simp [h, Function.update_of_ne h']

theorem last_eq_none_iff (k : K) (ws : List (K × V)) : last k ws = none ↔ ∀ w ∈ ws, w.1 ≠ k := by
  induction ws with
  | nil => simp [last]
  | cons w ws ih => by_cases h : w.1 = k <;> simp [last, ih, h]

theorem exists_last_iff (k : K) (ws : List (K × V)) : (∃ v, last k ws = some v) ↔ k ∈ ws.map Prod.fst := by
  rw [← Option.ne_none_iff_exists', Ne, last_eq_none_iff]
  simp

theorem mem_of_last {k : K} {v : V} {ws : List (K × V)} (h : last k ws = some v) : (k, v) ∈ ws := by
  induction ws with
  | nil => cases h
  | cons w ws ih =>
    rcases Option.or_eq_some_iff.1 h with hlast | ⟨-, hw⟩
    · exact List.mem_cons_of_mem w (ih hlast)
    · split at hw
      · rename_i hk
        cases hw
        exact hk ▸ List.mem_cons_self
      · cases hw

/-- the last write is the last one, whatever is made of the values -/
theorem last_map_value {W : Type*} (k : K) (g : V → W) (ws : List (K × V)) :
    last k (ws.map fun w => (w.1, g w.2)) = (last k ws).map g := by
  induction ws with
  | nil => rfl
  | cons w ws ih =>
    rw [List.map_cons, last, last, ih]
    cases last k ws with
    | some v => rfl
    | none => by_cases h : w.1 = k <;> simp [h]

/-- the writes hide what is below them: two stores that agree on the keys that are not written agree after the writes -/
theorem apply_congr {f g : K → V} {ws : List (K × V)} (h : ∀ k, (∀ w ∈ ws, w.1 ≠ k) → f k = g k) :
    apply f ws = apply g ws := by
  funext k
  rw [apply_eq, apply_eq]
  rcases hl : last k ws with _ | v
  · exact h k ((last_eq_none_iff k ws).1 hl)
  · rfl

theorem apply_append (f : K → V) (ws ws' : List (K × V)) : apply f (ws ++ ws') = apply (apply f ws) ws' := by
  simp [apply, List.foldl_append]

/-- writes of one value `v` to the keys of a list -/
theorem last_const (k : K) (v : V) {ι : Type*} (key : ι → K) (l : List ι) :
    last k (l.map fun i => (key i, v)) = if ∃ i ∈ l, key i = k then some v else none := by
  induction l with
  | nil => simp [last]
  | cons i l ih => by_cases h : key i = k <;> by_cases h' : ∃ j ∈ l, key j = k <;> simp [last, ih, h, h']

/-- writes to pairwise different keys: each one stays -/
theorem last_map_of_mem {k : K} {ι : Type*} {key : ι → K} {v : ι → V} {l : List ι} {i : ι} (hi : i ∈ l) (hk : key i = k)
    (huniq : ∀ j ∈ l, key j = k → j = i) : last k (l.map fun j => (key j, v j)) = some (v i) := by
  induction l with
  | nil => simp at hi
  | cons j l ih =>
    rw [List.map_cons, last]
    by_cases hl : i ∈ l
    · rw [ih hl fun j' hj' => huniq j' (List.mem_cons_of_mem j hj'), Option.some_or]
    · have hij : j = i := ((List.mem_cons.1 hi).resolve_right hl).symm
      have hnone : last k (l.map fun j => (key j, v j)) = none := by
        rw [last_eq_none_iff]
        rintro w hw rfl
        obtain ⟨j', hj', rfl⟩ := List.mem_map.1 hw
        exact hl (huniq j' (List.mem_cons_of_mem j hj') rfl ▸ hj')
      rw [hnone, hij, if_pos hk, Option.none_or]

theorem last_map_of_notMem {k : K} {ι : Type*} {key : ι → K} {v : ι → V} {l : List ι} (h : ∀ i ∈ l, key i ≠ k) :
    last k (l.map fun i => (key i, v i)) = none := by
  rw [last_eq_none_iff]
  rintro w hw
  obtain ⟨i, hi, rfl⟩ := List.mem_map.1 hw
  exact h i hi

/-! ### Batches of writes -/

/-- the last write to `k` comes from the last batch that writes `k` -/
theorem last_flatMap_eq_some {ι : Type*} {w : ι → List (K × V)} {k : K} {l : List ι} {v : V} :
    last k (l.flatMap w) = some v ↔
      ∃ pre i post, l = pre ++ i :: post ∧ last k (w i) = some v ∧ ∀ j ∈ post, last k (w j) = none := by
  induction l with
  | nil => simp [last]
  | cons i l ih =>
    rw [List.flatMap_cons, last_append, Option.or_eq_some_iff, ih]
    constructor
    · rintro (⟨pre, j, post, rfl, hj⟩ | ⟨hl, hi⟩)
      · exact ⟨i :: pre, j, post, rfl, hj⟩
      · refine ⟨[], i, l, rfl, hi, fun j hj => (last_eq_none_iff k _).2 fun x hx => ?_⟩
        exact (last_eq_none_iff k _).1 hl x (List.mem_flatMap.2 ⟨j, hj, hx⟩)
    · rintro ⟨pre, j, post, hl, hj, hpost⟩
      cases pre with
      | nil =>
        obtain ⟨rfl, rfl⟩ := List.cons.inj hl
        refine .inr ⟨(last_eq_none_iff k _).2 fun x hx => ?_, hj⟩
        obtain ⟨j, hmem, hx⟩ := List.mem_flatMap.1 hx
        exact (last_eq_none_iff k _).1 (hpost j hmem) x hx
      | cons i' pre =>
        obtain ⟨rfl, rfl⟩ := List.cons.inj hl
        exact .inl ⟨pre, j, post, rfl, hj, hpost⟩

/-- after every batch there is one of each greater number: the last batches of the numbers are in order -/
def LastInOrder {ι : Type*} (num : ι → ℕ) (l : List ι) : Prop :=
  ∀ pre i post, l = pre ++ i :: post → ∀ j ∈ l, num i < num j → ∃ j' ∈ post, num j' = num j

theorem lastInOrder_of_pairwise {ι : Type*} {num : ι → ℕ} {l : List ι} (h : l.Pairwise fun i j => num i < num j) :
    LastInOrder num l := by
  rintro pre i post rfl j hj hlt
  obtain ⟨-, hpost, hpre⟩ := List.pairwise_append.1 h
  rcases List.mem_append.1 hj with hmem | hmem
  · exact absurd (hpre j hmem i List.mem_cons_self) (lt_asymm hlt)
  · rcases List.mem_cons.1 hmem with rfl | hmem
    · exact absurd hlt (lt_irrefl _)
    · exact ⟨j, hmem, rfl⟩

theorem last_flatMap_of_lastInOrder {ι : Type*} {w : ι → List (K × V)} {num : ι → ℕ} {l l' : List ι} {k : K} {v : V}
    (hsame : ∀ i ∈ l, ∀ i' ∈ l', num i = num i' → w i = w i') (hl : LastInOrder num l) (hl' : LastInOrder num l')
    (hsub : ∀ i ∈ l, ∃ i' ∈ l', num i' = num i) (hsup : ∀ i' ∈ l', ∃ i ∈ l, num i = num i')
    (h : last k (l.flatMap w) = some v) : last k (l'.flatMap w) = some v := by
  obtain ⟨pre, i, post, hsplit, hi, hpost⟩ := last_flatMap_eq_some.1 h
  have hmem : i ∈ l := by simp [hsplit]
  obtain ⟨i', hi', hnum⟩ := hsub i hmem
  have hwrites : last k (l'.flatMap w) ≠ none := by
    intro hnone
    have hi'none : last k (w i') = none := (last_eq_none_iff k _).2 fun x hx =>
      (last_eq_none_iff k _).1 hnone x (List.mem_flatMap.2 ⟨i', hi', hx⟩)
    rw [← hsame i hmem i' hi' hnum.symm, hi] at hi'none
    cases hi'none
  obtain ⟨v', hv'⟩ := Option.ne_none_iff_exists'.1 hwrites
  obtain ⟨pre', j, post', hsplit', hj, hpost'⟩ := last_flatMap_eq_some.1 hv'
  have hmemj : j ∈ l' := by simp [hsplit']
  rcases lt_trichotomy (num i) (num j) with hlt | heq | hgt
  · obtain ⟨a, ha, hnuma⟩ := hsup j hmemj
    obtain ⟨b, hb, hnumb⟩ := hl pre i post hsplit a ha (hnuma ▸ hlt)
    have hbl : b ∈ l := by simp [hsplit, hb]
    have hnone := hpost b hb
    rw [hsame b hbl j hmemj (hnumb.trans hnuma), hj] at hnone
    cases hnone
  · rw [hv', ← hj, ← hsame i hmem j hmemj heq, hi]
  · obtain ⟨b, hb, hnumb⟩ := hl' pre' j post' hsplit' i' hi' (hnum ▸ hgt)
    have hbl : b ∈ l' := by simp [hsplit', hb]
    have hnone := hpost' b hb
    rw [← hsame i hmem b hbl (hnum.symm.trans hnumb.symm), hi] at hnone
    cases hnone

/-- **Two schedules of the same batches.** Batches of one number write alike, and in both lists the last batches of the
numbers are in order: then the last writes are the same. -/
theorem last_flatMap_congr {ι : Type*} {w : ι → List (K × V)} {num : ι → ℕ} {l l' : List ι}
    (hsame : ∀ i ∈ l, ∀ i' ∈ l', num i = num i' → w i = w i') (hl : LastInOrder num l) (hl' : LastInOrder num l')
    (hsub : ∀ i ∈ l, ∃ i' ∈ l', num i' = num i) (hsup : ∀ i' ∈ l', ∃ i ∈ l, num i = num i') (k : K) :
    last k (l.flatMap w) = last k (l'.flatMap w) := by
  refine Option.ext fun v => ⟨last_flatMap_of_lastInOrder hsame hl hl' hsub hsup, ?_⟩
  exact last_flatMap_of_lastInOrder (fun i' hi' i hi h => (hsame i hi i' hi' h.symm).symm) hl' hl hsup hsub

end DrasiPlatform.Writes
