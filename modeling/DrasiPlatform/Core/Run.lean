/-
Runs of a deterministic step function over a list of operations. Every component of the platform is modelled as a state
with a step function; the operations of one list are the interleaving, with the outcome of each remote call carried by
the operation itself.

`Meets ok s ops` says that every step of the run from `s` meets `ok`, a condition on the state before the step and the
operation. `Meets.inv` is the induction all safety results use: what one step that meets the condition preserves, a whole
run of such steps preserves. With `ok` always true it is the plain invariant rule (`run_inv`).

`Throughout P s ops` says that `P` holds in every state of the run, the first and the last included. Where a step keeps `P`
exactly when it meets `ok`, a run has `P` throughout exactly when all of its steps meet `ok` (`throughout_iff_meets`).
-/
import Mathlib.Tactic

namespace DrasiPlatform.Run

variable {S O : Type*} {step : S → O → S} {ok : S → O → Prop} {Inv : S → Prop}

/-- the state after the operations `ops` -/
def run (step : S → O → S) (s : S) (ops : List O) : S := ops.foldl step s

@[simp] theorem run_nil (s : S) : run step s [] = s := rfl

@[simp] theorem run_cons (s : S) (o : O) (ops : List O) : run step s (o :: ops) = run step (step s o) ops := rfl

theorem run_append (s : S) (a b : List O) : run step s (a ++ b) = run step (run step s a) b := by
  simp [run, List.foldl_append]

/-- what every operation of the run preserves, the run preserves -/
theorem run_inv_of_mem {ops : List O} (hstep : ∀ s, ∀ o ∈ ops, Inv s → Inv (step s o)) {s : S} (h : Inv s) :
    Inv (run step s ops) := by
  induction ops generalizing s with
  | nil => exact h
  | cons o ops ih =>
    refine ih (fun s' o' ho' => hstep s' o' (List.mem_cons_of_mem o ho')) ?_
    exact hstep s o List.mem_cons_self h

/-- **Invariant rule.** What every step preserves, every run preserves. -/
theorem run_inv (hstep : ∀ s o, Inv s → Inv (step s o)) (s : S) (ops : List O) (h : Inv s) :
    Inv (run step s ops) :=
  run_inv_of_mem (fun s o _ => hstep s o) h

/-- every step of the run from `s` meets `ok` in the state before it -/
def Meets (step : S → O → S) (ok : S → O → Prop) : S → List O → Prop
  | _, [] => True
  | s, o :: ops => ok s o ∧ Meets step ok (step s o) ops

instance decidableMeets [∀ s o, Decidable (ok s o)] : (s : S) → (ops : List O) → Decidable (Meets step ok s ops)
  | _, [] => inferInstanceAs (Decidable True)
  | s, o :: ops =>
    have := decidableMeets (step s o) ops
    inferInstanceAs (Decidable (ok s o ∧ Meets step ok (step s o) ops))

theorem meets_append {s : S} {a b : List O} :
    Meets step ok s (a ++ b) ↔ Meets step ok s a ∧ Meets step ok (run step s a) b := by
  induction a generalizing s with
  | nil => simp [Meets]
  | cons o a ih => simp [Meets, ih, and_assoc]

/-- **Guarded invariant rule.** What every step that meets the condition preserves holds after every run of such
steps. -/
theorem Meets.inv {s : S} {ops : List O} (hm : Meets step ok s ops)
    (hstep : ∀ s, ∀ o ∈ ops, Inv s → ok s o → Inv (step s o)) (h : Inv s) : Inv (run step s ops) := by
  induction ops generalizing s with
  | nil => exact h
  | cons o ops ih =>
    refine ih hm.2 (fun s' o' ho' => hstep s' o' (List.mem_cons_of_mem o ho')) ?_
    exact hstep s o List.mem_cons_self h hm.1

theorem Meets.and {ok' : S → O → Prop} {s : S} {ops : List O} (hm : Meets step ok s ops) (hm' : Meets step ok' s ops) :
    Meets step (fun s o => ok s o ∧ ok' s o) s ops := by
  induction ops generalizing s with
  | nil => trivial
  | cons o ops ih => exact ⟨⟨hm.1, hm'.1⟩, ih hm.2 hm'.2⟩

/-- steps that meet the condition and keep the invariant meet what both give -/
theorem Meets.imp {ok' : S → O → Prop} {s : S} {ops : List O} (hm : Meets step ok s ops)
    (hstep : ∀ s o, Inv s → ok s o → Inv (step s o) ∧ ok' s o) (h : Inv s) : Meets step ok' s ops := by
  induction ops generalizing s with
  | nil => trivial
  | cons o ops ih =>
    obtain ⟨hinv, hok⟩ := hstep s o h hm.1
    exact ⟨hok, ih hm.2 hinv⟩

/-- a condition on the operations alone is met by a run exactly when every operation meets it -/
theorem meets_iff_forall {p : O → Prop} {s : S} {ops : List O} : Meets step (fun _ o => p o) s ops ↔ ∀ o ∈ ops, p o := by
  induction ops generalizing s with
  | nil => simp [Meets]
  | cons o ops ih => simp [Meets, ih]

variable (Inv) in
/-- two conditions that mean the same in every state the invariant allows, and that keep it, hold of the same runs -/
theorem meets_congr {ok' : S → O → Prop} (hok : ∀ s o, Inv s → (ok s o ↔ ok' s o))
    (hstep : ∀ s o, Inv s → ok s o → Inv (step s o)) {s : S} (h : Inv s) (ops : List O) :
    Meets step ok s ops ↔ Meets step ok' s ops := by
  induction ops generalizing s with
  | nil => rfl
  | cons o ops ih =>
    constructor
    · rintro ⟨ho, hops⟩
      exact ⟨(hok s o h).1 ho, (ih (hstep s o h ho)).1 hops⟩
    · rintro ⟨ho, hops⟩
      have ho' : ok s o := (hok s o h).2 ho
      exact ⟨ho', (ih (hstep s o h ho')).2 hops⟩

/-! ## Properties of every state of a run -/

variable {P : S → Prop} {legal : S → O → Prop}

/-- `P` holds in every state of the run from `s` -/
def Throughout (step : S → O → S) (P : S → Prop) : S → List O → Prop
  | s, [] => P s
  | s, o :: ops => P s ∧ Throughout step P (step s o) ops

theorem Throughout.head {s : S} {ops : List O} (h : Throughout step P s ops) : P s := by
  cases ops with
  | nil => exact h
  | cons o ops => exact h.1

theorem throughout_iff_run {s : S} {ops : List O} :
    Throughout step P s ops ↔ ∀ pre, pre <+: ops → P (run step s pre) := by
  induction ops generalizing s with
  | nil =>
    constructor
    · intro h pre hpre
      rw [List.prefix_nil.1 hpre]
      exact h
    · intro h
      exact h [] (List.prefix_refl [])
  | cons o ops ih =>
    constructor
    · rintro ⟨hs, hops⟩ pre hpre
      cases pre with
      | nil => exact hs
      | cons o' pre =>
        obtain ⟨rfl, hrest⟩ := List.cons_prefix_cons.1 hpre
        exact ih.1 hops pre hrest
    · intro h
      refine ⟨h [] List.nil_prefix, ih.2 fun pre hpre => ?_⟩
      exact h (o :: pre) (List.cons_prefix_cons.2 ⟨rfl, hpre⟩)

theorem Throughout.last {s : S} {ops : List O} (h : Throughout step P s ops) : P (run step s ops) :=
  throughout_iff_run.1 h ops (List.prefix_refl ops)

theorem Throughout.imp {Q : S → Prop} (hPQ : ∀ s, P s → Q s) {s : S} {ops : List O} (h : Throughout step P s ops) :
    Throughout step Q s ops :=
  throughout_iff_run.2 fun pre hpre => hPQ _ (throughout_iff_run.1 h pre hpre)

/-- what every step that meets the condition preserves holds in every state of a run of such steps -/
theorem Meets.throughout {s : S} {ops : List O} (hm : Meets step ok s ops)
    (hstep : ∀ s o, Inv s → ok s o → Inv (step s o)) (h : Inv s) : Throughout step Inv s ops := by
  induction ops generalizing s with
  | nil => exact h
  | cons o ops ih => exact ⟨h, ih hm.2 (hstep s o h hm.1)⟩

variable (Inv) in
/-- **Exact-condition rule.** If legal steps keep the invariant, and from a state with `P` they reach one with `P` exactly
when they meet `ok`, then a legal run has `P` throughout exactly when all of its steps meet `ok`. -/
theorem throughout_iff_meets (hinv : ∀ s o, Inv s → legal s o → Inv (step s o))
    (hok : ∀ s o, Inv s → legal s o → P s → (P (step s o) ↔ ok s o)) {s : S} (h : Inv s) (hs : P s) {ops : List O}
    (hl : Meets step legal s ops) : Throughout step P s ops ↔ Meets step ok s ops := by
  induction ops generalizing s with
  | nil => exact iff_of_true hs trivial
  | cons o ops ih =>
    obtain ⟨ho, hops⟩ := hl
    have hP : P (step s o) ↔ ok s o := hok s o h ho hs
    constructor
    · rintro ⟨-, hrest⟩
      have hs' : P (step s o) := hrest.head
      exact ⟨hP.1 hs', (ih (hinv s o h ho) hs' hops).1 hrest⟩
    · rintro ⟨hok', hrest⟩
      have hs' : P (step s o) := hP.2 hok'
      exact ⟨hs, (ih (hinv s o h ho) hs' hops).2 hrest⟩

end DrasiPlatform.Run
