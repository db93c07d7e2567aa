/-
A sequential stream: a log of which a prefix is acknowledged. `recv` returns the first entry that is not, `ack` moves it to
the acknowledged ones, `publish` appends. Nothing is ever lost, reordered or duplicated (`run_log`), so an implementation
that refines it inherits this.
-/
import Mathlib.Tactic
import DrasiPlatform.Core.Run

namespace DrasiPlatform

/-- the acknowledged entries and those that wait, in the order of the log -/
@[ext] structure Sequential (E : Type) where
  acked : List E
  waiting : List E
deriving DecidableEq

namespace Sequential

variable {E : Type}

inductive Op (E : Type) where
  | publish (e : E)
  | ack

def step (s : Sequential E) : Op E → Sequential E
  | .publish e => { s with waiting := s.waiting ++ [e] }
  | .ack =>
    match s.waiting with
    | [] => s
    | e :: rest => ⟨s.acked ++ [e], rest⟩

/-- the entry that `recv` returns -/
def recv (s : Sequential E) : Option E := s.waiting.head?

/-- the whole log -/
def log (s : Sequential E) : List E := s.acked ++ s.waiting

/-- the entries an operation publishes -/
def Op.published : Op E → List E
  | .publish e => [e]
  | .ack => []

theorem step_log (s : Sequential E) (op : Op E) : (step s op).log = s.log ++ op.published := by
  cases op with
  | publish e => simp [step, log, Op.published]
  | ack =>
    simp only [step]
    split
    · simp [log, Op.published]
    · rename_i e rest hw
      simp [log, Op.published, hw]

/-- **The log only grows**, by what is published and in its order. -/
theorem run_log (s : Sequential E) (ops : List (Op E)) :
    (Run.run step s ops).log = s.log ++ ops.flatMap Op.published := by
  induction ops generalizing s with
  | nil => simp
  | cons op ops ih => rw [Run.run_cons, ih, step_log, List.flatMap_cons, List.append_assoc]

theorem run_publish (s : Sequential E) (es : List E) :
    Run.run step s (es.map .publish) = { s with waiting := s.waiting ++ es } := by
  induction es generalizing s with
  | nil => simp
  | cons e es ih => rw [List.map_cons, Run.run_cons, ih]; simp [step]

end Sequential

end DrasiPlatform
