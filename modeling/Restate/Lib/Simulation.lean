import Mathlib.Data.List.Basic

/-! Machines driven by a list of calls, each call answering with zero or more outputs, and the
lockstep rule that compares two of them: a relation that may look at the calls still to come,
kept by every call with equal outputs, gives equal outputs over the whole run. -/

namespace Simulation

/-- The outputs of a run, in order, and the final state. -/
def run (step : σ → ι → List ω × σ) : σ → List ι → List ω × σ
  | state, [] => ([], state)
  | state, call :: calls =>
    let (outputs, next) := step state call
    let (later, final) := run step next calls
    (outputs ++ later, final)

@[simp] theorem run_nil (step : σ → ι → List ω × σ) (state : σ) : run step state [] = ([], state) := rfl

theorem run_cons (step : σ → ι → List ω × σ) (state : σ) (call : ι) (calls : List ι) :
    run step state (call :: calls) =
      ((step state call).1 ++ (run step (step state call).2 calls).1, (run step (step state call).2 calls).2) :=
  rfl

theorem run_append (step : σ → ι → List ω × σ) (state : σ) (first second : List ι) :
    run step state (first ++ second) =
      ((run step state first).1 ++ (run step (run step state first).2 second).1,
        (run step (run step state first).2 second).2) := by
  induction first generalizing state with
  | nil => rfl
  | cons call calls ih => simp [run_cons, ih]

section Lockstep

variable {σ τ ι ω : Type} (stepA : σ → ι → List ω × σ) (stepB : τ → ι → List ω × τ)

/-- A relation between the states of two machines, given the calls still to come, that every
call keeps while both machines answer it alike. -/
def Lockstep (related : σ → τ → List ι → Prop) : Prop :=
  ∀ a b call calls, related a b (call :: calls) →
    (stepA a call).1 = (stepB b call).1 ∧ related (stepA a call).2 (stepB b call).2 calls

theorem run_eq_of_lockstep {related : σ → τ → List ι → Prop} (lockstep : Lockstep stepA stepB related) :
    ∀ (calls : List ι) (a : σ) (b : τ), related a b calls → (run stepA a calls).1 = (run stepB b calls).1
  | [], _, _, _ => rfl
  | call :: calls, a, b, holds => by
    obtain ⟨same, next⟩ := lockstep a b call calls holds
    rw [run_cons, run_cons, same, run_eq_of_lockstep lockstep calls _ _ next]

end Lockstep

end Simulation
