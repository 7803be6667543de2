import Mathlib.Logic.Basic

/-!
# Runs whose steps meet a condition

A system takes steps by a partial function of its state and an event.  What may be promised of
its runs often depends on how the steps were taken: `ok s e` is the condition on a step, and
`Reached ok` are the states at the ends of the runs all of whose steps meet it.

* `Reached.invariant`: what one step keeps, if it meets the condition, holds after every run.
* `Reached.run`, `Reached.checked`: runs by evaluation.
-/

namespace GuardedRuns

variable {σ ε : Type*} (start : σ) (step : σ → ε → Option σ) (ok : σ → ε → Prop)

/-- The states at the ends of runs from `start` whose steps all meet `ok`. -/
inductive Reached : σ → Prop
  | start : Reached start
  | step {s s' : σ} {e : ε} (h : Reached s) (hstep : step s e = some s') (hok : ok s e) : Reached s'

/-- Take the steps of a list. -/
def run : σ → List ε → Option σ
  | s, [] => some s
  | s, e :: es => (step s e).bind fun s' => run s' es

/-- All steps of a list meet the condition. -/
def AllOk : σ → List ε → Prop
  | _, [] => True
  | s, e :: es => ok s e ∧ ∀ s', step s e = some s' → AllOk s' es

variable {start step ok}

/-- **Invariants.**  What every step keeps that meets the condition holds wherever such steps
lead. -/
theorem Reached.invariant {I : σ → Prop} (hstart : I start)
    (hstep : ∀ s e s', I s → step s e = some s' → ok s e → I s') {s : σ}
    (h : Reached start step ok s) : I s := by
  induction h with
  | start => exact hstart
  | step _ hs hok ih => exact hstep _ _ _ ih hs hok

theorem Reached.run {s s' : σ} (h : Reached start step ok s) (es : List ε)
    (hok : AllOk step ok s es) (hrun : run step s es = some s') : Reached start step ok s' := by
  induction es generalizing s with
  | nil =>
    obtain rfl := Option.some.inj hrun
    exact h
  | cons e es ih =>
    obtain ⟨s₁, hs, hrest⟩ := Option.bind_eq_some_iff.mp hrun
    exact ih (h.step hs hok.1) (hok.2 s₁ hs) hrest

theorem Reached.checked [∀ s e, Decidable (ok s e)] {s s' : σ} (h : Reached start step ok s)
    (es : List ε) (hrun : GuardedRuns.run (fun s e => if ok s e then step s e else none) s es =
      some s') : Reached start step ok s' := by
  induction es generalizing s with
  | nil =>
    obtain rfl := Option.some.inj hrun
    exact h
  | cons e es ih =>
    obtain ⟨s₁, hs, hrest⟩ := Option.bind_eq_some_iff.mp hrun
    dsimp only at hs
    by_cases hok : ok s e
    · rw [if_pos hok] at hs
      exact ih (h.step hs hok) hrest
    · rw [if_neg hok] at hs
      exact absurd hs (by simp)

theorem allOk_of_forall {es : List ε} (h : ∀ s, ∀ e ∈ es, ok s e) (s : σ) : AllOk step ok s es := by
  induction es generalizing s with
  | nil => trivial
  | cons e es ih =>
    refine ⟨h s e List.mem_cons_self, fun s' _ => ih (fun s e he => ?_) s'⟩
    exact h s e (List.mem_cons_of_mem _ he)

end GuardedRuns
