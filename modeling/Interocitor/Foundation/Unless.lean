import Interocitor.Foundation.GuardedRuns

/-!
# What holds until something happens

A system takes steps by a partial function of its state and an event.  Something that is owed in a
state (a message that has to be delivered, a replay that has to be made) is not there for ever: it
goes away when it is done, or when the system is stopped.  So it is no invariant, and what one wants
to say of a run is that the thing is still owed at its end unless something happened on the way.

The thing that is owed may be handed on: from a queue to a timer, from the timer to a flag.  Each
step has to be looked at for the place where it is then, and the run for none of them.

* `Occurs`: some step of a run meets a condition.
* `Keeps`: one step of a system keeps a predicate unless it meets a condition.
* `Keeps.run`: the same for a run.
* `Keeps.handover`: a thing that is always in one of several places.
-/

namespace Unless

open GuardedRuns

variable {σ ε ι : Type*} {step : σ → ε → Option σ}

/-- Some step of the run from a state along a list of events meets `Q`. -/
def Occurs (step : σ → ε → Option σ) (Q : σ → ε → Prop) : σ → List ε → Prop
  | _, [] => False
  | s, e :: es => Q s e ∨ ∃ s', step s e = some s' ∧ Occurs step Q s' es

/-- Where `I` holds, a step from `P` meets `Q` or ends in `P`. -/
def Keeps (step : σ → ε → Option σ) (I P : σ → Prop) (Q : σ → ε → Prop) : Prop :=
  ∀ ⦃s e s'⦄, I s → P s → step s e = some s' → Q s e ∨ P s'

variable {I P P' : σ → Prop} {Q Q' : σ → ε → Prop} {s s' : σ} {es : List ε}

theorem Occurs.mono (hQ : ∀ s e, Q s e → Q' s e) (h : Occurs step Q s es) :
    Occurs step Q' s es := by
  induction es generalizing s with
  | nil => exact h
  | cons e es ih =>
    rcases h with h | ⟨s', hs, h⟩
    · exact .inl (hQ s e h)
    · exact .inr ⟨s', hs, ih h⟩

theorem run_append_iff {es' : List ε} {s'' : σ} : run step s (es ++ es') = some s'' ↔
    ∃ s', run step s es = some s' ∧ run step s' es' = some s'' := by
  induction es generalizing s with
  | nil =>
    refine ⟨fun h => ⟨s, rfl, h⟩, ?_⟩
    rintro ⟨s', hs', h⟩
    obtain rfl := Option.some.inj hs'
    exact h
  | cons e es ih =>
    rw [List.cons_append, run, run]
    cases hs : step s e with
    | none => simp
    | some s₁ => exact ih

theorem invariant_run (hI : ∀ ⦃s e s'⦄, I s → step s e = some s' → I s') (hs : I s)
    (hrun : run step s es = some s') : I s' := by
  induction es generalizing s with
  | nil =>
    obtain rfl := Option.some.inj hrun
    exact hs
  | cons e es ih =>
    obtain ⟨s₁, hs₁, hrest⟩ := Option.bind_eq_some_iff.mp hrun
    exact ih (hI hs hs₁) hrest

/-- **Runs.**  What every step keeps unless it meets a condition is there at the end of a run unless
one of its steps did. -/
theorem Keeps.run (h : Keeps step I P Q) (hI : ∀ ⦃s e s'⦄, I s → step s e = some s' → I s')
    (hs : I s) (hP : P s) (hrun : run step s es = some s') : Occurs step Q s es ∨ P s' := by
  induction es generalizing s with
  | nil =>
    obtain rfl := Option.some.inj hrun
    exact .inr hP
  | cons e es ih =>
    obtain ⟨s₁, hs₁, hrest⟩ := Option.bind_eq_some_iff.mp hrun
    rcases h hs hP hs₁ with hQ | hP₁
    · exact .inl (.inl hQ)
    · rcases ih (hI hs hs₁) hP₁ hrest with hocc | hP'
      · exact .inl (.inr ⟨s₁, hs₁, hocc⟩)
      · exact .inr hP'

/-- **Handing on.**  A thing that is in one place and that every step leaves in some place is
kept. -/
theorem Keeps.handover {place : ι → σ → Prop}
    (h : ∀ i, ∀ ⦃s e s'⦄, I s → place i s → step s e = some s' → Q s e ∨ ∃ j, place j s') :
    Keeps step I (fun s => ∃ i, place i s) Q := by
  rintro s e s' hs ⟨i, hi⟩ hstep
  exact h i hs hi hstep

end Unless
