import Mathlib.Logic.Function.Basic
import Interocitor.Foundation.Interaction

/-!
# Many programs in one world

A pool is a world with some parties in it, each of them idle or busy with a program.  In
one step a party starts a program, or the world answers the question that a busy party
waits for, or a party stops: because its program has ended, or in the middle of it, with
nothing left of it but what it did to the world.  The world may also change on its own.

Whether an invariant of the world survives all this is decided party by party.  A party may
rely on the invariant, and on those parts of the world that are its own staying the same
while it waits; in turn each of its questions has to keep the invariant and to leave the
parts of all other parties alone.

* `Pool.Reachable`: the states of a pool; `Reachable.exec` reaches one by evaluation.
* `Pool.invariant`: the rule.
-/

namespace Interaction

open Function

variable {Call : Type} {Reply : Call → Type} {σ ρ W ι : Type}

/-- A world, and what the parties are doing. -/
structure Pool (Call : Type) (Reply : Call → Type) (σ ρ W ι : Type) where
  world : W
  task : ι → Option (Prog Call Reply σ ρ)

namespace Pool

/-- The rules of a pool: which programs a party may start in a world, how the world answers
it, and how the world may change on its own. -/
structure Rules (Call : Type) (Reply : Call → Type) (σ ρ W ι : Type) where
  starts : W → ι → Prog Call Reply σ ρ → Prop
  answer : ι → W → (c : Call) → Reply c → W → Prop
  outside : W → W → Prop

variable [DecidableEq ι]

/-- One step of a pool. -/
inductive Step (R : Rules Call Reply σ ρ W ι) :
    Pool Call Reply σ ρ W ι → Pool Call Reply σ ρ W ι → Prop
  | start {P : Pool Call Reply σ ρ W ι} {i : ι} {p : Prog Call Reply σ ρ} (hidle : P.task i = none)
      (hp : R.starts P.world i p) : Step R P ⟨P.world, update P.task i (some p)⟩
  | resume {P : Pool Call Reply σ ρ W ι} {i : ι} {c : Call} {s : σ}
    {k : Reply c → Prog Call Reply σ ρ}
      {rep : Reply c} {w : W} (hask : P.task i = some (.ask c s k))
      (hans : R.answer i P.world c rep w) :
      Step R P ⟨w, update P.task i (some (k rep))⟩
  | stop {P : Pool Call Reply σ ρ W ι} (i : ι) : Step R P ⟨P.world, update P.task i none⟩
  | outside {P : Pool Call Reply σ ρ W ι} {w : W} (h : R.outside P.world w) : Step R P ⟨w, P.task⟩

/-- The states that a pool of idle parties reaches. -/
inductive Reachable (R : Rules Call Reply σ ρ W ι) (w₀ : W) : Pool Call Reply σ ρ W ι → Prop
  | start : Reachable R w₀ ⟨w₀, fun _ => none⟩
  | step {P Q : Pool Call Reply σ ρ W ι} (h : Reachable R w₀ P) (hstep : Step R P Q) :
      Reachable R w₀ Q

/-- A party that is idle may run a program to its end, if the world answers by a function. -/
theorem Reachable.exec {R : Rules Call Reply σ ρ W ι} {w₀ : W} {i : ι} {p : Prog Call Reply σ ρ}
    {P : Pool Call Reply σ ρ W ι} {reply : W → (c : Call) → Reply c × W}
    (hans : ∀ w c, R.answer i w c (reply w c).1 (reply w c).2) (h : Reachable R w₀ P)
    (hidle : P.task i = none) (hp : R.starts P.world i p) :
    Reachable R w₀ ⟨(p.exec reply P.world).2.2, P.task⟩ := by
  have hbusy : ∀ (q : Prog Call Reply σ ρ) w,
      Reachable R w₀ ⟨w, update P.task i (some q)⟩ →
      Reachable R w₀ ⟨(q.exec reply w).2.2, P.task⟩ := by
    intro q
    induction q with
    | done r s =>
      intro w hw
      have hstop := hw.step (.stop i)
      rwa [update_idem, ← hidle, update_eq_self] at hstop
    | ask c s k ih =>
      intro w hw
      have hresume := hw.step (.resume (update_self _ _ _) (hans w c))
      rw [update_idem] at hresume
      exact ih _ _ hresume
  exact hbusy p P.world (h.step (.start hidle hp))

/-- What a party relies on and owes: the invariant, and the frame `own i`. -/
def party (R : Rules Call Reply σ ρ W ι) (Inv : W → Prop) (own : ι → W → W → Prop) (i : ι) :
    Env Call Reply W where
  rely w w₁ := Inv w₁ ∧ own i w w₁
  answer := R.answer i
  guar w w₁ := Inv w₁ ∧ ∀ j, j ≠ i → own j w w₁

theorem wp_later {E : Env Call Reply W}
    (htrans : ∀ w₀ w₁ w₂, E.rely w₀ w₁ → E.rely w₁ w₂ → E.rely w₀ w₂)
    {p : Prog Call Reply σ ρ} {w w₁ : W} (h : p.wp E (fun _ _ _ => True) w) (hr : E.rely w w₁) :
    p.wp E (fun _ _ _ => True) w₁ := by
  cases p with
  | done r s => trivial
  | ask c s k =>
    intro w₂ hr₂ rep w₃ ha
    exact h w₂ (htrans w w₁ w₂ hr hr₂) rep w₃ ha

theorem forall_update {S : ι → Prog Call Reply σ ρ → Prop}
    {task : ι → Option (Prog Call Reply σ ρ)} {i : ι} {t : Option (Prog Call Reply σ ρ)}
    (ht : ∀ p, t = some p → S i p) (htask : ∀ j, j ≠ i → ∀ p, task j = some p → S j p) (j : ι)
    (p : Prog Call Reply σ ρ) (h : update task i t j = some p) : S j p := by
  by_cases hj : j = i
  · subst hj
    rw [update_self] at h
    exact ht p h
  · rw [update_of_ne hj] at h
    exact htask j hj p h

/-- **The invariant rule.**  An invariant that holds at first, that every program of every
party keeps, and that the world keeps on its own, holds in every reachable state. -/
theorem invariant {R : Rules Call Reply σ ρ W ι} {Inv : W → Prop} {own : ι → W → W → Prop}
    (hrefl : ∀ i w, own i w w) (htrans : ∀ i w₀ w₁ w₂, own i w₀ w₁ → own i w₁ w₂ → own i w₀ w₂)
    (hstart : ∀ i p w, R.starts w i p → Inv w → p.wp (party R Inv own i) (fun _ _ _ => True) w)
    (houtside : ∀ w w₁, Inv w → R.outside w w₁ → Inv w₁ ∧ ∀ i, own i w w₁)
    {w₀ : W} (h₀ : Inv w₀) {P : Pool Call Reply σ ρ W ι} (h : Reachable R w₀ P) : Inv P.world := by
  have hlater : ∀ i (p : Prog Call Reply σ ρ) w w₁, p.wp (party R Inv own i) (fun _ _ _ => True) w →
      Inv w₁ → own i w w₁ → p.wp (party R Inv own i) (fun _ _ _ => True) w₁ :=
    fun i p w w₁ hp hinv hown => wp_later (E := party R Inv own i)
      (fun w₀ w₁ w₂ h₁ h₂ => ⟨h₂.1, htrans i w₀ w₁ w₂ h₁.2 h₂.2⟩) hp ⟨hinv, hown⟩
  -- every busy party is safe, too
  suffices hall : Inv P.world ∧ ∀ i p, P.task i = some p →
      p.wp (party R Inv own i) (fun _ _ _ => True) P.world from hall.1
  induction h with
  | start => exact ⟨h₀, fun i p hp => absurd hp (by simp)⟩
  | @step P Q _ hstep ih =>
    obtain ⟨hinv, htasks⟩ := ih
    cases hstep with
    | @start i p hidle hp =>
      refine ⟨hinv, forall_update (fun q hq => ?_) fun j _ => htasks j⟩
      obtain rfl := Option.some.inj hq
      exact hstart i p P.world hp hinv
    | @resume i c s k rep w hask hans =>
      obtain ⟨⟨hinv', hown⟩, hk⟩ := htasks i _ hask P.world ⟨hinv, hrefl i _⟩ rep w hans
      refine ⟨hinv', forall_update (fun q hq => ?_) fun j hj q hq => ?_⟩
      · obtain rfl := Option.some.inj hq
        exact hk
      · exact hlater j q _ _ (htasks j q hq) hinv' (hown j hj)
    | stop i =>
      exact ⟨hinv, forall_update (fun q hq => absurd hq (by simp)) fun j _ => htasks j⟩
    | @outside w hout =>
      obtain ⟨hinv', hown⟩ := houtside _ _ hinv hout
      exact ⟨hinv', fun j q hq => hlater j q _ _ (htasks j q hq) hinv' (hown j)⟩

end Pool

end Interaction
