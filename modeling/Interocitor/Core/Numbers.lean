import Interocitor.Core.Types
import Interocitor.Foundation.Decimals

/-!
# JavaScript's numbers in order

`JsNumber` has `NaN`, two infinities and a zero of each sign beside the finite numbers.  `<` and
`<=` compare the numbers on the extended line, on which the zeros are one point and `NaN` is none:
a comparison with it is false, whatever the other side.

* `extended`, `lt`, `le`, `same`: the order, and `===`.
* `isFinite`, `isZero`, `isSafeInteger`: the tests of the standard library.
* `rounded`, `parseDecimal`: the float nearest to a number, and the number at the front of a text.
* `lt_iff`, `le_iff`: what the order is on finite numbers.
-/

namespace Interocitor

open CodeUnits Decimals

namespace JsNumber

/-- The number on the extended line; `NaN` has no place there. -/
def extended : JsNumber → Option (WithBot (WithTop ℚ))
  | .nan => none
  | .posInf => some (WithBot.some (⊤ : WithTop ℚ))
  | .negInf => some ⊥
  | .negZero => some (WithBot.some (WithTop.some 0))
  | .finite q => some (WithBot.some (WithTop.some q))

/-- `a < b`. -/
def lt (a b : JsNumber) : Bool :=
  match a.extended, b.extended with
  | some x, some y => decide (x < y)
  | _, _ => false

/-- `a <= b`. -/
def le (a b : JsNumber) : Bool :=
  match a.extended, b.extended with
  | some x, some y => decide (x ≤ y)
  | _, _ => false

/-- `a === b`. -/
def same (a b : JsNumber) : Bool :=
  match a.extended, b.extended with
  | some x, some y => decide (x = y)
  | _, _ => false

/-- `Number.isFinite`. -/
def isFinite : JsNumber → Bool
  | .negZero => true
  | .finite _ => true
  | _ => false

/-- The value of a finite number. -/
def value : JsNumber → ℚ
  | .finite q => q
  | _ => 0

/-- The float nearest to a number. -/
def rounded (q : ℚ) : JsNumber :=
  if nearestFloat |q| < 2 ^ 1024 then
    .finite (if q < 0 then -nearestFloat |q| else nearestFloat |q|)
  else if q < 0 then .negInf else .posInf

/-- `parseInt(text, 10)`, of a text of any size and with either sign. -/
def parseDecimal (text : Text) : JsNumber :=
  let t := text.dropWhile isSpace
  let negative := decide (t.head? = some 45)
  let digits := leadingDigits 10 (if negative then t.tail else dropSign t)
  if digits = [] then .nan
  else if !negative then rounded (frontValue 10 digits)
  else if frontValue 10 digits = 0 then .negZero
  else rounded (-frontValue 10 digits)

/-- `n === 0`. -/
def isZero (n : JsNumber) : Bool := n.isFinite && decide (n.value = 0)

/-- `Number.MAX_SAFE_INTEGER`. -/
def maxSafeInteger : ℚ := 9007199254740991

/-- `Number.isSafeInteger`. -/
def isSafeInteger (n : JsNumber) : Bool :=
  n.isFinite && decide (n.value.den = 1) &&
    decide (-maxSafeInteger ≤ n.value ∧ n.value ≤ maxSafeInteger)

theorem extended_of_isFinite {n : JsNumber} (h : n.isFinite = true) :
    n.extended = some ((n.value : WithTop ℚ) : WithBot (WithTop ℚ)) := by
  cases n with
  | negZero => rfl
  | finite q => rfl
  | nan => exact absurd h (by simp [isFinite])
  | posInf => exact absurd h (by simp [isFinite])
  | negInf => exact absurd h (by simp [isFinite])

variable {a b : JsNumber}

theorem lt_iff (ha : a.isFinite = true) (hb : b.isFinite = true) :
    a.lt b = true ↔ a.value < b.value := by
  rw [lt, extended_of_isFinite ha, extended_of_isFinite hb]
  simp

theorem le_iff (ha : a.isFinite = true) (hb : b.isFinite = true) :
    a.le b = true ↔ a.value ≤ b.value := by
  rw [le, extended_of_isFinite ha, extended_of_isFinite hb]
  simp

theorem extended_eq_none : a.extended = none ↔ a = .nan := by
  cases a <;> simp [extended]

theorem lt_asymm (h : a.lt b = true) : b.lt a = false := by
  rw [lt] at h ⊢
  cases ha : a.extended with
  | none => cases b.extended <;> rfl
  | some x =>
    cases hb : b.extended with
    | none => rfl
    | some y =>
      rw [ha, hb] at h
      exact decide_eq_false (not_lt.mpr (le_of_lt (of_decide_eq_true h)))

theorem lt_trans {c : JsNumber} (hab : a.lt b = true) (hbc : b.lt c = true) : a.lt c = true := by
  rw [lt] at hab hbc ⊢
  cases ha : a.extended with
  | none =>
    rw [ha] at hab
    exact absurd hab (by simp)
  | some x =>
    cases hb : b.extended with
    | none =>
      rw [hb] at hbc
      exact absurd hbc (by simp)
    | some y =>
      cases hc : c.extended with
      | none =>
        rw [hb, hc] at hbc
        exact absurd hbc (by simp)
      | some z =>
        rw [ha, hb] at hab
        rw [hb, hc] at hbc
        exact decide_eq_true ((of_decide_eq_true hab).trans (of_decide_eq_true hbc))

theorem lt_congr {c d : JsNumber} (hab : a.extended = b.extended) (hcd : c.extended = d.extended) :
    a.lt c = b.lt d := by
  unfold lt
  rw [hab, hcd]

theorem same_iff : a.same b = true ↔ a ≠ .nan ∧ a.extended = b.extended := by
  rw [same, Ne, ← extended_eq_none]
  rcases a.extended with _ | x
  · simp
  · rcases b.extended with _ | y <;> simp

end JsNumber

end Interocitor
