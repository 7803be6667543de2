import Mathlib.Data.List.DropRight
import Interocitor.Core.Numbers
import Interocitor.Native.WireValues

/-!
# The `<` of JavaScript

Rows are compared with `<`, which takes values of any kind.  It turns both sides into primitive
values first: a date into its time, an array into the text of its items, an object into the text
that every object has.  Two texts are compared unit by unit; anything else is compared as numbers,
and `NaN` is neither less than a number nor greater.  So `<` is no order: two values of different
kinds are often not comparable at all, and code that takes "neither less nor greater" for "equal"
finds equal what is not.

How a number and a date are written is left to a `Platform`: the first is a matter of printing
floats, and the second depends on the time zone.

* `stringToNumber`: the number that a text spells.
* `toPrimitive`: it fails for an object with a `toString` of its own, which is data and cannot be
  called.
* `lessThan`, `compare`: the operator, and the three-way comparison that the stores make of it.
* `compare_eq`: what it comes to, kind by kind.
-/

namespace Interocitor

open CodeUnits Decimals

namespace Queries

/-! ## Numbers in texts -/

/-- A decimal digit. -/
def isDigit (u : CodeUnit) : Bool := decide (48 ≤ u.val ∧ u.val ≤ 57)

/-- The value of digits. -/
def digitsValue (radix : ℕ) (ds : Text) : ℕ := frontValue radix (leadingDigits radix ds)

/-- A sign at the front: whether it is a minus sign, and what follows. -/
def signAt : Text → Bool × Text
  | u :: t => if u = 45 then (true, t) else if u = 43 then (false, t) else (false, u :: t)
  | [] => (false, [])

/-- A power of ten that is all of a text, or nothing. -/
def exponentPart : Text → Option (Option ℤ)
  | [] => some none
  | u :: t =>
    let ds := (signAt t).2
    if (u = 101 ∨ u = 69) ∧ ds ≠ [] ∧ ds.all isDigit = true then
      some (some (sign (signAt t).1 * digitsValue 10 ds))
    else none

/-- `StrUnsignedDecimalLiteral`, but for `Infinity`. -/
def decimalLiteral (negative : Bool) (t : Text) : Option Literal :=
  let whole := t.takeWhile isDigit
  match t.dropWhile isDigit with
  | u :: t' =>
    if u = 46 then
      let fraction := t'.takeWhile isDigit
      if whole = [] ∧ fraction = [] then none
      else (exponentPart (t'.dropWhile isDigit)).map fun e =>
        ⟨negative, digitsValue 10 whole,
          if fraction = [] then none else some (digitsValue 10 fraction, fraction.length), e⟩
    else if whole = [] then none
    else (exponentPart (u :: t')).map fun e => ⟨negative, digitsValue 10 whole, none, e⟩
  | [] => if whole = [] then none else some ⟨negative, digitsValue 10 whole, none, none⟩

/-- `NonDecimalIntegerLiteral`: the radix that a text names, and its digits. -/
def radixAt : Text → Option (ℕ × Text)
  | u :: v :: t =>
    if u = 48 then
      if v = 120 ∨ v = 88 then some (16, t)
      else if v = 111 ∨ v = 79 then some (8, t)
      else if v = 98 ∨ v = 66 then some (2, t)
      else none
    else none
  | _ => none

/-- `"Infinity"`. -/
def infinityText : Text := [73, 110, 102, 105, 110, 105, 116, 121]

/-- `StringToNumber`. -/
def stringToNumber (s : Text) : JsNumber :=
  let t := (s.dropWhile isSpace).rdropWhile isSpace
  if t = [] then .finite 0
  else
    match radixAt t with
    | some (radix, ds) =>
      if ds ≠ [] ∧ (ds.all fun u => (digitBelow radix u).isSome) = true then
        Wire.jsNumber (.ofInt (digitsValue radix ds))
      else .nan
    | none =>
      let (negative, rest) := signAt t
      if rest = infinityText then (if negative then .negInf else .posInf)
      else
        match decimalLiteral negative rest with
        | some l => Wire.jsNumber l
        | none => .nan

/-! ## Primitive values -/

/-- How numbers and dates are written. -/
structure Platform where
  numberText : JsNumber → Text
  dateText : Option ℤ → Text

/-- A value that is no object. -/
inductive Primitive where
  | undefined
  | null
  | bool (b : Bool)
  | number (n : JsNumber)
  | string (s : Text)
  deriving DecidableEq

/-- `ToNumber`. -/
def Primitive.toNumber : Primitive → JsNumber
  | undefined => .nan
  | null => .finite 0
  | bool b => if b then .finite 1 else .finite 0
  | number n => n
  | string s => stringToNumber s

/-- The number of a time. -/
def timeNumber : Option ℤ → JsNumber
  | some t => .finite t
  | none => .nan

/-- `"toString"`. -/
def toStringName : Text := [116, 111, 83, 116, 114, 105, 110, 103]

/-- `"[object Object]"`. -/
def objectText : Text :=
  [91, 111, 98, 106, 101, 99, 116, 32, 79, 98, 106, 101, 99, 116, 93]

/-- `"true"` and `"false"`. -/
def boolText : Bool → Text
  | true => [116, 114, 117, 101]
  | false => [102, 97, 108, 115, 101]

section Platform

variable (P : Platform)

mutual

/-- The text of an item of an array, as `join` writes it; `none` is a `TypeError`. -/
def itemText : JsValue → Option Text
  | .undefined => some []
  | .null => some []
  | .bool b => some (boolText b)
  | .number n => some (P.numberText n)
  | .string s => some s
  | .date time => some (P.dateText time)
  | .array items => (itemTexts items).map fun l => List.intercalate [44] l
  | .object fields => if toStringName ∈ fields.map Prod.fst then none else some objectText

/-- The texts of the items of an array. -/
def itemTexts : List JsValue → Option (List Text)
  | [] => some []
  | v :: items => (itemText v).bind fun t => (itemTexts items).map fun l => t :: l

end

/-- `ToPrimitive`, with a number in view. -/
def toPrimitive : JsValue → Option Primitive
  | .undefined => some .undefined
  | .null => some .null
  | .bool b => some (.bool b)
  | .number n => some (.number n)
  | .string s => some (.string s)
  | .date time => some (.number (timeNumber time))
  | .array items => (itemText P (.array items)).map .string
  | .object fields => (itemText P (.object fields)).map .string

/-- `<` on primitive values. -/
def Primitive.lessThan : Primitive → Primitive → Bool
  | .string s, .string t => decide (s < t)
  | a, b => a.toNumber.lt b.toNumber

/-- `a < b`. -/
def lessThan (a b : JsValue) : Option Bool :=
  (toPrimitive P a).bind fun x => (toPrimitive P b).map fun y => x.lessThan y

/-- `compare` of primitive values. -/
def Primitive.compare (a b : Primitive) : ℤ :=
  if a.lessThan b then -1 else if b.lessThan a then 1 else 0

/-- `compare`. -/
def compare (a b : JsValue) : Option ℤ :=
  (lessThan P a b).bind fun less =>
    if less then some (-1) else (lessThan P b a).map fun greater => if greater then 1 else 0

theorem compare_eq (a b : JsValue) :
    compare P a b = (toPrimitive P a).bind fun x => (toPrimitive P b).map fun y => x.compare y := by
  rw [compare, lessThan, lessThan]
  cases toPrimitive P a with
  | none => rfl
  | some x =>
    cases toPrimitive P b with
    | none => rfl
    | some y =>
      simp only [Option.bind_some, Option.map_some, Primitive.compare]
      split_ifs <;> rfl

end Platform

/-! ## Comparing values of one kind -/

theorem compare_string (s t : Text) :
    (Primitive.string s).compare (.string t) = if s < t then -1 else if t < s then 1 else 0 := by
  simp only [Primitive.compare, Primitive.lessThan, decide_eq_true_eq]

/-- Two texts, which are compared unit by unit. -/
def BothStrings (a b : Primitive) : Prop := ∃ s t, a = .string s ∧ b = .string t

variable {a b : Primitive}

theorem BothStrings.symm (h : BothStrings a b) : BothStrings b a := by
  obtain ⟨s, t, rfl, rfl⟩ := h
  exact ⟨t, s, rfl, rfl⟩

theorem lessThan_of_not (h : ¬BothStrings a b) : a.lessThan b = a.toNumber.lt b.toNumber := by
  cases a with
  | string s =>
    cases b with
    | string t => exact absurd ⟨s, t, rfl, rfl⟩ h
    | undefined => rfl
    | null => rfl
    | bool b => rfl
    | number n => rfl
  | undefined => rfl
  | null => rfl
  | bool b => rfl
  | number n => rfl

theorem compare_of_not (h : ¬BothStrings a b) :
    a.compare b =
      if a.toNumber.lt b.toNumber then -1 else if b.toNumber.lt a.toNumber then 1 else 0 := by
  have h' : ¬BothStrings b a := fun hba => h hba.symm
  rw [Primitive.compare, lessThan_of_not h, lessThan_of_not h']

theorem compare_number {x y : WithBot (WithTop ℚ)} (h : ¬BothStrings a b)
    (ha : a.toNumber.extended = some x) (hb : b.toNumber.extended = some y) :
    a.compare b = if x < y then -1 else if y < x then 1 else 0 := by
  rw [compare_of_not h, JsNumber.lt, JsNumber.lt, ha, hb]
  simp only [decide_eq_true_eq]

theorem compare_nan (h : ¬BothStrings a b)
    (hnan : a.toNumber.extended = none ∨ b.toNumber.extended = none) : a.compare b = 0 := by
  have hlt : a.toNumber.lt b.toNumber = false ∧ b.toNumber.lt a.toNumber = false := by
    rw [JsNumber.lt, JsNumber.lt]
    rcases hnan with hnan | hnan
    · rw [hnan]
      exact ⟨rfl, by cases b.toNumber.extended <;> rfl⟩
    · rw [hnan]
      exact ⟨by cases a.toNumber.extended <;> rfl, rfl⟩
  rw [compare_of_not h, hlt.1, hlt.2]
  rfl

end Queries

end Interocitor
