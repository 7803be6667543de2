import Interocitor.Core.Hlc

/-!
# The native engines: reading clock stamps

`hlc_parse` of `hlc.py` accepts exactly what the core serializer can create: a regular
expression wants at least fifteen decimal digits, at least four hexadecimal ones and a device
id, and the two numbers must be safe integers.

`hlcParse` of `HLC.swift` accepts everything and looks for dashes among the *characters* of a
string: a dash and a combining mark after it are one character, which is no dash.  Its order of
device ids is the order of Swift strings, which compares normal forms by Unicode scalar; Python
goes out of its way to compare by UTF-16 code unit, as JavaScript does.

* `Python.hlcParse`, with `none` where the source raises.
* `Python.hlcParse_stampText`: a serialized stamp is read back if its numbers are safe and its
  device id is not empty, and refused otherwise.
* `Unicode`: what of Unicode the Swift functions use.
* `Swift.hlcParse_stampText`, `Swift.hlcCompareStr_stampText`: a safe stamp whose device id does
  not attach to the dash before it is read back, and compared as in core where the order of the
  two device ids is the same.
-/

namespace Interocitor.Native

open CodeUnits HybridClock List

namespace Python

/-- `_MAX_SAFE_INTEGER`. -/
def maxSafeInteger : ℕ := 2 ^ 53 - 1

/-- `[0-9]`. -/
def isDecimal (u : CodeUnit) : Bool := decide (48 ≤ u.val ∧ u.val ≤ 57)

/-- `[0-9a-f]`. -/
def isLowerHex (u : CodeUnit) : Bool := isDecimal u || decide (97 ≤ u.val ∧ u.val ≤ 102)

/-- `hlc_parse`.  Neither digit class has a dash, so the first two dashes end the first two
groups of the expression. -/
def hlcParse (value : Text) : Option (Stamp Text) := do
  let firstDash ← value.idxOf? dash
  let rest := value.drop (firstDash + 1)
  let gap ← rest.idxOf? dash
  let ts := value.take firstDash
  let counter := rest.take gap
  let node := rest.drop (gap + 1)
  if 15 ≤ ts.length ∧ ts.all isDecimal ∧ 4 ≤ counter.length ∧ counter.all isLowerHex ∧
      node ≠ [] then do
    let timestamp ← parseInt 10 ts
    let count ← parseInt 16 counter
    if timestamp ≤ maxSafeInteger ∧ count ≤ maxSafeInteger then some ⟨timestamp, count, node⟩
    else none
  else none

/-- What the Python engine takes for a stamp. -/
def Readable (s : Stamp Text) : Prop :=
  s.ts ≤ maxSafeInteger ∧ s.counter ≤ maxSafeInteger ∧ s.node ≠ []

theorem isDecimal_digitUnit {d : ℕ} (h : d < 10) : isDecimal (digitUnit d) = true := by
  rw [isDecimal, decide_eq_true_eq, val_digitUnit (by omega), if_pos h]
  omega

theorem isLowerHex_digitUnit {d : ℕ} (h : d < 16) : isLowerHex (digitUnit d) = true := by
  rcases Nat.lt_or_ge d 10 with hd | hd
  · rw [isLowerHex, isDecimal_digitUnit hd, Bool.true_or]
  · rw [isLowerHex, Bool.or_eq_true_iff, decide_eq_true_eq, val_digitUnit h, if_neg (by omega)]
    exact Or.inr (by omega)

theorem all_padStart {w b n : ℕ} (hb : 1 < b) {p : CodeUnit → Bool}
    (hp : ∀ d < b, p (digitUnit d) = true) :
    (padStart w (digitUnit 0) (numeral b n)).all p = true := by
  rw [padStart_numeral, all_eq_true]
  intro u hu
  obtain ⟨d, hd, rfl⟩ := mem_map.mp hu
  exact hp d (lt_of_mem_paddedDigits hb hd)

theorem le_length_padStart (w : ℕ) (u : CodeUnit) (s : Text) : w ≤ (padStart w u s).length := by
  rw [padStart, length_append, length_replicate]
  omega

/-- **A serialized stamp is read back if it is a safe one**, and refused otherwise. -/
theorem hlcParse_stampText (s : Stamp Text) [Decidable (Readable s)] :
    hlcParse (stampText s) = if Readable s then some s else none := by
  have htime : dash ∉ timeText s := dash_notMem_padStart 15 s.ts (by omega) (by omega)
  have hcounter : dash ∉ counterText s := dash_notMem_padStart 4 s.counter (by omega) (by omega)
  have hdrop : (timeText s ++ dash :: (counterText s ++ dash :: s.node)).drop
      ((timeText s).length + 1) = counterText s ++ dash :: s.node := by
    rw [drop_append, drop_of_length_le (by omega)]
    simp
  have hnode : (counterText s ++ dash :: s.node).drop ((counterText s).length + 1) = s.node := by
    rw [drop_append, drop_of_length_le (by omega)]
    simp
  have hshape : 15 ≤ (timeText s).length ∧ (timeText s).all isDecimal ∧
      4 ≤ (counterText s).length ∧ (counterText s).all isLowerHex :=
    ⟨le_length_padStart .., all_padStart (by omega) fun _ => isDecimal_digitUnit,
      le_length_padStart .., all_padStart (by omega) fun _ => isLowerHex_digitUnit⟩
  have hts : parseInt 10 (timeText s) = some s.ts :=
    parseInt_padStart_numeral 15 s.ts (by omega) (by omega)
  have hcount : parseInt 16 (counterText s) = some s.counter :=
    parseInt_padStart_numeral 4 s.counter (by omega) (by omega)
  simp only [hlcParse, stampText_eq, idxOf?_dash htime, Option.bind_eq_bind, Option.bind_some,
    hdrop, idxOf?_dash hcounter, take_left, hnode, hts, hcount, hshape, true_and]
  by_cases hempty : s.node = []
  · rw [if_neg (not_not.mpr hempty), if_neg fun h : Readable s => h.2.2 hempty]
  · rw [if_pos hempty]
    by_cases hsafe : s.ts ≤ maxSafeInteger ∧ s.counter ≤ maxSafeInteger
    · rw [if_pos hsafe, if_pos (show Readable s from ⟨hsafe.1, hsafe.2, hempty⟩)]
    · rw [if_neg hsafe, if_neg fun h : Readable s => hsafe ⟨h.1, h.2.1⟩]

/-- `hlc_compare`: the device ids by their UTF-16 code units. -/
def hlcCompare (left right : Stamp Text) : ℤ :=
  if left.ts ≠ right.ts then (left.ts : ℤ) - right.ts
  else if left.counter ≠ right.counter then (left.counter : ℤ) - right.counter
  else if left.node < right.node then -1
  else if right.node < left.node then 1
  else 0

/-- `hlc_compare_str`; `none` is the `ValueError` of a text that is no stamp. -/
def hlcCompareStr (left right : Text) : Option ℤ := do
  let a ← hlcParse left
  let b ← hlcParse right
  some (hlcCompare a b)

theorem hlcCompare_eq (a b : Stamp Text) :
    Interocitor.hlcCompare (.ofStamp a) (.ofStamp b) = some (hlcCompare a b) := by
  rw [hlcCompare_ofStamp, hlcCompare]
  split_ifs <;> rfl

theorem hlcCompareStr_stampText {a b : Stamp Text} (ha : Readable a) (hb : Readable b) :
    hlcCompareStr (stampText a) (stampText b) = some (hlcCompare a b) := by
  classical
  rw [hlcCompareStr, hlcParse_stampText, hlcParse_stampText, if_pos ha, if_pos hb]
  rfl

theorem hlcCompare_pos_iff (a b : Stamp Text) : 0 < hlcCompare a b ↔ b < a := by
  rw [← isPos_hlcCompare, hlcCompare_eq, isPos]
  simp

theorem hlcCompare_neg_iff (a b : Stamp Text) : hlcCompare a b < 0 ↔ a < b := by
  rw [← isNeg_hlcCompare, hlcCompare_eq, isNeg]
  simp

end Python

/-! ## Swift -/

/-- What of Unicode a Swift `String` uses: the normal form that decides equality, the order of
strings, and whether a text starts with a scalar that belongs to the character before it ---
which a digit or a letter of the hexadecimal numerals never does. -/
structure Unicode where
  norm : Text → Text
  less : Text → Text → Bool
  attaches : Text → Bool
  digit : ∀ d < 16, ∀ t, attaches (digitUnit d :: t) = false

namespace Swift

variable (U : Unicode)

/-- `firstIndex(of: "-")`: the first dash that is a character of its own. -/
def firstDash : Text → Option ℕ
  | [] => none
  | u :: s => if u = dash ∧ U.attaches s = false then some 0 else (firstDash s).map (· + 1)

/-- `Int64(_:)` and `Int(_:radix:)` of a text without a minus sign: digits only, in range. -/
def parseInteger (radix : ℕ) (s : Text) : Option ℕ :=
  let digits := dropSign s
  if digits ≠ [] ∧ (digits.all fun u => (digitBelow radix u).isSome) ∧
      frontValue radix (leadingDigits radix digits) < 2 ^ 63 then
    some (frontValue radix (leadingDigits radix digits))
  else none

/-- `hlcParse`. -/
def hlcParse (s : Text) : Stamp Text :=
  match firstDash U s with
  | none => ⟨0, 0, s⟩
  | some first =>
    let rest := s.drop (first + 1)
    match firstDash U rest with
    | none => ⟨0, 0, s⟩
    | some gap =>
      ⟨(parseInteger 10 (s.take first)).getD 0, (parseInteger 16 (rest.take gap)).getD 0,
        rest.drop (gap + 1)⟩

/-- `hlcCompare`. -/
def hlcCompare (a b : Stamp Text) : ℤ :=
  if a.ts ≠ b.ts then (if a.ts < b.ts then -1 else 1)
  else if a.counter ≠ b.counter then (a.counter : ℤ) - b.counter
  else if U.less a.node b.node then -1
  else if U.less b.node a.node then 1
  else 0

/-- `hlcCompareStr`. -/
def hlcCompareStr (a b : Text) : ℤ := hlcCompare U (hlcParse U a) (hlcParse U b)

variable {U}

theorem firstDash_append {s t : Text} (h : dash ∉ s) (ht : U.attaches t = false) :
    firstDash U (s ++ dash :: t) = some s.length := by
  induction s with
  | nil => rw [nil_append, firstDash, if_pos ⟨rfl, ht⟩]; rfl
  | cons u s ih =>
    rw [mem_cons, not_or] at h
    rw [cons_append, firstDash, if_neg fun hu => h.1 hu.1.symm, ih h.2]
    rfl

theorem parseInteger_padStart {w n radix : ℕ} (hr : 1 < radix) (hr' : radix ≤ 16)
    (hn : n < 2 ^ 63) :
    parseInteger radix (padStart w (digitUnit 0) (numeral radix n)) = some n := by
  have hne : paddedDigits w radix n ≠ [] := fun h =>
    digitsFront_ne_nil radix n (append_eq_nil_iff.mp h).2
  have hdigits : ∀ d ∈ paddedDigits w radix n, d < radix := fun d => lt_of_mem_paddedDigits hr
  have hsign : dropSign ((paddedDigits w radix n).map digitUnit) =
      (paddedDigits w radix n).map digitUnit := by
    obtain ⟨d, l, hl⟩ := exists_cons_of_ne_nil hne
    have hd : d < 16 := lt_of_lt_of_le (hdigits d (by rw [hl]; exact mem_cons_self)) hr'
    rw [hl, map_cons, dropSign, if_neg]
    rw [val_digitUnit hd]
    split_ifs <;> omega
  have hall : (((paddedDigits w radix n).map digitUnit).all fun u =>
      (digitBelow radix u).isSome) = true := by
    rw [all_eq_true]
    intro u hu
    obtain ⟨d, hd, rfl⟩ := mem_map.mp hu
    rw [digitBelow_digitUnit hr' (hdigits d hd)]
    rfl
  rw [padStart_numeral, parseInteger]
  simp only [hsign, leadingDigits_map_digitUnit hr' hdigits, frontValue_paddedDigits, hall]
  rw [if_pos ⟨by simpa using hne, trivial, hn⟩]

/-- A stamp that Swift reads back: safe numbers, and a device id that is not drawn into the dash
before it. -/
def Readable (U : Unicode) (s : Stamp Text) : Prop :=
  Python.Readable s ∧ U.attaches s.node = false

/-- **A serialized stamp is read back.** -/
theorem hlcParse_stampText {s : Stamp Text} (h : Readable U s) : hlcParse U (stampText s) = s := by
  have htime : dash ∉ timeText s := dash_notMem_padStart 15 s.ts (by omega) (by omega)
  have hcounter : dash ∉ counterText s := dash_notMem_padStart 4 s.counter (by omega) (by omega)
  have hsafe : Python.maxSafeInteger < 2 ^ 63 := by decide
  have hdigit : U.attaches (counterText s ++ dash :: s.node) = false := by
    have hne : paddedDigits 4 16 s.counter ≠ [] := fun h =>
      digitsFront_ne_nil 16 s.counter (append_eq_nil_iff.mp h).2
    obtain ⟨d, l, hl⟩ := exists_cons_of_ne_nil hne
    have hd : d < 16 := lt_of_mem_paddedDigits (w := 4) (n := s.counter) (by omega)
      (by rw [hl]; exact mem_cons_self)
    rw [counterText, padStart_numeral, hl, map_cons, cons_append]
    exact U.digit d hd _
  have hdrop : (timeText s ++ dash :: (counterText s ++ dash :: s.node)).drop
      ((timeText s).length + 1) = counterText s ++ dash :: s.node := by
    rw [drop_append, drop_of_length_le (by omega)]
    simp
  have hnode : (counterText s ++ dash :: s.node).drop ((counterText s).length + 1) = s.node := by
    rw [drop_append, drop_of_length_le (by omega)]
    simp
  have hts : parseInteger 10 (timeText s) = some s.ts :=
    parseInteger_padStart (by omega) (by omega) (lt_of_le_of_lt h.1.1 hsafe)
  have hcount : parseInteger 16 (counterText s) = some s.counter :=
    parseInteger_padStart (by omega) (by omega) (lt_of_le_of_lt h.1.2.1 hsafe)
  simp only [hlcParse, stampText_eq, firstDash_append htime hdigit, hdrop,
    firstDash_append hcounter h.2, take_left, hts, hcount, hnode, Option.getD_some]

/-- Two device ids that Swift orders as core does. -/
def OrderedAlike (U : Unicode) (a b : Text) : Prop :=
  (U.less a b = true ↔ a < b) ∧ (U.less b a = true ↔ b < a)

/-- **Comparisons agree** where the device ids are ordered alike. -/
theorem hlcCompareStr_stampText {a b : Stamp Text} (ha : Readable U a) (hb : Readable U b)
    (hnodes : OrderedAlike U a.node b.node) :
    (0 < hlcCompareStr U (stampText a) (stampText b) ↔ b < a) ∧
      (hlcCompareStr U (stampText a) (stampText b) < 0 ↔ a < b) := by
  rw [hlcCompareStr, hlcParse_stampText ha, hlcParse_stampText hb, ← Python.hlcCompare_pos_iff,
    ← Python.hlcCompare_neg_iff, hlcCompare, Python.hlcCompare]
  simp only [hnodes.1, hnodes.2]
  split_ifs <;> constructor <;> omega

end Swift

end Interocitor.Native
