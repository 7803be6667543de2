import Interocitor.Foundation.CodeUnits
import Mathlib.Algebra.Order.Field.Power
import Mathlib.Tactic.Positivity
import Mathlib.Data.Int.Log
import Mathlib.Data.Rat.Floor

/-!
# Numbers in text: the decimals a binary format prints

A language whose only number type is the 64-bit binary float prints a number as the shortest
decimal that reads back as that number, and lays that decimal out in one of four ways: as an
integer, with a point inside, with leading zeros after the point, or with an exponent.  A
finite non-zero number is therefore known by its sign and its decimal, and that is how it is
represented here.

* `Literal`: a number as it stands in a text, in parts; `Literal.value`, `Literal.text`.
* `Decimal`: a significand without trailing zeros, and a power of ten.
* `Decimal.literal`: the layout, with `Decimal.value_literal`: it has the decimal's value, and
  `Decimal.integer_literal_iff`: it is an integer literal exactly for the whole numbers below
  `10 ^ 21`.
* `Number.ofInt`: the number an integer literal is read as --- the nearest float, ties to even
  --- and `Number.literal_ofInt`: an integer below `2 ^ 53` is printed as it was written.
* `Literal.double`: the float any literal is read as, with `Literal.double_ofInt`, and
  `double_printedInteger`: what a float without a fraction prints as is read back as it.
-/

namespace Decimals

open CodeUnits Option

/-! ## Literals -/

/-- The factor a minus sign stands for. -/
def sign : Bool → ℤ
  | true => -1
  | false => 1

theorem abs_sign (negative : Bool) : |sign negative| = 1 := by
  cases negative <;> rfl

/-- A number as written: a sign, an integer, perhaps a fraction --- its digits as one number,
and how many there are --- and perhaps a power of ten. -/
@[ext] structure Literal where
  negative : Bool
  whole : ℕ
  fraction : Option (ℕ × ℕ)
  exponent : Option ℤ
  deriving DecidableEq

namespace Literal

/-- `.` and the digits of the fraction. -/
def fractionText : Option (ℕ × ℕ) → Text
  | none => []
  | some (digits, width) => 46 :: padStart width (digitUnit 0) (numeral 10 digits)

/-- `e`, a sign and the digits of the exponent. -/
def exponentText : Option ℤ → Text
  | none => []
  | some e => 101 :: (if 0 ≤ e then 43 else 45) :: numeral 10 e.natAbs

/-- The text of a literal. -/
def text (l : Literal) : Text :=
  (if l.negative then [45] else []) ++ numeral 10 l.whole ++ fractionText l.fraction ++
    exponentText l.exponent

/-- What a literal is worth. -/
def value (l : Literal) : ℚ :=
  sign l.negative *
    (l.whole + (l.fraction.elim 0 fun f => (f.1 : ℚ) / 10 ^ f.2)) * 10 ^ (l.exponent.getD 0)

/-- An integer, written in digits. -/
def ofInt (i : ℤ) : Literal := ⟨decide (i < 0), i.natAbs, none, none⟩

/-- The integer written, if the literal has neither a fraction nor an exponent. -/
def integer (l : Literal) : Option ℤ :=
  match l.fraction, l.exponent with
  | none, none => some (sign l.negative * l.whole)
  | _, _ => none

theorem integer_ofInt (i : ℤ) : (ofInt i).integer = some i := by
  rcases lt_or_ge i 0 with h | h
  · simp only [ofInt, integer, decide_eq_true h, sign, some.injEq]
    omega
  · simp only [ofInt, integer, decide_eq_false (not_lt.mpr h), sign, some.injEq]
    omega

theorem value_of_integer (l : Literal) {i : ℤ} (h : l.integer = some i) : l.value = i := by
  obtain ⟨negative, whole, fraction, exponent⟩ := l
  unfold integer at h
  split at h
  · rename_i hfraction hexponent
    dsimp only at hfraction hexponent h
    subst hfraction hexponent
    rw [← some.inj h]
    simp [value]
  · exact absurd h (by simp)

theorem value_ofInt (i : ℤ) : (ofInt i).value = i := by
  rcases lt_or_ge i 0 with h | h
  · have habs : ((i.natAbs : ℕ) : ℚ) = -i := by
      rw [← Int.cast_natCast, Int.natCast_natAbs, abs_of_neg h, Int.cast_neg]
    simp [value, ofInt, sign, h, habs]
  · have habs : ((i.natAbs : ℕ) : ℚ) = i := by
      rw [← Int.cast_natCast, Int.natCast_natAbs, abs_of_nonneg h]
    simp [value, ofInt, sign, not_lt.mpr h, habs]

end Literal

/-! ## Decimals and their layout -/

/-- A positive decimal: a significand that does not end in zero, times a power of ten. -/
@[ext] structure Decimal where
  significand : ℕ
  scale : ℤ
  last : significand % 10 ≠ 0
  deriving DecidableEq

namespace Decimal

/-- How many digits the significand has. -/
def width (d : Decimal) : ℕ := Nat.log 10 d.significand + 1

/-- How many digits stand before the point; negative when zeros follow it. -/
def point (d : Decimal) : ℤ := d.width + d.scale

/-- What a decimal is worth. -/
def value (d : Decimal) : ℚ := d.significand * 10 ^ d.scale

theorem significand_pos (d : Decimal) : 0 < d.significand := by
  rcases Nat.eq_zero_or_pos d.significand with h | h
  · exact absurd (by rw [h]) d.last
  · exact h

theorem value_pos (d : Decimal) : 0 < d.value := by
  have hpos : (0 : ℚ) < d.significand := by exact_mod_cast d.significand_pos
  exact mul_pos hpos (zpow_pos (by norm_num) _)

/-- The layout of a decimal: an integer up to 21 digits, else a fraction unless more than six
zeros follow the point, else an exponent. -/
def literal (negative : Bool) (d : Decimal) : Literal :=
  if 0 ≤ d.scale ∧ d.point ≤ 21 then
    ⟨negative, d.significand * 10 ^ d.scale.toNat, none, none⟩
  else if 0 < d.point ∧ d.point ≤ 21 then
    ⟨negative, d.significand / 10 ^ (-d.scale).toNat,
      some (d.significand % 10 ^ (-d.scale).toNat, (-d.scale).toNat), none⟩
  else if -6 < d.point ∧ d.point ≤ 0 then
    ⟨negative, 0, some (d.significand, (-d.scale).toNat), none⟩
  else if d.width = 1 then
    ⟨negative, d.significand, none, some (d.point - 1)⟩
  else
    ⟨negative, d.significand / 10 ^ (d.width - 1),
      some (d.significand % 10 ^ (d.width - 1), d.width - 1), some (d.point - 1)⟩

theorem significand_split (d : Decimal) (j : ℕ) :
    ((d.significand / 10 ^ j : ℕ) : ℚ) + ((d.significand % 10 ^ j : ℕ) : ℚ) / 10 ^ j =
      d.significand / 10 ^ j := by
  have hsplit : (d.significand : ℚ) =
      10 ^ j * ((d.significand / 10 ^ j : ℕ) : ℚ) + ((d.significand % 10 ^ j : ℕ) : ℚ) := by
    exact_mod_cast (Nat.div_add_mod d.significand (10 ^ j)).symm
  have hpow : (10 : ℚ) ^ j ≠ 0 := by positivity
  rw [eq_div_iff hpow, add_mul, div_mul_cancel₀ _ hpow, mul_comm]
  exact hsplit.symm

variable {d : Decimal}

theorem pow_neg_scale (h : d.scale ≤ 0) : (10 : ℚ) ^ d.scale = 1 / 10 ^ (-d.scale).toNat := by
  obtain ⟨n, hn⟩ := Int.eq_ofNat_of_zero_le (Int.neg_nonneg.mpr h)
  have hscale : d.scale = -(n : ℤ) := by omega
  rw [hn, Int.toNat_natCast, hscale, zpow_neg, zpow_natCast, one_div]

theorem pow_point : (10 : ℚ) ^ (d.point - 1) = 10 ^ (d.width - 1) * 10 ^ d.scale := by
  have hwidth : 0 < d.width := Nat.succ_pos _
  have hpoint : d.point - 1 = ((d.width - 1 : ℕ) : ℤ) + d.scale := by
    rw [point]
    omega
  rw [hpoint, zpow_add₀ (by norm_num), zpow_natCast]

theorem cast_whole (h : 0 ≤ d.scale) :
    ((d.significand * 10 ^ d.scale.toNat : ℕ) : ℚ) = d.significand * 10 ^ d.scale := by
  obtain ⟨n, hn⟩ := Int.eq_ofNat_of_zero_le h
  rw [hn, Int.toNat_natCast, Nat.cast_mul, Nat.cast_pow, zpow_natCast]
  norm_num

theorem value_literal (negative : Bool) (d : Decimal) :
    (d.literal negative).value = sign negative * d.value := by
  unfold literal
  split_ifs with hint hfrac hzeros hone <;> unfold Literal.value value <;>
    simp only [elim_none, elim_some, getD_none, getD_some, zpow_zero,
      mul_one, add_zero, Nat.cast_zero, zero_add, mul_assoc]
  · rw [cast_whole hint.1]
  · have hscale : d.scale ≤ 0 := by omega
    rw [significand_split, pow_neg_scale hscale, mul_one_div]
  · have hscale : d.scale ≤ 0 := by
      have hwidth : 0 < d.width := Nat.succ_pos _
      have hpoint := hzeros.2
      rw [point] at hpoint
      omega
    rw [pow_neg_scale hscale, mul_one_div]
  · rw [pow_point, hone, Nat.sub_self, pow_zero, one_mul]
  · have hpow : (10 : ℚ) ^ (d.width - 1) ≠ 0 := by positivity
    rw [significand_split, pow_point, ← mul_assoc (_ / _), div_mul_cancel₀ _ hpow]

/-- The layout is an integer in the first case only. -/
theorem integer_literal (negative : Bool) (d : Decimal) :
    (d.literal negative).integer =
      if 0 ≤ d.scale ∧ d.point ≤ 21 then
        some (sign negative * ((d.significand * 10 ^ d.scale.toNat : ℕ) : ℤ))
      else none := by
  unfold literal
  split_ifs <;> rfl

theorem scale_nonneg_of_value {n : ℕ} (h : d.value = n) : 0 ≤ d.scale := by
  by_contra hneg
  have hscale : d.scale ≤ 0 := by omega
  have hpow : (10 : ℚ) ^ (-d.scale).toNat ≠ 0 := by positivity
  rw [value, pow_neg_scale hscale, mul_one_div, div_eq_iff hpow] at h
  have hnat : d.significand = n * 10 ^ (-d.scale).toNat := by exact_mod_cast h
  obtain ⟨j, hj⟩ : ∃ j, (-d.scale).toNat = j + 1 := ⟨(-d.scale).toNat - 1, by omega⟩
  rw [hj, pow_succ, ← mul_assoc] at hnat
  exact d.last (by rw [hnat, Nat.mul_mod_left])

theorem log_mul_pow {m : ℕ} (h : 0 < m) (n : ℕ) : Nat.log 10 (m * 10 ^ n) = Nat.log 10 m + n := by
  induction n with
  | zero => rw [pow_zero, mul_one, add_zero]
  | succ n ih =>
    have hpos : m * 10 ^ n ≠ 0 := (Nat.mul_pos h (by positivity)).ne'
    rw [pow_succ, ← mul_assoc, Nat.log_mul_base (by norm_num) hpos, ih, add_assoc]

theorem point_le_iff (h : 0 ≤ d.scale) (k : ℕ) :
    d.point ≤ k ↔ d.significand * 10 ^ d.scale.toNat < 10 ^ k := by
  obtain ⟨n, hn⟩ := Int.eq_ofNat_of_zero_le h
  have hlog := log_mul_pow d.significand_pos n
  have hpos : d.significand * 10 ^ n ≠ 0 := (Nat.mul_pos d.significand_pos (by positivity)).ne'
  rw [point, width, hn, Int.toNat_natCast, ← Nat.log_lt_iff_lt_pow (by norm_num) hpos, hlog]
  push_cast
  omega

/-- **Integer literals.**  A decimal is laid out as an integer exactly when it is a whole number
below `10 ^ 21`, and then it is that number. -/
theorem integer_literal_iff (negative : Bool) (d : Decimal) (i : ℤ) :
    (d.literal negative).integer = some i ↔
      sign negative * d.value = i ∧ |i| < 10 ^ 21 := by
  rw [integer_literal]
  constructor
  · intro h
    split_ifs at h with hint
    have hi := some.inj h
    have hlt := (point_le_iff hint.1 21).mp hint.2
    refine ⟨?_, ?_⟩
    · rw [← hi, Int.cast_mul, Int.cast_natCast, cast_whole hint.1, value]
    · rw [← hi, abs_mul, abs_sign, one_mul, Nat.abs_cast]
      exact_mod_cast hlt
  · rintro ⟨hvalue, hlt⟩
    have habs : d.value = (i.natAbs : ℕ) := by
      have h := congrArg abs hvalue
      rw [abs_mul, ← Int.cast_abs, abs_sign, Int.cast_one, one_mul,
        abs_of_pos d.value_pos, ← Int.cast_abs, ← Int.natCast_natAbs, Int.cast_natCast] at h
      exact h
    have hscale := scale_nonneg_of_value habs
    have hnat : d.significand * 10 ^ d.scale.toNat = i.natAbs := by
      rw [value, ← cast_whole hscale] at habs
      exact_mod_cast habs
    have hpoint : d.point ≤ 21 := by
      refine (point_le_iff hscale 21).mpr ?_
      rw [hnat]
      rw [← Int.natCast_natAbs] at hlt
      exact_mod_cast hlt
    rw [if_pos ⟨hscale, hpoint⟩, some.injEq, hnat]
    rw [habs] at hvalue
    have hcast : ((sign negative * (i.natAbs : ℤ) : ℤ) : ℚ) = (i : ℚ) := by
      rw [Int.cast_mul, Int.cast_natCast]
      exact hvalue
    exact Int.cast_injective hcast

end Decimal

/-! ## Reading an integer -/

/-- The nearest integer with 53 significant bits; of two, the one whose last bit is zero. -/
def nearest (n : ℕ) : ℕ :=
  if n < 2 ^ 53 then n
  else
    let unit := 2 ^ (Nat.log 2 n - 52)
    let below := n / unit
    let rest := n % unit
    (if 2 * rest < unit ∨ (2 * rest = unit ∧ below % 2 = 0) then below else below + 1) * unit

/-- Of the two multiples of `10 ^ p` around a float, the closer one that reads back as it. -/
def candidate (x p : ℕ) : Option ℕ :=
  let below := x / 10 ^ p * 10 ^ p
  let above := below + 10 ^ p
  (if x - below ≤ above - x then [below, above] else [above, below]).find? fun c =>
    decide (nearest c = x)

/-- The shortest decimal that reads back as a float that is an integer. -/
def shortest (x : ℕ) : ℕ :=
  (candidate x (Nat.findGreatest (fun p => (candidate x p).isSome) (Nat.log 10 x))).getD x

/-- How many zeros a numeral ends in. -/
def trailingZeros (n : ℕ) : ℕ := Nat.findGreatest (fun z => 10 ^ z ∣ n) (Nat.log 10 n)

theorem pow_trailingZeros_dvd (n : ℕ) : 10 ^ trailingZeros n ∣ n := by
  have hzero : 10 ^ 0 ∣ n := by rw [pow_zero]; exact one_dvd n
  exact Nat.findGreatest_spec (P := fun z => 10 ^ z ∣ n) (Nat.zero_le _) hzero

variable {n : ℕ}

theorem not_pow_trailingZeros_succ_dvd (h : n ≠ 0) : ¬ 10 ^ (trailingZeros n + 1) ∣ n := by
  intro hdvd
  rcases Nat.lt_or_ge (Nat.log 10 n) (trailingZeros n + 1) with hlog | hlog
  · have hlt : n < 10 ^ (trailingZeros n + 1) := (Nat.log_lt_iff_lt_pow (by norm_num) h).mp hlog
    exact absurd (Nat.le_of_dvd (Nat.pos_of_ne_zero h) hdvd) (not_le.mpr hlt)
  · exact Nat.findGreatest_is_greatest (P := fun z => 10 ^ z ∣ n) (Nat.lt_succ_self _) hlog hdvd

/-- The decimal of a positive integer. -/
def Decimal.ofNat (n : ℕ) (h : n ≠ 0) : Decimal where
  significand := n / 10 ^ trailingZeros n
  scale := trailingZeros n
  last := by
    intro hmod
    refine not_pow_trailingZeros_succ_dvd h ?_
    obtain ⟨q, hq⟩ := Nat.dvd_of_mod_eq_zero hmod
    refine ⟨q, ?_⟩
    rw [pow_succ, mul_assoc, ← hq, Nat.mul_div_cancel' (pow_trailingZeros_dvd n)]

theorem Decimal.whole_ofNat (n : ℕ) (h : n ≠ 0) :
    (ofNat n h).significand * 10 ^ (ofNat n h).scale.toNat = n := by
  unfold ofNat
  rw [Int.toNat_natCast, Nat.div_mul_cancel (pow_trailingZeros_dvd n)]

theorem Decimal.literal_ofNat (negative : Bool) (n : ℕ) (h : n ≠ 0) (hlt : n < 10 ^ 21) :
    (ofNat n h).literal negative = ⟨negative, n, none, none⟩ := by
  have hscale : 0 ≤ (ofNat n h).scale := Int.natCast_nonneg _
  have hpoint : (ofNat n h).point ≤ 21 := by
    refine (point_le_iff hscale 21).mpr ?_
    rw [whole_ofNat]
    exact hlt
  rw [literal, if_pos ⟨hscale, hpoint⟩, whole_ofNat]

/-! ### Small integers are exact -/

theorem nearest_of_lt (h : n < 2 ^ 53) : nearest n = n := by
  rw [nearest, if_pos h]

/-- Rounding does not bring a large integer below `2 ^ 53`. -/
theorem le_nearest (h : 2 ^ 53 ≤ n) : 2 ^ 53 ≤ nearest n := by
  have hpos : n ≠ 0 := by
    intro hn
    rw [hn] at h
    exact absurd h (by norm_num)
  have hlog : 53 ≤ Nat.log 2 n := (Nat.le_log_iff_pow_le (by norm_num) hpos).mpr h
  -- the unit times the quotient is at least the leading power of two
  have hbelow : 2 ^ 52 ≤ n / 2 ^ (Nat.log 2 n - 52) := by
    rw [Nat.le_div_iff_mul_le (by positivity), ← pow_add]
    have hexp : 52 + (Nat.log 2 n - 52) = Nat.log 2 n := by omega
    rw [hexp]
    exact Nat.pow_log_le_self 2 hpos
  have hunit : 2 ≤ 2 ^ (Nat.log 2 n - 52) := by
    have hone : 1 ≤ Nat.log 2 n - 52 := by omega
    calc 2 = 2 ^ 1 := rfl
      _ ≤ 2 ^ (Nat.log 2 n - 52) := Nat.pow_le_pow_right (by norm_num) hone
  rw [nearest, if_neg (not_lt.mpr h)]
  calc 2 ^ 53 = 2 ^ 52 * 2 := by norm_num
    _ ≤ n / 2 ^ (Nat.log 2 n - 52) * 2 ^ (Nat.log 2 n - 52) := Nat.mul_le_mul hbelow hunit
    _ ≤ _ := by
      refine Nat.mul_le_mul_right _ ?_
      split_ifs <;> omega

/-- Only an integer below `2 ^ 53` itself is read as it. -/
theorem eq_of_nearest_eq {c : ℕ} (hn : n < 2 ^ 53) (h : nearest c = n) : c = n := by
  rcases Nat.lt_or_ge c (2 ^ 53) with hc | hc
  · rw [nearest_of_lt hc] at h
    exact h
  · have hle := le_nearest hc
    omega

theorem nearest_mul_pow {m : ℕ} (hlow : 2 ^ 52 ≤ m) (hhigh : m < 2 ^ 53) (e : ℕ) :
    nearest (m * 2 ^ e) = m * 2 ^ e := by
  rcases Nat.eq_zero_or_pos e with rfl | he
  · rw [Nat.pow_zero, mul_one, nearest_of_lt hhigh]
  · have hlog : Nat.log 2 (m * 2 ^ e) = 52 + e := by
      rw [Nat.log_eq_iff (Or.inl (by omega))]
      constructor
      · rw [Nat.pow_add]
        exact Nat.mul_le_mul_right _ hlow
      · rw [show 52 + e + 1 = 53 + e by omega, Nat.pow_add 2 53 e]
        exact Nat.mul_lt_mul_of_pos_right hhigh (by positivity)
    have hge : ¬m * 2 ^ e < 2 ^ 53 := by
      have hle : 2 ^ 52 * 2 ^ 1 ≤ m * 2 ^ e :=
        Nat.mul_le_mul hlow (Nat.pow_le_pow_right (by norm_num) he)
      have hpow : 2 ^ 52 * 2 ^ 1 = 2 ^ 53 := by norm_num
      omega
    have hpos : 0 < 2 ^ e := by positivity
    rw [nearest, if_neg hge]
    dsimp only
    rw [hlog, Nat.add_sub_cancel_left, Nat.mul_div_cancel _ hpos, Nat.mul_mod_left,
      if_pos (Or.inl (by omega))]

theorem exists_nearest_eq (h : 2 ^ 53 ≤ n) :
    ∃ m, 2 ^ 52 ≤ m ∧ m < 2 ^ 53 ∧ ∃ e, nearest n = m * 2 ^ e := by
  have hpos : n ≠ 0 := by
    rintro rfl
    exact absurd h (by norm_num)
  obtain ⟨k, hk⟩ : ∃ k, Nat.log 2 n = 52 + k :=
    ⟨Nat.log 2 n - 52, by have := (Nat.le_log_iff_pow_le (by norm_num) hpos).mpr h; omega⟩
  have hunit : 0 < 2 ^ k := by positivity
  have hlow : 2 ^ 52 ≤ n / 2 ^ k := by
    rw [Nat.le_div_iff_mul_le hunit, ← Nat.pow_add, ← hk]
    exact Nat.pow_log_le_self 2 hpos
  have hhigh : n / 2 ^ k < 2 ^ 53 := by
    rw [Nat.div_lt_iff_lt_mul hunit, ← Nat.pow_add, show 53 + k = 52 + k + 1 by omega, ← hk]
    exact Nat.lt_pow_succ_log_self (by norm_num) n
  rw [nearest, if_neg (not_lt.mpr h)]
  dsimp only
  rw [hk, Nat.add_sub_cancel_left]
  split_ifs with hround
  · exact ⟨n / 2 ^ k, hlow, hhigh, k, rfl⟩
  · -- rounding up may reach the next power of two
    rcases Nat.lt_or_ge (n / 2 ^ k + 1) (2 ^ 53) with hlt | hge
    · exact ⟨n / 2 ^ k + 1, by omega, hlt, k, rfl⟩
    · refine ⟨2 ^ 52, le_rfl, by norm_num, k + 1, ?_⟩
      rw [show n / 2 ^ k + 1 = 2 ^ 53 by omega, ← Nat.pow_add, ← Nat.pow_add]
      congr 1
      omega

theorem nearest_nearest (n : ℕ) : nearest (nearest n) = nearest n := by
  rcases Nat.lt_or_ge n (2 ^ 53) with h | h
  · rw [nearest_of_lt h, nearest_of_lt h]
  · obtain ⟨m, hlow, hhigh, e, he⟩ := exists_nearest_eq h
    rw [he, nearest_mul_pow hlow hhigh]

/-- From `2 ^ 53` on, a float and the next integer round to the float, unless the unit is two and the
tie goes to the next float. -/
theorem nearest_succ (hfloat : nearest n = n) (hn : 2 ^ 53 ≤ n) :
    nearest (n + 1) = if n < 2 ^ 54 ∧ n % 4 = 2 then n + 2 else n := by
  obtain ⟨m, hlow, hhigh, e, he⟩ := exists_nearest_eq hn
  rw [hfloat] at he
  have hunit : 0 < 2 ^ e := by positivity
  have he1 : 1 ≤ e := by
    rcases Nat.eq_zero_or_pos e with rfl | hpos
    · rw [Nat.pow_zero, mul_one] at he
      omega
    · exact hpos
  have htwo : 2 ^ 1 ≤ 2 ^ e := Nat.pow_le_pow_right (by norm_num) he1
  have hlog : Nat.log 2 (n + 1) = 52 + e := by
    rw [Nat.log_eq_iff (Or.inl (by omega)), he]
    constructor
    · rw [Nat.pow_add]
      exact le_trans (Nat.mul_le_mul_right _ hlow) (Nat.le_succ _)
    · have hle : (m + 1) * 2 ^ e ≤ 2 ^ 53 * 2 ^ e := Nat.mul_le_mul_right _ hhigh
      rw [Nat.succ_mul] at hle
      rw [show 52 + e + 1 = 53 + e by omega, Nat.pow_add 2 53 e]
      omega
  have hdiv : (n + 1) / 2 ^ e = m := by
    rw [he, Nat.div_eq_iff hunit]
    omega
  have hmod : (n + 1) % 2 ^ e = 1 := by
    have hsplit := Nat.div_add_mod (n + 1) (2 ^ e)
    rw [hdiv, mul_comm, ← he] at hsplit
    omega
  rw [nearest, if_neg (by omega)]
  dsimp only
  rw [hlog, Nat.add_sub_cancel_left, hdiv, hmod]
  rcases Nat.lt_or_ge e 2 with he2 | he2
  · -- a unit of two: the tie goes to the even significand
    obtain rfl : e = 1 := by omega
    rw [Nat.pow_one] at he ⊢
    by_cases hodd : m % 2 = 0
    · rw [if_pos (Or.inr ⟨rfl, hodd⟩), if_neg (by omega), he]
    · rw [if_neg (by omega), if_pos (by omega), he]
      omega
  · obtain ⟨k, rfl⟩ : ∃ k, e = k + 2 := ⟨e - 2, by omega⟩
    have hfour : 2 ^ (k + 2) = 4 * 2 ^ k := by
      rw [Nat.pow_add, mul_comm]
    have hk : 0 < 2 ^ k := by positivity
    have hdvd : n % 4 = 0 := by
      rw [he, hfour, mul_left_comm]
      exact Nat.mul_mod_right 4 _
    rw [if_pos (Or.inl (by omega)), if_neg (by omega), he]

/-- Below `2 ^ 53` the next integer is a float. -/
theorem nearest_succ_of_lt (h : n < 2 ^ 53) : nearest (n + 1) = n + 1 := by
  rcases Nat.lt_or_ge (n + 1) (2 ^ 53) with hlt | hge
  · exact nearest_of_lt hlt
  · have hn : n + 1 = 2 ^ 52 * 2 ^ 1 := by omega
    rw [hn, nearest_mul_pow le_rfl (by norm_num)]

theorem nearest_succ_lt {k : ℕ} (hk : 54 < k) (hfloat : nearest n = n) (h : n < 2 ^ k) :
    nearest (n + 1) < 2 ^ k := by
  have hpow : 2 ^ 54 < 2 ^ k := Nat.pow_lt_pow_right (by norm_num) hk
  rcases Nat.lt_or_ge n (2 ^ 53) with hn | hn
  · rw [nearest_succ_of_lt hn]
    omega
  · rw [nearest_succ hfloat hn]
    split_ifs
    · omega
    · exact h

theorem shortest_of_lt (h : n < 2 ^ 53) : shortest n = n := by
  unfold shortest
  rcases hc : candidate n _ with _ | c
  · rfl
  · have hfound := List.find?_some hc
    exact eq_of_nearest_eq h (of_decide_eq_true hfound)

/-- A finite number: zero, or a sign and a decimal. -/
inductive Number where
  | zero
  | finite (negative : Bool) (d : Decimal)
  deriving DecidableEq

namespace Number

/-- A number as printed. -/
def literal : Number → Literal
  | zero => .ofInt 0
  | finite negative d => d.literal negative

/-- What a number prints as is worth. -/
def value : Number → ℚ
  | zero => 0
  | finite negative d => sign negative * d.value

/-- The number an integer literal is read as, if it is not too large to be finite. -/
def ofInt (i : ℤ) : Option Number :=
  if h : shortest (nearest i.natAbs) = 0 then some zero
  else if nearest i.natAbs < 2 ^ 1024 then
    some (finite (decide (i < 0)) (.ofNat (shortest (nearest i.natAbs)) h))
  else none

/-- **Small integers survive.**  An integer below `2 ^ 53` in magnitude is read and printed as
it was written. -/
theorem literal_ofInt {i : ℤ} (h : |i| < 2 ^ 53) : (ofInt i).map literal = some (.ofInt i) := by
  have hlt : i.natAbs < 2 ^ 53 := by
    rw [← Int.natCast_natAbs] at h
    exact_mod_cast h
  have hexact : shortest (nearest i.natAbs) = i.natAbs := by
    rw [nearest_of_lt hlt, shortest_of_lt hlt]
  unfold ofInt
  split_ifs with hzero hfinite
  · have hi : i = 0 := Int.natAbs_eq_zero.mp (hexact.symm.trans hzero)
    rw [hi]
    rfl
  · have hsmall : shortest (nearest i.natAbs) < 10 ^ 21 := by
      rw [hexact]
      exact lt_trans hlt (by norm_num)
    rw [map_some, literal, Decimal.literal_ofNat _ _ _ hsmall, hexact]
    rfl
  · rw [nearest_of_lt hlt] at hfinite
    exact absurd (lt_trans hlt (Nat.pow_lt_pow_right (by norm_num) (by norm_num))) hfinite

theorem integer_literal_iff (x : Number) (i : ℤ) :
    x.literal.integer = some i ↔ x.value = i ∧ |i| < 10 ^ 21 := by
  cases x with
  | zero =>
    rw [literal, Literal.integer_ofInt, some.injEq, value]
    constructor
    · rintro rfl
      exact ⟨by norm_num, by norm_num⟩
    · rintro ⟨hi, -⟩
      exact_mod_cast hi
  | finite negative d => exact d.integer_literal_iff negative i

theorem literal_of_integer {x : Number} {i : ℤ} (h : x.literal.integer = some i) :
    x.literal = .ofInt i := by
  cases x with
  | zero =>
    rw [literal, Literal.integer_ofInt, some.injEq] at h
    rw [literal, h]
  | finite negative d =>
    have hint : 0 ≤ d.scale ∧ d.point ≤ 21 := by
      by_contra hno
      rw [literal, Decimal.integer_literal, if_neg hno] at h
      exact absurd h (by simp)
    have hpos : 0 < d.significand * 10 ^ d.scale.toNat :=
      Nat.mul_pos d.significand_pos (by positivity)
    rw [literal, Decimal.integer_literal, if_pos hint, some.injEq] at h
    rw [literal, Decimal.literal, if_pos hint, ← h]
    cases negative with
    | false =>
      rw [sign, one_mul, Literal.ofInt, Int.natAbs_natCast,
        decide_eq_false (not_lt.mpr (Int.natCast_nonneg _))]
    | true =>
      have hneg : (-1 : ℤ) * ((d.significand * 10 ^ d.scale.toNat : ℕ) : ℤ) < 0 := by omega
      rw [sign, Literal.ofInt, decide_eq_true hneg, Int.natAbs_mul, Int.natAbs_natCast]
      norm_num

theorem value_literal (x : Number) : x.literal.value = x.value := by
  cases x with
  | zero => rw [literal, Literal.value_ofInt, value, Int.cast_zero]
  | finite negative d => exact d.value_literal negative

end Number

/-! ## The float nearest to a literal -/

/-- A float: infinite, or a rational number. -/
inductive Extended where
  | posInf
  | negInf
  | finite (q : ℚ)
  deriving DecidableEq

/-- The nearest integer; of two, the even one. -/
def roundEven (q : ℚ) : ℤ :=
  if q - ⌊q⌋ < 1 / 2 ∨ (q - ⌊q⌋ = 1 / 2 ∧ ⌊q⌋ % 2 = 0) then ⌊q⌋ else ⌊q⌋ + 1

/-- The nearest number with 53 significant bits and no unit below `2 ^ -1074`. -/
def nearestFloat (a : ℚ) : ℚ :=
  let unit : ℚ := 2 ^ max (Int.log 2 a - 52) (-1074)
  roundEven (a / unit) * unit

/-- The float a literal is read as. -/
def Literal.double (l : Literal) : Extended :=
  if nearestFloat |l.value| < 2 ^ 1024 then .finite (sign l.negative * nearestFloat |l.value|)
  else if l.negative then .negInf else .posInf

theorem roundEven_intCast (i : ℤ) : roundEven i = i := by
  rw [roundEven, Int.floor_intCast, sub_self, if_pos (Or.inl (by norm_num))]

/-- An integer below `2 ^ 53` is a float. -/
theorem nearestFloat_natCast (h : n < 2 ^ 53) : nearestFloat n = n := by
  -- the unit divides one, so the quotient is an integer
  have hlog : Int.log 2 (n : ℚ) ≤ 52 := by
    rw [Int.log_natCast]
    have hlt : Nat.log 2 n < 53 := Nat.log_lt_of_lt_pow' (by norm_num) h
    omega
  obtain ⟨k, hk⟩ : ∃ k : ℕ, max (Int.log 2 (n : ℚ) - 52) (-1074) = -(k : ℤ) :=
    ⟨(-max (Int.log 2 (n : ℚ) - 52) (-1074)).toNat, by omega⟩
  have hunit : (n : ℚ) / 2 ^ (-(k : ℤ)) = ((n * 2 ^ k : ℕ) : ℤ) := by
    rw [zpow_neg, zpow_natCast, div_inv_eq_mul]
    push_cast
    ring
  have hpow : (2 : ℚ) ^ k ≠ 0 := by positivity
  simp only [nearestFloat]
  rw [hk, hunit, roundEven_intCast, zpow_neg, zpow_natCast]
  push_cast
  rw [mul_assoc, mul_inv_cancel₀ hpow, mul_one]

theorem roundEven_div (n u : ℕ) (hu : 0 < u) :
    roundEven ((n : ℚ) / u) =
      if 2 * (n % u) < u ∨ (2 * (n % u) = u ∧ n / u % 2 = 0) then ((n / u : ℕ) : ℤ)
      else (n / u + 1 : ℕ) := by
  have hpos : (0 : ℚ) < u := by exact_mod_cast hu
  have hfloor : ⌊(n : ℚ) / u⌋ = ((n / u : ℕ) : ℤ) := by
    exact_mod_cast Rat.floor_natCast_div_natCast n u
  have hsplit : (n : ℚ) / u - ((n / u : ℕ) : ℤ) = ((n % u : ℕ) : ℚ) / u := by
    rw [eq_div_iff hpos.ne', sub_mul, div_mul_cancel₀ _ hpos.ne', Int.cast_natCast,
      sub_eq_iff_eq_add', mul_comm, ← Nat.cast_mul, ← Nat.cast_add, Nat.div_add_mod]
  have hless : ((n % u : ℕ) : ℚ) / u < 1 / 2 ↔ 2 * (n % u) < u := by
    rw [div_lt_div_iff₀ hpos (by norm_num), one_mul, mul_comm]
    exact_mod_cast Iff.rfl
  have htie : ((n % u : ℕ) : ℚ) / u = 1 / 2 ↔ 2 * (n % u) = u := by
    rw [div_eq_div_iff hpos.ne' (by norm_num), one_mul, mul_comm]
    exact_mod_cast Iff.rfl
  have heven : ((n / u : ℕ) : ℤ) % 2 = 0 ↔ n / u % 2 = 0 := by omega
  rw [roundEven, hfloor, hsplit]
  simp only [hless, htie, heven]
  split_ifs
  · rfl
  · push_cast
    rfl

theorem nearestFloat_natCast_eq (n : ℕ) : nearestFloat n = nearest n := by
  rcases Nat.lt_or_ge n (2 ^ 53) with h | h
  · rw [nearestFloat_natCast h, nearest_of_lt h]
  · have hpos : n ≠ 0 := by
      rintro rfl
      exact absurd h (by norm_num)
    have hlog : 53 ≤ Nat.log 2 n := (Nat.le_log_iff_pow_le (by norm_num) hpos).mpr h
    have hunit : max (Int.log 2 (n : ℚ) - 52) (-1074) = ((Nat.log 2 n - 52 : ℕ) : ℤ) := by
      rw [Int.log_natCast]
      omega
    have hpow : ((2 : ℚ) ^ (Nat.log 2 n - 52)) = ((2 ^ (Nat.log 2 n - 52) : ℕ) : ℚ) := by
      push_cast
      rfl
    simp only [nearestFloat]
    rw [hunit, zpow_natCast, hpow, roundEven_div n _ (by positivity), nearest,
      if_neg (not_lt.mpr h)]
    dsimp only
    split_ifs <;> push_cast <;> rfl

theorem nearestFloat_shortest (h : nearestFloat n = n) : nearestFloat (shortest n) = n := by
  unfold shortest
  rcases hc : candidate n _ with _ | c
  · exact h
  · have hfound := List.find?_some hc
    rw [getD_some, nearestFloat_natCast_eq, of_decide_eq_true hfound]

/-- An integer below `2 ^ 53` in magnitude is read exactly. -/
theorem Literal.double_ofInt {i : ℤ} (h : |i| < 2 ^ 53) : (ofInt i).double = .finite i := by
  have hlt : i.natAbs < 2 ^ 53 := by
    rw [← Int.natCast_natAbs] at h
    exact_mod_cast h
  have habs : |((ofInt i).value)| = ((i.natAbs : ℕ) : ℚ) := by
    rw [value_ofInt, ← Int.cast_abs, ← Int.natCast_natAbs, Int.cast_natCast]
  have hsign : (sign (ofInt i).negative : ℚ) * ((i.natAbs : ℕ) : ℚ) = i := by
    have hvalue := value_ofInt i
    simp only [value, ofInt, elim_none, add_zero, getD_none, zpow_zero, mul_one] at hvalue
    exact hvalue
  have hfinite : ((i.natAbs : ℕ) : ℚ) < 2 ^ 1024 := by
    have hnat : i.natAbs < 2 ^ 1024 :=
      lt_trans hlt (Nat.pow_lt_pow_right (by norm_num) (by norm_num))
    exact_mod_cast hnat
  rw [double, habs, nearestFloat_natCast hlt, if_pos hfinite, hsign]

theorem shortest_pos (hn : 0 < n) (h : nearestFloat n = n) : 0 < shortest n := by
  refine Nat.pos_of_ne_zero fun hzero => ?_
  have hback := nearestFloat_shortest h
  rw [hzero, nearestFloat_natCast (by norm_num)] at hback
  have hcast : 0 = n := by exact_mod_cast hback
  omega

/-- The integer that a float without a fraction prints as. -/
def printedInteger (q : ℚ) : ℤ := q.num.sign * shortest q.num.natAbs

/-- **What a float without a fraction prints as is read back as it.** -/
theorem double_printedInteger {q : ℚ} (hden : q.den = 1) (hfloat : nearestFloat |q| = |q|)
    (hlt : |q| < 2 ^ 1024) : (Literal.ofInt (printedInteger q)).double = .finite q := by
  obtain ⟨i, rfl⟩ : ∃ i : ℤ, q = i := ⟨q.num, (Rat.coe_int_num_of_den_eq_one hden).symm⟩
  have habs : |(i : ℚ)| = (i.natAbs : ℕ) := by
    rw [← Int.cast_abs, ← Int.natCast_natAbs, Int.cast_natCast]
  rw [habs] at hfloat hlt
  rw [printedInteger, Rat.num_intCast]
  rcases eq_or_ne i 0 with rfl | hi
  · rw [Int.sign_zero, zero_mul, Int.cast_zero]
    exact Literal.double_ofInt (by norm_num)
  · have hpos := shortest_pos (Int.natAbs_pos.mpr hi) hfloat
    have hvalue : |((i.sign * (shortest i.natAbs : ℕ) : ℤ) : ℚ)| = (shortest i.natAbs : ℕ) := by
      rw [← Int.cast_abs, ← Int.natCast_natAbs, Int.natAbs_mul, Int.natAbs_sign_of_ne_zero hi,
        Int.natAbs_natCast, one_mul, Int.cast_natCast]
    have hnegative : (i.sign * (shortest i.natAbs : ℕ) : ℤ) < 0 ↔ i < 0 := by
      rw [mul_neg_iff, Int.sign_neg_iff]
      omega
    rw [Literal.double, Literal.value_ofInt, hvalue, nearestFloat_shortest hfloat, if_pos hlt,
      Literal.ofInt]
    simp only [hnegative]
    rcases lt_or_ge i 0 with h | h
    · rw [decide_eq_true h, sign, ← habs, abs_of_neg (by exact_mod_cast h)]
      push_cast
      ring_nf
    · rw [decide_eq_false (not_lt.mpr h), sign, ← habs, abs_of_nonneg (by exact_mod_cast h)]
      push_cast
      rw [one_mul]

end Decimals
