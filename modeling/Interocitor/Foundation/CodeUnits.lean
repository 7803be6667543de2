import Mathlib.Data.Nat.Digits.Lemmas

/-!
# Texts as code units, and numerals in them

A text is a sequence of 16-bit code units, and texts are compared
lexicographically by code unit, a proper prefix being smaller.  That is the
string type, and the string order, of the language whose programs are modelled
here; a text need not be well-formed Unicode.

The rest of the file is about numbers written in texts.

* `numeral b n`: the digits of `n` in base `b`, most significant first, with the
  letters from `a` on for the digits from ten on; `padStart`: fill up on the left.
* `parseInt`: what a lenient integer parser reads --- leading white space, a plus
  sign and, in base sixteen, the prefix `0x` are skipped, then the longest run of
  digits counts, and no digit at all is not a number.
* `parseInt_padStart_numeral`: a padded numeral is read back.
* `padStart_numeral_lt_iff`: padded numerals of one width are ordered as texts the
  way their values are ordered as numbers.
* `append_lt_append_iff`: equal-length prefixes decide the order first.
-/

namespace CodeUnits

open List

/-- A 16-bit code unit. -/
abbrev CodeUnit := Fin 65536

/-- A text: a list of code units, ordered lexicographically. -/
abbrev Text := List CodeUnit

/-- There is a code unit. -/
instance neZeroCodeUnits : NeZero 65536 := ⟨by decide⟩

/-- Texts are compared unit by unit. -/
instance lawfulBEqText : LawfulBEq Text := inferInstance

/-! ## Lexicographic order -/

theorem append_lt_append_iff {s t x y : Text} (h : s.length = t.length) :
    s ++ x < t ++ y ↔ s < t ∨ s = t ∧ x < y := by
  induction s generalizing t with
  | nil =>
    obtain rfl := length_eq_zero_iff.mp h.symm
    simp
  | cons a s ih =>
    cases t with
    | nil => simp at h
    | cons b t =>
      have ht : s.length = t.length := by simpa using h
      rw [cons_append, cons_append, cons_lt_cons_iff, cons_lt_cons_iff, ih ht, List.cons.injEq]
      tauto

/-! ## Digits -/

/-- The code unit of a digit: `0` to `9`, then the lower-case letters. -/
def digitUnit (d : ℕ) : CodeUnit := Fin.ofNat 65536 (if d < 10 then 48 + d else 87 + d)

/-- The value of a code unit as a digit, in either case of the letters. -/
def digitValue (u : CodeUnit) : Option ℕ :=
  if 48 ≤ u.val ∧ u.val ≤ 57 then some (u.val - 48)
  else if 97 ≤ u.val ∧ u.val ≤ 122 then some (u.val - 87)
  else if 65 ≤ u.val ∧ u.val ≤ 90 then some (u.val - 55)
  else none

variable {d : ℕ}

theorem val_digitUnit (h : d < 16) : (digitUnit d).val = if d < 10 then 48 + d else 87 + d := by
  simp only [digitUnit, Fin.ofNat]
  split_ifs <;> omega

theorem digitUnit_lt_iff {e : ℕ} (hd : d < 16) (he : e < 16) :
    digitUnit d < digitUnit e ↔ d < e := by
  rw [Fin.lt_def, val_digitUnit hd, val_digitUnit he]
  split_ifs <;> omega

theorem digitUnit_inj {e : ℕ} (hd : d < 16) (he : e < 16) : digitUnit d = digitUnit e ↔ d = e := by
  rw [Fin.ext_iff, val_digitUnit hd, val_digitUnit he]
  split_ifs <;> omega

theorem digitValue_digitUnit (h : d < 16) : digitValue (digitUnit d) = some d := by
  rw [digitValue, val_digitUnit h]
  split_ifs <;> first | omega | (congr 1; omega)

/-- The digits of a number, most significant first; zero has one digit. -/
def digitsFront (b n : ℕ) : List ℕ := if n = 0 then [0] else (Nat.digits b n).reverse

/-- The value of a list of digits, most significant first. -/
def frontValue (b : ℕ) (l : List ℕ) : ℕ := l.foldl (fun acc d => acc * b + d) 0

theorem foldl_digits (b acc : ℕ) (l : List ℕ) :
    l.foldl (fun acc d => acc * b + d) acc = acc * b ^ l.length + frontValue b l := by
  induction l generalizing acc with
  | nil => simp [frontValue]
  | cons d l ih =>
    rw [frontValue, foldl_cons, foldl_cons, ih, ih, length_cons, pow_succ]
    ring

theorem frontValue_cons (b d : ℕ) (l : List ℕ) :
    frontValue b (d :: l) = d * b ^ l.length + frontValue b l := by
  rw [frontValue, foldl_cons, foldl_digits]
  simp

theorem frontValue_replicate_zero_append (b k : ℕ) (l : List ℕ) :
    frontValue b (List.replicate k 0 ++ l) = frontValue b l := by
  induction k with
  | zero => rfl
  | succ k ih => rw [replicate_succ, cons_append, frontValue_cons, ih, Nat.zero_mul,
      Nat.zero_add]

theorem frontValue_append_singleton (b d : ℕ) (l : List ℕ) :
    frontValue b (l ++ [d]) = frontValue b l * b + d := by
  rw [frontValue, foldl_append]
  rfl

theorem frontValue_reverse (b : ℕ) (l : List ℕ) : frontValue b l.reverse = Nat.ofDigits b l := by
  induction l with
  | nil => rfl
  | cons d l ih =>
    rw [reverse_cons, frontValue_append_singleton, ih, Nat.ofDigits_cons, Nat.mul_comm,
      Nat.add_comm]

@[simp] theorem frontValue_digitsFront (b n : ℕ) : frontValue b (digitsFront b n) = n := by
  rw [digitsFront]
  split_ifs with h
  · rw [h, frontValue_cons, Nat.zero_mul, Nat.zero_add]
    rfl
  · rw [frontValue_reverse, Nat.ofDigits_digits]

variable {b : ℕ}

theorem lt_of_mem_digitsFront {n : ℕ} (hb : 1 < b) (h : d ∈ digitsFront b n) : d < b := by
  rw [digitsFront] at h
  split_ifs at h with hn
  · rw [mem_singleton] at h
    omega
  · exact Nat.digits_lt_base hb (mem_reverse.mp h)

theorem length_digitsFront_le_iff {n w : ℕ} (hb : 1 < b) (hw : 0 < w) :
    (digitsFront b n).length ≤ w ↔ n < b ^ w := by
  rw [digitsFront]
  split_ifs with h
  · rw [h]
    exact ⟨fun _ => Nat.pow_pos (by omega), fun _ => hw⟩
  · rw [length_reverse, Nat.digits_length_le_iff hb]

theorem digitsFront_ne_nil (b n : ℕ) : digitsFront b n ≠ [] := by
  rw [digitsFront]
  split_ifs with h
  · exact cons_ne_nil _ _
  · rw [Ne, reverse_eq_nil_iff]
    exact Nat.digits_ne_nil_iff_ne_zero.mpr h

variable {l : List ℕ}

theorem frontValue_lt_pow (hb : 1 < b) (hl : ∀ d ∈ l, d < b) : frontValue b l < b ^ l.length := by
  have h := Nat.ofDigits_lt_base_pow_length (b := b) (l := l.reverse) hb
    fun d hd => hl d (mem_reverse.mp hd)
  rwa [← frontValue_reverse, reverse_reverse, length_reverse] at h

theorem map_digitUnit_lt_iff (hb : 1 < b) (hb' : b ≤ 16) {m : List ℕ} (h : l.length = m.length)
    (hl : ∀ d ∈ l, d < b) (hm : ∀ d ∈ m, d < b) :
    l.map digitUnit < m.map digitUnit ↔ frontValue b l < frontValue b m := by
  induction l generalizing m with
  | nil =>
    obtain rfl := length_eq_zero_iff.mp h.symm
    simp [frontValue]
  | cons d l ih =>
    cases m with
    | nil => simp at h
    | cons e m =>
      have hlm : l.length = m.length := by simpa using h
      have hl' : ∀ x ∈ l, x < b := fun x hx => hl x (mem_cons_of_mem _ hx)
      have hm' : ∀ x ∈ m, x < b := fun x hx => hm x (mem_cons_of_mem _ hx)
      have hd : d < b := hl d mem_cons_self
      have he : e < b := hm e mem_cons_self
      have hlow := frontValue_lt_pow hb hl'
      have hlow' := frontValue_lt_pow hb hm'
      rw [map_cons, map_cons, cons_lt_cons_iff,
        digitUnit_lt_iff (by omega) (by omega), digitUnit_inj (by omega) (by omega), ih hlm hl' hm',
        frontValue_cons, frontValue_cons, ← hlm]
      rw [← hlm] at hlow'
      -- the leading digit decides unless the two leading digits agree
      rcases Nat.lt_trichotomy d e with hde | rfl | hde
      · have hstep : (d + 1) * b ^ l.length ≤ e * b ^ l.length := Nat.mul_le_mul_right _ hde
        rw [Nat.add_mul, Nat.one_mul] at hstep
        exact ⟨fun _ => by omega, fun _ => Or.inl hde⟩
      · simp
      · have hstep : (e + 1) * b ^ l.length ≤ d * b ^ l.length := Nat.mul_le_mul_right _ hde
        rw [Nat.add_mul, Nat.one_mul] at hstep
        exact ⟨fun hc => by omega, fun hc => by omega⟩

/-! ## Numerals -/

/-- A number written in base `b`. -/
def numeral (b n : ℕ) : Text := (digitsFront b n).map digitUnit

/-- Fill a text up on the left to a width. -/
def padStart (w : ℕ) (u : CodeUnit) (s : Text) : Text := List.replicate (w - s.length) u ++ s

/-- The digits of a numeral filled up with zeros. -/
def paddedDigits (w b n : ℕ) : List ℕ :=
  List.replicate (w - (digitsFront b n).length) 0 ++ digitsFront b n

theorem padStart_numeral (w b n : ℕ) :
    padStart w (digitUnit 0) (numeral b n) = (paddedDigits w b n).map digitUnit := by
  rw [padStart, numeral, paddedDigits, map_append, map_replicate, length_map]

@[simp] theorem frontValue_paddedDigits (w b n : ℕ) : frontValue b (paddedDigits w b n) = n := by
  rw [paddedDigits, frontValue_replicate_zero_append, frontValue_digitsFront]

theorem lt_of_mem_paddedDigits {w n : ℕ} (hb : 1 < b) (h : d ∈ paddedDigits w b n) : d < b := by
  rw [paddedDigits, mem_append] at h
  rcases h with h | h
  · rw [eq_of_mem_replicate h]
    omega
  · exact lt_of_mem_digitsFront hb h

theorem length_paddedDigits {w n : ℕ} (hb : 1 < b) (hw : 0 < w) (h : n < b ^ w) :
    (paddedDigits w b n).length = w := by
  have hle := (length_digitsFront_le_iff hb hw).mpr h
  rw [paddedDigits, length_append, length_replicate]
  omega

theorem lt_length_paddedDigits {w n : ℕ} (hb : 1 < b) (hw : 0 < w) (h : b ^ w ≤ n) :
    w < (paddedDigits w b n).length := by
  have hle : ¬ (digitsFront b n).length ≤ w := fun hc =>
    absurd ((length_digitsFront_le_iff hb hw).mp hc) (by omega)
  rw [paddedDigits, length_append]
  omega

theorem padStart_numeral_lt_iff {w n m : ℕ} (hb : 1 < b) (hb' : b ≤ 16) (hw : 0 < w)
    (hn : n < b ^ w) (hm : m < b ^ w) :
    padStart w (digitUnit 0) (numeral b n) < padStart w (digitUnit 0) (numeral b m) ↔ n < m := by
  rw [padStart_numeral, padStart_numeral, map_digitUnit_lt_iff hb hb'
    ((length_paddedDigits hb hw hn).trans (length_paddedDigits hb hw hm).symm)
    (fun d => lt_of_mem_paddedDigits hb) (fun d => lt_of_mem_paddedDigits hb)]
  simp

/-! ## Reading a number -/

/-- The white space a lenient parser skips. -/
def isSpace (u : CodeUnit) : Bool :=
  decide (u.val ∈ [9, 10, 11, 12, 13, 32, 160, 5760, 8192, 8193, 8194, 8195, 8196, 8197, 8198,
    8199, 8200, 8201, 8202, 8232, 8233, 8239, 8287, 12288, 65279])

/-- A digit below the radix. -/
def digitBelow (radix : ℕ) (u : CodeUnit) : Option ℕ :=
  (digitValue u).filter fun d => decide (d < radix)

/-- The digits at the front of a text. -/
def leadingDigits (radix : ℕ) : Text → List ℕ
  | [] => []
  | u :: s =>
    match digitBelow radix u with
    | some d => d :: leadingDigits radix s
    | none => []

/-- Drop one leading plus sign. -/
def dropSign : Text → Text
  | u :: s => if u.val = 43 then s else u :: s
  | [] => []

/-- Drop a leading `0x` or `0X`. -/
def dropHexPrefix : Text → Text
  | u :: x :: s => if u.val = 48 ∧ (x.val = 120 ∨ x.val = 88) then s else u :: x :: s
  | s => s

/-- Read an integer from the front of a text; `none` is "not a number".  A minus
sign is not read: the texts parsed here are cut at every minus sign. -/
def parseInt (radix : ℕ) (s : Text) : Option ℕ :=
  let t := dropSign (s.dropWhile isSpace)
  let ds := leadingDigits radix (if radix = 16 then dropHexPrefix t else t)
  if ds = [] then none else some (frontValue radix ds)

variable {radix : ℕ}

theorem digitBelow_digitUnit (hr : radix ≤ 16) (h : d < radix) :
    digitBelow radix (digitUnit d) = some d := by
  rw [digitBelow, digitValue_digitUnit (by omega), Option.filter_some, if_pos (by simpa using h)]

theorem leadingDigits_map_digitUnit (hr : radix ≤ 16) (hl : ∀ d ∈ l, d < radix) :
    leadingDigits radix (l.map digitUnit) = l := by
  induction l with
  | nil => rfl
  | cons d l ih =>
    rw [map_cons, leadingDigits, digitBelow_digitUnit hr (hl d mem_cons_self)]
    simp only [ih fun x hx => hl x (mem_cons_of_mem _ hx)]

theorem parseInt_map_digitUnit (hr : radix ≤ 16) (hne : l ≠ []) (hl : ∀ d ∈ l, d < radix) :
    parseInt radix (l.map digitUnit) = some (frontValue radix l) := by
  obtain ⟨d, l, rfl⟩ := exists_cons_of_ne_nil hne
  have hd16 : d < 16 := lt_of_lt_of_le (hl d mem_cons_self) hr
  have hval := val_digitUnit hd16
  have hspace : isSpace (digitUnit d) = false := by
    rw [isSpace, decide_eq_false_iff_not, hval]
    split_ifs <;> simp <;> omega
  have hsign : ¬ (digitUnit d).val = 43 := by
    rw [hval]
    split_ifs <;> omega
  have hhex : dropHexPrefix ((d :: l).map digitUnit) = (d :: l).map digitUnit := by
    cases l with
    | nil => rfl
    | cons e l =>
      have he : e < 16 := lt_of_lt_of_le (hl e (by simp)) hr
      have hvale := val_digitUnit he
      rw [map_cons, map_cons, dropHexPrefix, if_neg]
      rw [hvale]
      split_ifs <;> omega
  have hdrop : dropSign (((d :: l).map digitUnit).dropWhile isSpace) =
      (d :: l).map digitUnit := by
    rw [map_cons, dropWhile_cons_of_neg (by rw [hspace]; exact Bool.false_ne_true),
      dropSign, if_neg hsign]
  simp only [parseInt, hdrop, hhex, ite_self, leadingDigits_map_digitUnit hr hl, if_neg hne]

theorem parseInt_padStart_numeral (w n : ℕ) (hr : 1 < radix) (hr' : radix ≤ 16) :
    parseInt radix (padStart w (digitUnit 0) (numeral radix n)) = some n := by
  have hne : paddedDigits w radix n ≠ [] := fun h =>
    digitsFront_ne_nil radix n (append_eq_nil_iff.mp h).2
  rw [padStart_numeral, parseInt_map_digitUnit hr' hne fun d => lt_of_mem_paddedDigits hr,
    frontValue_paddedDigits]

end CodeUnits
