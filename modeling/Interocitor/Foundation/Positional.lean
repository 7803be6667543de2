import Interocitor.Foundation.CodeUnits

/-!
# Positional notation, computed in three ways

A number is written to a base by dividing it again and again, and read by Horner's rule.  Where a
machine has no numbers of that size the digits themselves are kept, least significant first, and
each further digit of the input is worked in with a carry.  And where the width is fixed in advance
the low digits are cut off one by one, and what remains says whether the number fits.

All of these are compared with `Nat.digits` and with `frontValue`, the value of a list of digits
that starts with the most significant one.

* `digitLoop_eq`: repeated division gives the digits.
* `lowDigits_eq`: cutting off digits gives the digits at a fixed width, and the quotient.
* `mulAdd_digits`: a digit array with a carry stays the array of the digits.
* `fit_eq`: cutting or filling a list of digits at the front to a fixed width.
-/

namespace Positional

open CodeUnits List

/-! ## Repeated division -/

/-- Divide by the base until nothing is left, and put each remainder in front. -/
def digitLoop (b : ℕ) (n : ℕ) (acc : List ℕ) : List ℕ :=
  if _h : 1 < b ∧ 0 < n then digitLoop b (n / b) (n % b :: acc) else acc
  termination_by n
  decreasing_by exact Nat.div_lt_self _h.2 _h.1

theorem digitLoop_zero (b : ℕ) (acc : List ℕ) : digitLoop b 0 acc = acc := by
  rw [digitLoop, dif_neg (by omega)]

variable {b : ℕ}

theorem digitLoop_eq (hb : 1 < b) (n : ℕ) (acc : List ℕ) :
    digitLoop b n acc = (Nat.digits b n).reverse ++ acc := by
  induction n using Nat.strongRecOn generalizing acc with
  | ind n ih =>
    rcases Nat.eq_zero_or_pos n with rfl | hn
    · rw [digitLoop_zero, Nat.digits_zero]
      rfl
    · rw [digitLoop, dif_pos ⟨hb, hn⟩, ih (n / b) (Nat.div_lt_self hn hb), Nat.digits_def' hb hn,
        reverse_cons, append_assoc]
      rfl

/-! ## A fixed width -/

/-- The digits of a number at a width, most significant first; what does not fit is dropped. -/
def fixedDigits (b : ℕ) : ℕ → ℕ → List ℕ
  | 0, _ => []
  | w + 1, n => fixedDigits b w (n / b) ++ [n % b]

@[simp] theorem length_fixedDigits (b w n : ℕ) : (fixedDigits b w n).length = w := by
  induction w generalizing n with
  | zero => rfl
  | succ w ih => rw [fixedDigits, length_append, ih, length_singleton]

theorem lt_of_mem_fixedDigits {w n d : ℕ} (hb : 0 < b) (h : d ∈ fixedDigits b w n) : d < b := by
  induction w generalizing n with
  | zero => cases h
  | succ w ih =>
    rw [fixedDigits, mem_append, mem_singleton] at h
    rcases h with h | rfl
    · exact ih h
    · exact Nat.mod_lt n hb

theorem frontValue_fixedDigits (b w n : ℕ) : frontValue b (fixedDigits b w n) = n % b ^ w := by
  induction w generalizing n with
  | zero => rw [pow_zero, Nat.mod_one]; rfl
  | succ w ih =>
    rw [fixedDigits, frontValue_append_singleton, ih, Nat.pow_succ', Nat.mod_mul, Nat.add_comm,
      Nat.mul_comm]

theorem eq_of_frontValue (hb : 1 < b) {l m : List ℕ} (h : l.length = m.length) (hl : ∀ d ∈ l, d < b)
    (hm : ∀ d ∈ m, d < b) (hvalue : frontValue b l = frontValue b m) : l = m := by
  have hrev : l.reverse = m.reverse := by
    refine Nat.ofDigits_inj_of_len_eq hb (by simpa using h) (fun d hd => hl d (by simpa using hd))
      (fun d hd => hm d (by simpa using hd)) ?_
    rw [← frontValue_reverse, ← frontValue_reverse, reverse_reverse, reverse_reverse, hvalue]
  exact reverse_injective hrev

variable {l : List ℕ}

theorem fixedDigits_eq_iff (hb : 1 < b) {w n : ℕ} (hlength : l.length = w) (hl : ∀ d ∈ l, d < b) :
    fixedDigits b w n = l ↔ frontValue b l = n % b ^ w := by
  constructor
  · rintro rfl
    exact frontValue_fixedDigits b w n
  · intro h
    refine eq_of_frontValue hb (by rw [length_fixedDigits, hlength])
      (fun d => lt_of_mem_fixedDigits (by omega)) hl ?_
    rw [frontValue_fixedDigits, h]

theorem fixedDigits_frontValue (hb : 1 < b) {w : ℕ} (hlength : l.length = w) (hl : ∀ d ∈ l, d < b) :
    fixedDigits b w (frontValue b l) = l := by
  rw [fixedDigits_eq_iff hb hlength hl, Nat.mod_eq_of_lt]
  rw [← hlength]
  exact frontValue_lt_pow hb hl

/-- Cut off the low digits one by one, each in front of those before; the rest of the number is
returned with them. -/
def lowDigits (b : ℕ) : ℕ → ℕ → List ℕ → List ℕ × ℕ
  | 0, n, acc => (acc, n)
  | w + 1, n, acc => lowDigits b w (n / b) (n % b :: acc)

theorem lowDigits_eq (b w n : ℕ) (acc : List ℕ) :
    lowDigits b w n acc = (fixedDigits b w n ++ acc, n / b ^ w) := by
  induction w generalizing n acc with
  | zero => rw [lowDigits, fixedDigits, pow_zero, Nat.div_one, nil_append]
  | succ w ih =>
    rw [lowDigits, ih, fixedDigits, append_assoc, Nat.div_div_eq_div_mul, Nat.pow_succ']
    rfl

theorem lowDigits_rest_pos_iff (hb : 0 < b) (w n : ℕ) (acc : List ℕ) :
    0 < (lowDigits b w n acc).2 ↔ ¬ n < b ^ w := by
  rw [lowDigits_eq, Nat.div_pos_iff, Nat.not_lt]
  exact ⟨fun h => h.2, fun h => ⟨Nat.pow_pos hb, h⟩⟩

/-- Fill a list of digits up at the front to a width, or cut it there. -/
def fit (w : ℕ) (l : List ℕ) : List ℕ :=
  if l.length < w then List.replicate (w - l.length) 0 ++ l else l.drop (l.length - w)

theorem length_fit (w : ℕ) (l : List ℕ) : (fit w l).length = w := by
  unfold fit
  split_ifs with h
  · rw [length_append, length_replicate]
    omega
  · rw [length_drop]
    omega

theorem frontValue_append (b : ℕ) (l m : List ℕ) :
    frontValue b (l ++ m) = frontValue b l * b ^ m.length + frontValue b m := by
  rw [frontValue, foldl_append, foldl_digits]
  rfl

theorem fit_eq (hb : 1 < b) (w : ℕ) (hl : ∀ d ∈ l, d < b) :
    fit w l = fixedDigits b w (frontValue b l) := by
  have hmem : ∀ d ∈ fit w l, d < b := by
    intro d hd
    unfold fit at hd
    split_ifs at hd
    · rcases mem_append.mp hd with hd | hd
      · rw [eq_of_mem_replicate hd]
        omega
      · exact hl d hd
    · exact hl d (mem_of_mem_drop hd)
  refine ((fixedDigits_eq_iff hb (length_fit w l) hmem).mpr ?_).symm
  have hfit : frontValue b (fit w l) < b ^ w := by
    have h := frontValue_lt_pow hb hmem
    rwa [length_fit] at h
  unfold fit at hfit ⊢
  split_ifs at hfit ⊢ with h
  · rw [frontValue_replicate_zero_append] at hfit ⊢
    rw [Nat.mod_eq_of_lt hfit]
  · -- what is cut off is a multiple of the power
    have hsplit := congrArg (frontValue b) (take_append_drop (l.length - w) l)
    rw [frontValue_append, length_drop] at hsplit
    rw [← hsplit, show l.length - (l.length - w) = w by omega, Nat.mul_comm, Nat.mul_add_mod,
      Nat.mod_eq_of_lt hfit]

/-! ## Two digits at a time -/

/-- Read a list of digits in pairs. -/
def pairDigits (b : ℕ) : List ℕ → List ℕ
  | d :: e :: l => (d * b + e) :: pairDigits b l
  | _ => []

theorem length_pairDigits (b : ℕ) : ∀ l : List ℕ, (pairDigits b l).length = l.length / 2
  | [] => rfl
  | [d] => by simp [pairDigits]
  | d :: e :: l => by
    rw [pairDigits, length_cons, length_pairDigits b l, length_cons, length_cons]
    omega

theorem lt_of_mem_pairDigits : ∀ {l : List ℕ}, (∀ d ∈ l, d < b) → ∀ x ∈ pairDigits b l,
    x < b * b
  | [], _, x, hx => by cases hx
  | [_], _, x, hx => by cases hx
  | d :: e :: l, hl, x, hx => by
    rw [pairDigits, mem_cons] at hx
    rcases hx with rfl | hx
    · have hd : (d + 1) * b ≤ b * b := Nat.mul_le_mul_right b (hl d mem_cons_self)
      have he : e < b := hl e (mem_cons_of_mem d mem_cons_self)
      rw [Nat.add_mul, Nat.one_mul] at hd
      omega
    · exact lt_of_mem_pairDigits (fun y hy => hl y (mem_cons_of_mem d (mem_cons_of_mem e hy))) x hx

theorem frontValue_pairDigits (b : ℕ) : ∀ l : List ℕ, Even l.length →
    frontValue (b * b) (pairDigits b l) = frontValue b l
  | [], _ => rfl
  | [_], h => absurd h (by simp)
  | d :: e :: l, h => by
    have hl : Even l.length := by
      rw [length_cons, length_cons] at h
      simpa [Nat.even_add_one] using h
    obtain ⟨k, hk⟩ := hl
    have hlength : (pairDigits b l).length = k := by
      rw [length_pairDigits]
      omega
    rw [pairDigits, frontValue_cons, frontValue_pairDigits b l ⟨k, hk⟩, hlength, frontValue_cons,
      frontValue_cons, length_cons, hk, ← Nat.pow_two, ← Nat.pow_mul, ← Nat.two_mul, pow_succ]
    ring

/-! ## Digit arrays with a carry -/

/-- Multiply a digit array by `m` and add a carry, digit by digit from the least significant one;
what is left of the carry becomes further digits. -/
def mulAdd (b m : ℕ) : List ℕ → ℕ → List ℕ
  | [], carry => (digitLoop b carry []).reverse
  | d :: ds, carry => (carry + d * m) % b :: mulAdd b m ds ((carry + d * m) / b)

theorem mulAdd_nil (hb : 1 < b) (m carry : ℕ) : mulAdd b m [] carry = Nat.digits b carry := by
  rw [mulAdd, digitLoop_eq hb, append_nil, reverse_reverse]

theorem ofDigits_mulAdd (hb : 1 < b) (m : ℕ) (ds : List ℕ) (carry : ℕ) :
    Nat.ofDigits b (mulAdd b m ds carry) = carry + Nat.ofDigits b ds * m := by
  induction ds generalizing carry with
  | nil => rw [mulAdd_nil hb, Nat.ofDigits_digits, Nat.ofDigits_nil, Nat.zero_mul, Nat.add_zero]
  | cons d ds ih =>
    have hdiv := Nat.mod_add_div (carry + d * m) b
    rw [mulAdd, Nat.ofDigits_cons, ih, Nat.ofDigits_cons, Nat.mul_add, ← Nat.add_assoc, hdiv]
    ring

theorem lt_of_mem_mulAdd (hb : 1 < b) {m : ℕ} {ds : List ℕ} {carry d : ℕ}
    (h : d ∈ mulAdd b m ds carry) : d < b := by
  induction ds generalizing carry with
  | nil =>
    rw [mulAdd_nil hb] at h
    exact Nat.digits_lt_base hb h
  | cons e ds ih =>
    rw [mulAdd, mem_cons] at h
    rcases h with rfl | h
    · exact Nat.mod_lt _ (by omega)
    · exact ih h

theorem mulAdd_ne_nil (b m : ℕ) {ds : List ℕ} (h : ds ≠ []) (carry : ℕ) :
    mulAdd b m ds carry ≠ [] := by
  cases ds with
  | nil => exact absurd rfl h
  | cons d ds => exact cons_ne_nil _ _

theorem getLast_mulAdd {m : ℕ} (hb : 1 < b) (hm : 0 < m) :
    ∀ (ds : List ℕ) (carry : ℕ), (∀ h : ds ≠ [], ds.getLast h ≠ 0) →
      ∀ h : mulAdd b m ds carry ≠ [], (mulAdd b m ds carry).getLast h ≠ 0
  | [], carry, _, h => by
    have hdigits := mulAdd_nil hb m carry
    have hne : Nat.digits b carry ≠ [] := hdigits ▸ h
    have hlast := Nat.getLast_digit_ne_zero b (Nat.digits_ne_nil_iff_ne_zero.mp hne)
    simpa only [hdigits] using hlast
  | [d], carry, hds, h => by
    have hd : d ≠ 0 := by simpa using hds (cons_ne_nil _ _)
    rcases Nat.eq_zero_or_pos ((carry + d * m) / b) with hzero | hpos
    · -- no carry is left: the last digit is the whole of `carry + d * m`
      have hrest : mulAdd b m [d] carry = [(carry + d * m) % b] := by
        rw [mulAdd, hzero, mulAdd_nil hb, Nat.digits_zero]
      have hlt : carry + d * m < b := (Nat.div_eq_zero_iff_lt (by omega)).mp hzero
      have hprod : 0 < d * m := Nat.mul_pos (Nat.pos_of_ne_zero hd) hm
      simp only [hrest, getLast_singleton, Nat.mod_eq_of_lt hlt]
      omega
    · have hne : Nat.digits b ((carry + d * m) / b) ≠ [] :=
        Nat.digits_ne_nil_iff_ne_zero.mpr (by omega)
      have hrest : mulAdd b m [d] carry =
          (carry + d * m) % b :: Nat.digits b ((carry + d * m) / b) := by
        rw [mulAdd, mulAdd_nil hb]
      simp only [hrest, getLast_cons hne]
      exact Nat.getLast_digit_ne_zero b (by omega)
  | d :: e :: ds, carry, hds, h => by
    have hrest := mulAdd_ne_nil b m (cons_ne_nil e ds) ((carry + d * m) / b)
    have hcons : mulAdd b m (d :: e :: ds) carry =
        (carry + d * m) % b :: mulAdd b m (e :: ds) ((carry + d * m) / b) := rfl
    have htail : ∀ h : e :: ds ≠ [], (e :: ds).getLast h ≠ 0 := fun h => by
      simpa [getLast_cons h] using hds (cons_ne_nil _ _)
    simp only [hcons, getLast_cons hrest]
    exact getLast_mulAdd hb hm (e :: ds) _ htail hrest

/-- A digit array as it is kept: the digits of the number, and one zero for zero. -/
def digitArray (b n : ℕ) : List ℕ := if n = 0 then [0] else Nat.digits b n

/-- **One further digit of the input.** -/
theorem mulAdd_digits {m : ℕ} (hb : 1 < b) (hm : 0 < m) (n carry : ℕ) :
    mulAdd b m (digitArray b n) carry = digitArray b (n * m + carry) := by
  unfold digitArray
  split_ifs with hn hsum hsum
  · obtain rfl : carry = 0 := by omega
    rw [mulAdd, Nat.zero_mul, Nat.add_zero, Nat.zero_div, mulAdd_nil hb, Nat.digits_zero,
      Nat.zero_mod]
  · -- from zero, the carry is written out
    have hcarry : n * m + carry = carry := by rw [hn, Nat.zero_mul, Nat.zero_add]
    rw [hcarry] at hsum ⊢
    rw [mulAdd, Nat.zero_mul, Nat.add_zero, mulAdd_nil hb,
      Nat.digits_def' hb (Nat.pos_of_ne_zero hsum)]
  · have hprod : 0 < n * m := Nat.mul_pos (Nat.pos_of_ne_zero hn) hm
    omega
  · have hvalue := ofDigits_mulAdd hb m (Nat.digits b n) carry
    rw [Nat.ofDigits_digits] at hvalue
    rw [show n * m + carry = carry + n * m by omega, ← hvalue]
    refine (Nat.digits_ofDigits b hb _ (fun d => lt_of_mem_mulAdd hb) ?_).symm
    exact getLast_mulAdd hb hm _ _ fun _ => Nat.getLast_digit_ne_zero b hn

theorem digitArray_reverse (b n : ℕ) : (digitArray b n).reverse = digitsFront b n := by
  unfold digitArray digitsFront
  split_ifs <;> rfl

theorem foldl_mulAdd {m : ℕ} (hb : 1 < b) (hm : 0 < m) (input : List ℕ) (n : ℕ) :
    input.foldl (mulAdd b m) (digitArray b n) =
      digitArray b (input.foldl (fun acc d => acc * m + d) n) := by
  induction input generalizing n with
  | nil => rfl
  | cons d input ih => rw [foldl_cons, mulAdd_digits hb hm, ih, foldl_cons]

end Positional
