import Interocitor.Foundation.JsonText
import Interocitor.Foundation.Utf8Order

/-!
# UTF-16 text as UTF-8 bytes

A text of code units is encoded by way of its code points: a surrogate pair is one code point, and
a surrogate outside a pair, which no code point has, is replaced by U+FFFD.  A decoder goes over
the bytes one by one.  After a first byte it knows how many are to follow, and of which range the
next one must be; a byte that does not fit ends the sequence as an error and is looked at again as
a first byte.  What the decoder makes of an error is up to its user: a lossy one writes U+FFFD, a
strict one fails.

* `points`, `encode`: code points, and their bytes.
* `run`: the decoder, with `none` for every error; `decode`, `decodeStrict`.
* `run_encode`: the decoder finds the code points that were encoded.
* `units_points`: a text without lone surrogates is its code points.
* `decode_encode`, `decodeStrict_encode`: such a text comes back, unless it starts with the byte
  order mark, which `decode` takes off.
-/

namespace Utf8Text

open CodeUnits JsonText Utf8Order List

/-! ## Code points -/

/-- A code point outside the surrogates. -/
def IsScalar (n : ℕ) : Prop := n < 0x110000 ∧ ¬ (0xD800 ≤ n ∧ n ≤ 0xDFFF)

/-- The replacement character. -/
def replacement : ℕ := 0xFFFD

/-- The code point of a unit that is not part of a pair. -/
def alone (u : CodeUnit) : ℕ := if isSurrogate u then replacement else u.val

/-- The code point of a pair. -/
def paired (u v : CodeUnit) : ℕ := u.val % 1024 * 1024 + v.val % 1024 + 0x10000

/-- The code points of a text. -/
def points : Text → List ℕ
  | [] => []
  | [u] => [alone u]
  | u :: v :: t =>
    if isHigh u && isLow v then paired u v :: points t else alone u :: points (v :: t)

/-- The code units of a code point. -/
def units (n : ℕ) : Text :=
  if n < 0x10000 then [Fin.ofNat 65536 n]
  else [Fin.ofNat 65536 (n / 1024 + 0xD7C0), Fin.ofNat 65536 (n % 1024 + 0xDC00)]

theorem isScalar_alone (u : CodeUnit) : IsScalar (alone u) := by
  have hlt := u.isLt
  rw [alone]
  cases h : isSurrogate u with
  | true =>
    rw [if_pos rfl, IsScalar, replacement]
    omega
  | false =>
    simp only [isSurrogate, decide_eq_false_iff_not] at h
    rw [if_neg Bool.false_ne_true, IsScalar]
    omega

theorem isScalar_paired (u v : CodeUnit) : IsScalar (paired u v) := by
  simp only [IsScalar, paired]
  omega

variable {t : Text}

theorem isScalar_of_mem_points {n : ℕ} (h : n ∈ points t) : IsScalar n := by
  induction t using points.induct with
  | case1 => exact absurd h not_mem_nil
  | case2 u =>
    rw [points, mem_singleton] at h
    exact h ▸ isScalar_alone u
  | case3 u v t hpair ih =>
    rw [points, if_pos hpair, mem_cons] at h
    rcases h with rfl | h
    · exact isScalar_paired _ _
    · exact ih h
  | case4 u v t hpair ih =>
    rw [points, if_neg hpair, mem_cons] at h
    rcases h with rfl | h
    · exact isScalar_alone u
    · exact ih h

theorem units_val (u : CodeUnit) : units u.val = [u] := by
  have hback : Fin.ofNat 65536 u.val = u := Fin.ext (Nat.mod_eq_of_lt u.isLt)
  rw [units, if_pos (by have := u.isLt; omega), hback]

variable {u : CodeUnit}

theorem units_alone (h : isSurrogate u = false) : units (alone u) = [u] := by
  rw [alone, h, if_neg Bool.false_ne_true, units_val]

theorem units_paired {v : CodeUnit} (hu : isHigh u = true) (hv : isLow v = true) :
    units (paired u v) = [u, v] := by
  simp only [isHigh, isLow, decide_eq_true_eq] at hu hv
  have hlarge : ¬ paired u v < 0x10000 := by
    rw [paired]
    omega
  have hhigh : paired u v / 1024 + 0xD7C0 = u.val := by
    rw [paired]
    omega
  have hlow : paired u v % 1024 + 0xDC00 = v.val := by
    rw [paired]
    omega
  have hback : ∀ w : CodeUnit, Fin.ofNat 65536 w.val = w :=
    fun w => Fin.ext (Nat.mod_eq_of_lt w.isLt)
  rw [units, if_neg hlarge, hhigh, hlow, hback, hback]

/-- **A text without lone surrogates is its code points.** -/
theorem units_points (h : isWellFormed t = true) : (points t).flatMap units = t := by
  induction t using points.induct with
  | case1 => rfl
  | case2 u =>
    rw [isWellFormed, Bool.not_eq_true'] at h
    rw [points, flatMap_cons, flatMap_nil, append_nil, units_alone h]
  | case3 u v t hpair ih =>
    rw [isWellFormed, if_pos hpair] at h
    obtain ⟨hu, hv⟩ := Bool.and_eq_true_iff.mp hpair
    rw [points, if_pos hpair, flatMap_cons, units_paired hu hv, ih h]
    rfl
  | case4 u v t hpair ih =>
    rw [isWellFormed, if_neg hpair, Bool.and_eq_true_iff, Bool.not_eq_true'] at h
    rw [points, if_neg hpair, flatMap_cons, units_alone h.1, ih h.2]
    rfl

theorem isWellFormed_append {s : Text} (hs : isWellFormed s = true) (ht : isWellFormed t = true) :
    isWellFormed (s ++ t) = true := by
  induction s using isWellFormed.induct with
  | case1 => exact ht
  | case2 u =>
    rw [isWellFormed, Bool.not_eq_true'] at hs
    cases t with
    | nil => rw [append_nil, isWellFormed, hs]; rfl
    | cons v t =>
      have hhigh : isHigh u = false := by
        cases hu : isHigh u with
        | false => rfl
        | true => rw [isSurrogate_of_isHigh hu] at hs; exact absurd hs (by decide)
      rw [singleton_append, isWellFormed, hhigh, Bool.false_and, if_neg Bool.false_ne_true, hs, ht]
      rfl
  | case3 u v s hpair ih =>
    rw [isWellFormed, if_pos hpair] at hs
    rw [cons_append, cons_append, isWellFormed, if_pos hpair]
    exact ih hs
  | case4 u v s hpair ih =>
    rw [isWellFormed, if_neg hpair, Bool.and_eq_true_iff] at hs
    rw [cons_append, cons_append, isWellFormed, if_neg hpair, hs.1, Bool.true_and]
    exact ih hs.2

/-! ## Encoding -/

/-- The bytes of a code point. -/
def encodePoint (n : ℕ) : List UInt8 := (digits n).map UInt8.ofNat

/-- The bytes of a text. -/
def encode (t : Text) : List UInt8 := (points t).flatMap encodePoint

/-! ## Decoding -/

/-- Where a decoder stands: between code points, or inside one, with the number of bytes to come,
the bits so far and the range of the next byte. -/
inductive State where
  | start
  | more (needed point lower upper : ℕ)

/-- A first byte: what it comes to, and the state after it. -/
def lead (b : ℕ) : List (Option ℕ) × State :=
  if b ≤ 0x7F then ([some b], .start)
  else if 0xC2 ≤ b ∧ b ≤ 0xDF then ([], .more 1 (b % 32) 0x80 0xBF)
  else if 0xE0 ≤ b ∧ b ≤ 0xEF then
    ([], .more 2 (b % 16) (if b = 0xE0 then 0xA0 else 0x80) (if b = 0xED then 0x9F else 0xBF))
  else if 0xF0 ≤ b ∧ b ≤ 0xF4 then
    ([], .more 3 (b % 8) (if b = 0xF0 then 0x90 else 0x80) (if b = 0xF4 then 0x8F else 0xBF))
  else ([none], .start)

/-- One byte. -/
def feed : State → ℕ → List (Option ℕ) × State
  | .start, b => lead b
  | .more needed point lower upper, b =>
    if lower ≤ b ∧ b ≤ upper then
      if needed = 1 then ([some (point * 64 + b % 64)], .start)
      else ([], .more (needed - 1) (point * 64 + b % 64) 0x80 0xBF)
    else (none :: (lead b).1, (lead b).2)

/-- All the bytes, with `none` for every error. -/
def run : State → List ℕ → List (Option ℕ)
  | .start, [] => []
  | .more .., [] => [none]
  | s, b :: rest => (feed s b).1 ++ run (feed s b).2 rest

/-- `true` if the bytes start with the byte order mark. -/
def hasMark (bytes : List UInt8) : Bool := List.isPrefixOf [0xEF, 0xBB, 0xBF] bytes

/-- A lossy decoder, which takes the byte order mark off. -/
def decode (bytes : List UInt8) : Text :=
  (run .start ((if hasMark bytes then bytes.drop 3 else bytes).map UInt8.toNat)).flatMap
    fun point => units (point.getD replacement)

/-- A strict decoder. -/
def decodeStrict (bytes : List UInt8) : Option Text :=
  ((run .start (bytes.map UInt8.toNat)).mapM id).map fun points => points.flatMap units

theorem feed_more {b needed point lower upper : ℕ} (hb : lower ≤ b ∧ b ≤ upper)
    (hneeded : needed ≠ 1) :
    feed (.more needed point lower upper) b =
      ([], .more (needed - 1) (point * 64 + b % 64) 0x80 0xBF) := by
  rw [feed, if_pos hb, if_neg hneeded]

theorem feed_last {b point lower upper : ℕ} (hb : lower ≤ b ∧ b ≤ upper) :
    feed (.more 1 point lower upper) b = ([some (point * 64 + b % 64)], .start) := by
  rw [feed, if_pos hb, if_pos rfl]

theorem run_cons {s s' : State} {b : ℕ} {out : List (Option ℕ)} (h : feed s b = (out, s'))
    (rest : List ℕ) : run s (b :: rest) = out ++ run s' rest := by
  cases s <;> rw [run, h]

/-- **A code point is decoded from its bytes.** -/
theorem run_digits {n : ℕ} (h : IsScalar n) (rest : List ℕ) :
    run .start (digits n ++ rest) = some n :: run .start rest := by
  obtain ⟨hlt, hsurrogate⟩ := h
  rw [digits]
  split_ifs with h1 h2 h3
  · have hlead : feed .start n = ([some n], .start) := by rw [feed, lead, if_pos h1]
    exact run_cons hlead rest
  · have hlead : feed .start (n / 64 + 0xC0) = ([], .more 1 (n / 64) 0x80 0xBF) := by
      rw [feed, lead, if_neg (by omega), if_pos (by omega),
        show (n / 64 + 0xC0) % 32 = n / 64 by omega]
    have hvalue : n / 64 * 64 + (n % 64 + 0x80) % 64 = n := by omega
    rw [cons_append, run_cons hlead, cons_append, run_cons (feed_last (by omega)), hvalue]
    rfl
  · have hlead : ∃ lower upper, feed .start (n / 4096 + 0xE0) =
        ([], .more 2 (n / 4096) lower upper) ∧
          lower ≤ n / 64 % 64 + 0x80 ∧ n / 64 % 64 + 0x80 ≤ upper := by
      rw [feed, lead, if_neg (by omega), if_neg (by omega), if_pos (by omega),
        show (n / 4096 + 0xE0) % 16 = n / 4096 by omega]
      refine ⟨_, _, rfl, ?_, ?_⟩
      · split_ifs <;> omega
      · split_ifs <;> omega
    obtain ⟨lower, upper, hlead, hrange⟩ := hlead
    have hvalue : (n / 4096 * 64 + (n / 64 % 64 + 0x80) % 64) * 64 + (n % 64 + 0x80) % 64 = n := by
      omega
    rw [cons_append, run_cons hlead, cons_append,
      run_cons (feed_more hrange (by decide)), cons_append,
      run_cons (feed_last (by omega)), hvalue]
    rfl
  · have hlead : ∃ lower upper, feed .start (n / 262144 + 0xF0) =
        ([], .more 3 (n / 262144) lower upper) ∧
          lower ≤ n / 4096 % 64 + 0x80 ∧ n / 4096 % 64 + 0x80 ≤ upper := by
      rw [feed, lead, if_neg (by omega), if_neg (by omega), if_neg (by omega), if_pos (by omega),
        show (n / 262144 + 0xF0) % 8 = n / 262144 by omega]
      refine ⟨_, _, rfl, ?_, ?_⟩
      · split_ifs <;> omega
      · split_ifs <;> omega
    obtain ⟨lower, upper, hlead, hrange⟩ := hlead
    have hvalue : ((n / 262144 * 64 + (n / 4096 % 64 + 0x80) % 64) * 64 +
        (n / 64 % 64 + 0x80) % 64) * 64 + (n % 64 + 0x80) % 64 = n := by
      omega
    rw [cons_append, run_cons hlead, cons_append,
      run_cons (feed_more hrange (by decide)), cons_append,
      run_cons (feed_more (by omega) (by decide)), cons_append,
      run_cons (feed_last (by omega)), hvalue]
    rfl

theorem toNat_encodePoint {n : ℕ} (h : IsScalar n) :
    (encodePoint n).map UInt8.toNat = digits n := by
  have hbyte : ∀ b ∈ digits n, b < 256 := by
    obtain ⟨hlt, -⟩ := h
    intro b hb
    rw [digits] at hb
    split_ifs at hb <;> simp only [mem_cons, not_mem_nil, or_false] at hb <;> omega
  rw [encodePoint, map_map]
  refine (map_congr_left fun b hb => ?_).trans (map_id _)
  exact UInt8.toNat_ofNat_of_lt' (hbyte b hb)

/-- **The decoder finds the code points that were encoded.** -/
theorem run_encode (t : Text) : run .start ((encode t).map UInt8.toNat) = (points t).map some := by
  have hpoints : ∀ n ∈ points t, IsScalar n := fun n => isScalar_of_mem_points
  rw [encode]
  generalize points t = l at hpoints
  induction l with
  | nil => rfl
  | cons n l ih =>
    rw [forall_mem_cons] at hpoints
    rw [flatMap_cons, map_append, toNat_encodePoint hpoints.1, run_digits hpoints.1,
      ih hpoints.2, map_cons]

theorem points_cons (h : isSurrogate u = false) (t : Text) :
    points (u :: t) = u.val :: points t := by
  have halone : alone u = u.val := by rw [alone, h, if_neg Bool.false_ne_true]
  cases t with
  | nil =>
    have hlone : points [u] = [alone u] := by rw [points]
    rw [hlone, halone]
    rfl
  | cons v t =>
    have hhigh : isHigh u = false := by
      cases hu : isHigh u with
      | false => rfl
      | true => exact absurd ((isSurrogate_of_isHigh hu).symm.trans h) (by decide)
    rw [points, hhigh, Bool.false_and, if_neg Bool.false_ne_true, halone]

theorem hasMark_encode (hu : u.val < 0x80) : hasMark (encode (u :: t)) = false := by
  have hbytes : encode (u :: t) = UInt8.ofNat u.val :: (points t).flatMap encodePoint := by
    rw [encode, points_cons (isSurrogate_of_lt hu), flatMap_cons, encodePoint, digits,
      if_pos (by omega)]
    rfl
  have hne : (0xEF == UInt8.ofNat u.val) = false := by
    rw [beq_eq_false_iff_ne]
    intro h
    have hval := congrArg UInt8.toNat h
    rw [UInt8.toNat_ofNat_of_lt' (show u.val < 256 by omega)] at hval
    have h239 : (0xEF : UInt8).toNat = 0xEF := rfl
    omega
  rw [hasMark, hbytes, List.isPrefixOf, hne, Bool.false_and]

theorem encode_eq_encode_iff {s : Text} : encode s = encode t ↔ points s = points t := by
  constructor
  · intro h
    have hrun := run_encode s
    rw [h, run_encode t] at hrun
    exact (map_injective_iff.mpr (Option.some_injective ℕ) hrun).symm
  · intro h
    rw [encode, encode, h]

theorem points_append {s : Text} (h : ∀ u ∈ s, isSurrogate u = false) (t : Text) :
    points (s ++ t) = s.map Fin.val ++ points t := by
  induction s with
  | nil => rfl
  | cons u s ih =>
    rw [forall_mem_cons] at h
    rw [cons_append, points_cons h.1, ih h.2]
    rfl

theorem replacement_mem_points (h : isWellFormed t = false) : replacement ∈ points t := by
  have halone : ∀ {u : CodeUnit}, isSurrogate u = true → alone u = replacement := by
    intro u hu
    rw [alone, hu, if_pos rfl]
  induction t using points.induct with
  | case1 => exact absurd h (by decide)
  | case2 u =>
    rw [isWellFormed, Bool.not_eq_false'] at h
    rw [points, halone h]
    exact mem_singleton_self _
  | case3 u v t hpair ih =>
    rw [isWellFormed, if_pos hpair] at h
    rw [points, if_pos hpair]
    exact mem_cons_of_mem _ (ih h)
  | case4 u v t hpair ih =>
    rw [isWellFormed, if_neg hpair, Bool.and_eq_false_iff, Bool.not_eq_false'] at h
    rw [points, if_neg hpair]
    rcases h with h | h
    · rw [halone h]
      exact mem_cons_self
    · exact mem_cons_of_mem _ (ih h)

theorem eq_of_points_eq {s : Text} (hs : ∀ u ∈ s, u.val < 0x80) (h : points t = points s) :
    t = s := by
  have hplain : ∀ u ∈ s, isSurrogate u = false := fun u hu => isSurrogate_of_lt (hs u hu)
  have hpoints : points s = s.map Fin.val := by
    have hall := points_append hplain []
    rwa [append_nil, points, append_nil] at hall
  have hformed : isWellFormed t = true := by
    by_contra hnot
    have hmem := replacement_mem_points (Bool.eq_false_iff.mpr hnot)
    rw [h, hpoints, mem_map] at hmem
    obtain ⟨u, hu, heq⟩ := hmem
    have hlt := hs u hu
    rw [heq, replacement] at hlt
    exact absurd hlt (by decide)
  rw [← units_points hformed, h, units_points (isWellFormed_of_plain hplain)]

/-- **A text that starts with ASCII comes back**, with U+FFFD for its lone surrogates. -/
theorem decode_encode' (hu : u.val < 0x80) (t : Text) :
    decode (encode (u :: t)) = (points (u :: t)).flatMap units := by
  rw [decode, hasMark_encode hu, if_neg Bool.false_ne_true, run_encode, flatMap_map]
  rfl

theorem decode_encode (hu : u.val < 0x80) (h : isWellFormed (u :: t) = true) :
    decode (encode (u :: t)) = u :: t := by
  rw [decode_encode' hu, units_points h]

theorem decodeStrict_encode (h : isWellFormed t = true) : decodeStrict (encode t) = some t := by
  have hall : ((points t).map some).mapM id = some (points t) := by
    induction points t with
    | nil => rfl
    | cons n l ih => rw [map_cons, mapM_cons, ih]; rfl
  rw [decodeStrict, run_encode, hall, Option.map_some, units_points h]

/-! ## Written JSON -/

theorem isWellFormed_quoteBody (t : Text) : isWellFormed (quoteBody t) = true := by
  have halone : ∀ u, isWellFormed (escapeAlone u) = true := by
    intro u
    refine isWellFormed_of_plain fun v hv => ?_
    rw [escapeAlone] at hv
    cases hu : isSurrogate u with
    | true =>
      rw [hu, if_pos rfl] at hv
      exact isSurrogate_of_mem_unicodeEscape hv
    | false =>
      rw [hu, if_neg Bool.false_ne_true] at hv
      exact isSurrogate_of_mem_escapeUnit hu hv
  induction t using quoteBody.induct with
  | case1 => rfl
  | case2 u => exact halone u
  | case3 u v t hpair ih =>
    rw [quoteBody, if_pos hpair, isWellFormed, if_pos hpair]
    exact ih
  | case4 u v t hpair ih =>
    rw [quoteBody, if_neg hpair]
    exact isWellFormed_append (halone u) ih

theorem isWellFormed_cons (hu : isSurrogate u = false) (ht : isWellFormed t = true) :
    isWellFormed (u :: t) = true := by
  have hsingle : isWellFormed [u] = true := by rw [isWellFormed, hu]; rfl
  exact isWellFormed_append hsingle ht

theorem isWellFormed_quote (t : Text) : isWellFormed (quote t) = true :=
  isWellFormed_append (isWellFormed_cons (by decide) (isWellFormed_quoteBody t)) (by decide)

theorem isWellFormed_numeral {b : ℕ} (hb : 1 < b) (hb' : b ≤ 16) (n : ℕ) :
    isWellFormed (numeral b n) = true :=
  isWellFormed_of_plain fun _ h => isSurrogate_of_mem_numeral hb hb' h

theorem isWellFormed_joined {l : List Text} (h : ∀ t ∈ l, isWellFormed t = true) :
    isWellFormed (joined l) = true := by
  induction l using joined.induct with
  | case1 => rfl
  | case2 s => exact h s mem_cons_self
  | case3 s t rest ih =>
    rw [forall_mem_cons] at h
    exact isWellFormed_append h.1 (isWellFormed_cons (by decide) (ih h.2))

end Utf8Text
