import Interocitor.Foundation.CodeUnits

/-!
# Base64

Three bytes are four digits of six bits; one or two bytes that are left over are two or three
digits, and the standard form fills them up with equals signs.  The URL-safe form has two other
characters and no equals signs.

The decoder is the forgiving one of the web platform: it skips white space, takes off up to two
equals signs if the length is a multiple of four, and ignores the bits that are left over.

* `octets_sextets`: digits of six bits back to bytes.
* `btoa`, `encodeUrl`: the two forms; `atob`: the decoder.
* `atob_btoa`: it decodes what was encoded.
-/

namespace Base64

open CodeUnits List

/-! ## Digits of six bits -/

/-- Bytes as digits of six bits. -/
def sextets : List ℕ → List ℕ
  | a :: b :: c :: rest =>
    a / 4 :: (a % 4 * 16 + b / 16) :: (b % 16 * 4 + c / 64) :: c % 64 :: sextets rest
  | [a, b] => [a / 4, a % 4 * 16 + b / 16, b % 16 * 4]
  | [a] => [a / 4, a % 4 * 16]
  | [] => []

/-- Digits of six bits as bytes.  One digit alone is not a byte. -/
def octets : List ℕ → Option (List ℕ)
  | w :: x :: y :: z :: rest =>
    (octets rest).map fun l => (w * 4 + x / 16) :: (x % 16 * 16 + y / 4) :: (y % 4 * 64 + z) :: l
  | [w, x, y] => some [w * 4 + x / 16, x % 16 * 16 + y / 4]
  | [w, x] => some [w * 4 + x / 16]
  | [_] => none
  | [] => some []

variable {l : List ℕ}

/-- **Digits are read back as the bytes.** -/
theorem octets_sextets (h : ∀ b ∈ l, b < 256) : octets (sextets l) = some l := by
  induction l using sextets.induct with
  | case1 a b c rest ih =>
    simp only [forall_mem_cons] at h
    obtain ⟨ha, hb, hc, hrest⟩ := h
    rw [sextets, octets, ih hrest, Option.map_some, Option.some.injEq, List.cons.injEq,
      List.cons.injEq, List.cons.injEq]
    refine ⟨?_, ?_, ?_, rfl⟩ <;> omega
  | case2 a b =>
    simp only [forall_mem_cons] at h
    rw [sextets, octets, Option.some.injEq, List.cons.injEq, List.cons.injEq]
    refine ⟨?_, ?_, rfl⟩ <;> omega
  | case3 a =>
    rw [forall_mem_singleton] at h
    rw [sextets, octets, Option.some.injEq, List.cons.injEq]
    exact ⟨by omega, rfl⟩
  | case4 => rfl

theorem lt_of_mem_sextets (h : ∀ b ∈ l, b < 256) : ∀ d ∈ sextets l, d < 64 := by
  induction l using sextets.induct with
  | case1 a b c rest ih =>
    simp only [forall_mem_cons] at h
    obtain ⟨ha, hb, hc, hrest⟩ := h
    simp only [sextets, forall_mem_cons]
    exact ⟨by omega, by omega, by omega, by omega, ih hrest⟩
  | case2 a b =>
    simp only [forall_mem_cons] at h
    simp only [sextets, forall_mem_cons]
    exact ⟨by omega, by omega, by omega, fun _ h => absurd h not_mem_nil⟩
  | case3 a =>
    rw [forall_mem_singleton] at h
    simp only [sextets, forall_mem_cons]
    exact ⟨by omega, by omega, fun _ h => absurd h not_mem_nil⟩
  | case4 => exact fun _ h => absurd h not_mem_nil

theorem length_sextets (l : List ℕ) :
    (4 - (sextets l).length % 4) % 4 = (3 - l.length % 3) % 3 ∧ (sextets l).length % 4 ≠ 1 := by
  induction l using sextets.induct with
  | case1 a b c rest ih =>
    simp only [sextets, length_cons]
    omega
  | case2 a b => exact ⟨rfl, by simp [sextets]⟩
  | case3 a => exact ⟨rfl, by simp [sextets]⟩
  | case4 => exact ⟨rfl, by simp [sextets]⟩

/-! ## Characters -/

/-- The character of a digit; the last two depend on the form. -/
def digit (plus slash : CodeUnit) (d : ℕ) : CodeUnit :=
  if d < 26 then Fin.ofNat 65536 (d + 65)
  else if d < 52 then Fin.ofNat 65536 (d + 71)
  else if d < 62 then Fin.ofNat 65536 (d - 4)
  else if d = 62 then plus
  else slash

/-- The digit of a character of the standard form. -/
def digitOf (u : CodeUnit) : Option ℕ :=
  if 65 ≤ u.val ∧ u.val ≤ 90 then some (u.val - 65)
  else if 97 ≤ u.val ∧ u.val ≤ 122 then some (u.val - 71)
  else if 48 ≤ u.val ∧ u.val ≤ 57 then some (u.val + 4)
  else if u = 43 then some 62
  else if u = 47 then some 63
  else none

/-- The characters of the URL-safe form. -/
def isUrlChar (u : CodeUnit) : Bool :=
  65 ≤ u && u ≤ 90 || 97 ≤ u && u ≤ 122 || 48 ≤ u && u ≤ 57 || u = 95 || u = 45

theorem digitOf_digit : ∀ d < 64, digitOf (digit 43 47 d) = some d := by decide

theorem isUrlChar_digit : ∀ d < 64, isUrlChar (digit 45 95 d) = true := by decide

/-! ## Encoding and decoding -/

/-- The digits of bytes. -/
def bits (bytes : List UInt8) : List ℕ := sextets (bytes.map UInt8.toNat)

/-- The standard form without its equals signs. -/
def encode (bytes : List UInt8) : Text := (bits bytes).map (digit 43 47)

/-- The equals signs of the standard form. -/
def padding (bytes : List UInt8) : Text := List.replicate ((3 - bytes.length % 3) % 3) 61

/-- The standard form. -/
def btoa (bytes : List UInt8) : Text := encode bytes ++ padding bytes

/-- The URL-safe form. -/
def encodeUrl (bytes : List UInt8) : Text := (bits bytes).map (digit 45 95)

/-- The white space that the decoder skips. -/
def isSpace (u : CodeUnit) : Bool := u = 9 || u = 10 || u = 12 || u = 13 || u = 32

/-- A reversed text without the equals signs it starts with, of which it loses two at most. -/
def dropSigns : Text → Text
  | u :: v :: r => if u = 61 then (if v = 61 then r else v :: r) else u :: v :: r
  | r => r

/-- The decoder. -/
def atob (t : Text) : Option (List UInt8) :=
  let text := t.filter fun u => !isSpace u
  let digits := if text.length % 4 = 0 then (dropSigns text.reverse).reverse else text
  ((digits.mapM digitOf).bind octets).map (List.map UInt8.ofNat)

theorem bits_lt (bytes : List UInt8) : ∀ d ∈ bits bytes, d < 64 := by
  refine lt_of_mem_sextets fun b hb => ?_
  obtain ⟨byte, -, rfl⟩ := mem_map.mp hb
  exact byte.toNat_lt

variable {bytes : List UInt8}

theorem mem_encode {u : CodeUnit} (h : u ∈ encode bytes) : isSpace u = false ∧ u ≠ 61 := by
  obtain ⟨d, hd, rfl⟩ := mem_map.mp h
  have hall : ∀ d < 64, isSpace (digit 43 47 d) = false ∧ digit 43 47 d ≠ 61 := by decide
  exact hall d (bits_lt bytes d hd)

theorem isUrlChar_of_mem {u : CodeUnit} (h : u ∈ encodeUrl bytes) : isUrlChar u = true := by
  obtain ⟨d, hd, rfl⟩ := mem_map.mp h
  exact isUrlChar_digit d (bits_lt bytes d hd)

theorem length_encodeUrl (bytes : List UInt8) :
    (encodeUrl bytes).length = (bytes.length * 4 + 2) / 3 := by
  have hlength : ∀ l : List ℕ, (sextets l).length = (l.length * 4 + 2) / 3 := by
    intro l
    induction l using sextets.induct with
    | case1 a b c rest ih =>
      simp only [sextets, length_cons]
      omega
    | case2 a b => simp [sextets]
    | case3 a => simp [sextets]
    | case4 => rfl
  rw [encodeUrl, length_map, bits, hlength, length_map]

theorem encodeUrl_ne_nil (h : bytes ≠ []) : encodeUrl bytes ≠ [] := by
  obtain ⟨b, rest, rfl⟩ := exists_cons_of_ne_nil h
  rw [encodeUrl, bits, map_cons]
  rcases rest with _ | ⟨c, _ | ⟨d, rest⟩⟩ <;> simp [sextets]

theorem dropSigns_reverse {s : Text} (hs : ∀ u ∈ s, u ≠ 61) {k : ℕ} (hk : k ≤ 2)
    (hlength : (s.length + k) % 4 = 0) :
    (dropSigns (s ++ List.replicate k 61).reverse).reverse = s := by
  rw [reverse_append, reverse_replicate]
  have hhead : ∀ v r, s.reverse = v :: r → v ≠ 61 := by
    intro v r hr
    refine hs v ?_
    rw [← mem_reverse, hr]
    exact mem_cons_self
  rcases hrev : s.reverse with _ | ⟨v, r⟩
  · -- an empty text is filled up with nothing
    have hnil : s = [] := reverse_eq_nil_iff.mp hrev
    rw [hnil, length_nil] at hlength
    obtain rfl : k = 0 := by omega
    rw [hnil]
    rfl
  · have hv := hhead v r hrev
    have hback : (v :: r).reverse = s := by rw [← hrev, reverse_reverse]
    obtain rfl | rfl | rfl : k = 0 ∨ k = 1 ∨ k = 2 := by omega
    · rw [replicate_zero, nil_append]
      rcases r with _ | ⟨w, r⟩
      · exact hback
      · rw [dropSigns, if_neg hv, hback]
    · rw [replicate_one, singleton_append, dropSigns, if_pos rfl, if_neg hv, hback]
    · rw [show List.replicate 2 (61 : CodeUnit) = [61, 61] from rfl, cons_append,
        singleton_append, dropSigns, if_pos rfl, if_pos rfl, hback]

theorem mapM_digitOf (h : ∀ d ∈ l, d < 64) : (l.map (digit 43 47)).mapM digitOf = some l := by
  induction l with
  | nil => rfl
  | cons d l ih =>
    rw [forall_mem_cons] at h
    rw [map_cons, mapM_cons, digitOf_digit d h.1, ih h.2]
    rfl

/-- **The decoder inverts the encoder.** -/
theorem atob_btoa (bytes : List UInt8) : atob (btoa bytes) = some bytes := by
  have hlengths := length_sextets (bytes.map UInt8.toNat)
  rw [length_map] at hlengths
  have hlength : (encode bytes).length = (bits bytes).length := length_map _
  have hfilter : (btoa bytes).filter (fun u => !isSpace u) = btoa bytes := by
    rw [filter_eq_self]
    intro u hu
    rcases mem_append.mp hu with hu | hu
    · rw [(mem_encode hu).1]
      rfl
    · rw [eq_of_mem_replicate hu]
      rfl
  have htotal : (btoa bytes).length = (encode bytes).length + (3 - bytes.length % 3) % 3 := by
    rw [btoa, length_append, padding, length_replicate]
  have hfour : (btoa bytes).length % 4 = 0 := by
    rw [htotal, hlength]
    rw [bits] at hlength ⊢
    omega
  have hdrop : (dropSigns (btoa bytes).reverse).reverse = encode bytes :=
    dropSigns_reverse (fun u hu => (mem_encode hu).2) (by omega) (htotal ▸ hfour)
  have hbytes : ∀ b ∈ bytes.map UInt8.toNat, b < 256 := by
    intro b hb
    obtain ⟨byte, -, rfl⟩ := mem_map.mp hb
    exact byte.toNat_lt
  have hback : (bytes.map UInt8.toNat).map UInt8.ofNat = bytes := by
    rw [map_map]
    exact (map_congr_left fun b _ => UInt8.ofNat_toNat).trans (map_id _)
  simp only [atob, hfilter, if_pos hfour, hdrop, encode, mapM_digitOf (bits_lt bytes),
    Option.bind_some]
  rw [bits, octets_sextets hbytes, Option.map_some, hback]

end Base64
