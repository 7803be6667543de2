import Mathlib.Data.List.DropRight
import Interocitor.Foundation.Positional

/-!
# Mesh keys as base58 text, in TypeScript, Python and Swift

A mesh key is 32 bytes.  People carry it from one device to another as text, in the base58 alphabet,
so the three implementations have to write and to read that text alike.  Core converts through a big
integer and cuts the bytes off one by one; Python goes through a big integer and hexadecimal text;
Swift keeps digit arrays and works in one byte or one character at a time with a carry.

They do not check alike.  Core takes the text that it would write itself and nothing else.  Python
deliberately takes every text of 42 to 44 characters whose value has 32 bytes, for keys that older
versions of core wrote with a leading zero less, and deliberately turns down shorter ones as weak.
Swift fills up and cuts off.

Texts are lists of Unicode scalar values.  Swift works on `Character`s instead, which are clusters
of them compared up to canonical equivalence: `SwiftText` says what is used of that.

* `portable_keys_agree`: whichever importers take a text agree on it.
-/

namespace Interocitor.PortableKeys

open CodeUnits Positional List

/-! ## Surrounding characters -/

section Strip

variable {α : Type} (p : α → Bool)

/-- A list without what satisfies `p` at its two ends. -/
def strip (l : List α) : List α := (l.dropWhile p).rdropWhile p

/-- A list, between two that satisfy `p` throughout. -/
def Surrounded (t l : List α) : Prop :=
  ∃ before after, l = before ++ t ++ after ∧ (∀ a ∈ before, p a = true) ∧ ∀ a ∈ after, p a = true

theorem surrounded_strip (l : List α) : Surrounded p (strip p l) l := by
  refine ⟨l.takeWhile p, ((l.dropWhile p).reverse.takeWhile p).reverse, ?_, ?_, ?_⟩
  · rw [append_assoc, strip, List.rdropWhile, ← reverse_append,
      takeWhile_append_dropWhile, reverse_reverse, takeWhile_append_dropWhile]
  · exact fun a ha => mem_takeWhile_imp ha
  · exact fun a ha => mem_takeWhile_imp (mem_reverse.mp ha)

theorem dropWhile_append_all {before l : List α} (h : ∀ a ∈ before, p a = true) :
    (before ++ l).dropWhile p = l.dropWhile p := by
  induction before with
  | nil => rfl
  | cons a before ih =>
    rw [cons_append, dropWhile_cons_of_pos (h a mem_cons_self),
      ih fun x hx => h x (mem_cons_of_mem a hx)]

variable {t l : List α}

theorem dropWhile_append_none (ht : ∀ a ∈ t, p a = false) (hne : t ≠ []) :
    (t ++ l).dropWhile p = t ++ l := by
  cases t with
  | nil => exact absurd rfl hne
  | cons a t =>
    rw [cons_append, dropWhile_cons_of_neg (by simp [ht a mem_cons_self])]

theorem strip_of_surrounded (ht : ∀ a ∈ t, p a = false) (h : Surrounded p t l) : strip p l = t := by
  obtain ⟨before, after, rfl, hbefore, hafter⟩ := h
  have hnone : ∀ {m : List α}, (∀ a ∈ m, p a = true) → m.dropWhile p = [] := fun hm =>
    dropWhile_eq_nil_iff.mpr hm
  rw [strip, append_assoc, dropWhile_append_all p hbefore]
  by_cases hne : t = []
  · rw [hne, nil_append, hnone hafter]
    rfl
  · rw [dropWhile_append_none p ht hne, List.rdropWhile, reverse_append,
      dropWhile_append_all p fun a ha => hafter a (mem_reverse.mp ha)]
    have hback := dropWhile_append_none p (l := []) (t := t.reverse)
      (fun a ha => ht a (mem_reverse.mp ha)) (by simpa using hne)
    rw [append_nil] at hback
    rw [hback, reverse_reverse]

theorem strip_eq_iff (ht : ∀ a ∈ t, p a = false) : strip p l = t ↔ Surrounded p t l :=
  ⟨fun h => h ▸ surrounded_strip p l, strip_of_surrounded p ht⟩

end Strip

/-! ## The alphabet -/

/-- `BASE58_ALPHABET`. -/
def base58Alphabet : List Char :=
  ['1', '2', '3', '4', '5', '6', '7', '8', '9', 'A', 'B', 'C', 'D', 'E', 'F', 'G', 'H', 'J', 'K',
    'L', 'M', 'N', 'P', 'Q', 'R', 'S', 'T', 'U', 'V', 'W', 'X', 'Y', 'Z', 'a', 'b', 'c', 'd', 'e',
    'f', 'g', 'h', 'i', 'j', 'k', 'm', 'n', 'o', 'p', 'q', 'r', 's', 't', 'u', 'v', 'w', 'x', 'y',
    'z']

/-- `BASE58_ALPHABET[d]`. -/
def symbol (d : ℕ) : Char := base58Alphabet.getD d '1'

/-- `BASE58_ALPHABET.indexOf(char)`. -/
def indexOf (c : Char) : Option ℕ := base58Alphabet.idxOf? c

theorem indexOf_symbol {d : ℕ} (h : d < 58) : indexOf (symbol d) = some d := by
  have hall : ∀ d : Fin 58, indexOf (symbol d) = some d.val := by decide +kernel
  exact hall ⟨d, h⟩

theorem symbol_mem {d : ℕ} (h : d < 58) : symbol d ∈ base58Alphabet := by
  have hall : ∀ d : Fin 58, symbol d ∈ base58Alphabet := by decide +kernel
  exact hall ⟨d, h⟩

variable {c : Char}

theorem symbol_of_mem (h : c ∈ base58Alphabet) : ∃ d < 58, symbol d = c := by
  obtain ⟨d, hd, rfl⟩ := getElem_of_mem h
  refine ⟨d, hd, ?_⟩
  rw [symbol, getD_eq_getElem?_getD, List.getElem?_eq_getElem hd, Option.getD_some]

theorem indexOf_eq_some_iff {d : ℕ} : indexOf c = some d ↔ d < 58 ∧ symbol d = c := by
  constructor
  · intro h
    have hmem : c ∈ base58Alphabet := by
      by_contra hnot
      rw [indexOf, List.idxOf?_eq_none_iff.mpr hnot] at h
      cases h
    obtain ⟨e, he, rfl⟩ := symbol_of_mem hmem
    obtain rfl := Option.some.inj ((indexOf_symbol he).symm.trans h)
    exact ⟨he, rfl⟩
  · rintro ⟨hd, rfl⟩
    exact indexOf_symbol hd

/-- `String.prototype.trim`, and the characters of Python's `ecmascript_trim`. -/
def isEcmaWhitespace (c : Char) : Bool :=
  decide (c.toNat ∈ [0x9, 0xA, 0xB, 0xC, 0xD, 0x20, 0xA0, 0x1680, 0x2000, 0x2001, 0x2002, 0x2003,
    0x2004, 0x2005, 0x2006, 0x2007, 0x2008, 0x2009, 0x200A, 0x2028, 0x2029, 0x202F, 0x205F, 0x3000,
    0xFEFF])

/-- Swift's `CharacterSet.whitespaces`: the category `Zs`, and the tabulator. -/
def isSwiftWhitespace (c : Char) : Bool :=
  decide (c.toNat ∈ [0x9, 0x20, 0xA0, 0x1680, 0x2000, 0x2001, 0x2002, 0x2003, 0x2004, 0x2005,
    0x2006, 0x2007, 0x2008, 0x2009, 0x200A, 0x202F, 0x205F, 0x3000])

theorem isEcmaWhitespace_of_swift (h : isSwiftWhitespace c = true) : isEcmaWhitespace c = true := by
  simp only [isSwiftWhitespace, isEcmaWhitespace, decide_eq_true_eq, mem_cons,
    not_mem_nil, or_false] at h ⊢
  tauto

theorem isEcmaWhitespace_of_mem (h : c ∈ base58Alphabet) : isEcmaWhitespace c = false := by
  have hall : ∀ d : Fin 58, isEcmaWhitespace (symbol d) = false := by decide +kernel
  obtain ⟨d, hd, rfl⟩ := symbol_of_mem h
  exact hall ⟨d, hd⟩

variable {s : List Char}

theorem surrounded_unique {t t' : List Char} (ht : ∀ c ∈ t, c ∈ base58Alphabet)
    (ht' : ∀ c ∈ t', c ∈ base58Alphabet) (h : Surrounded isEcmaWhitespace t s)
    (h' : Surrounded isEcmaWhitespace t' s) : t = t' := by
  rw [← strip_of_surrounded _ (fun c hc => isEcmaWhitespace_of_mem (ht c hc)) h,
    strip_of_surrounded _ (fun c hc => isEcmaWhitespace_of_mem (ht' c hc)) h']

/-! ## Base58 texts and their numbers -/

/-- Read a text by Horner's rule; the first character that is not in the alphabet is an error. -/
def readNumber : List Char → ℕ → Except Char ℕ
  | [], num => .ok num
  | c :: t, num =>
    match indexOf c with
    | some i => readNumber t (num * 58 + i)
    | none => .error c

variable {t : List Char}

/-- **Base58 texts.**  A text that can be read is one of symbols, and is worth what they are. -/
theorem readNumber_eq_ok_iff {num n : ℕ} : readNumber t num = .ok n ↔
    ∃ ds : List ℕ, (∀ d ∈ ds, d < 58) ∧ t = ds.map symbol ∧
      n = ds.foldl (fun acc d => acc * 58 + d) num := by
  induction t generalizing num with
  | nil =>
    constructor
    · intro h
      exact ⟨[], by simp, rfl, (Except.ok.inj h).symm⟩
    · rintro ⟨ds, -, ht, rfl⟩
      obtain rfl := map_eq_nil_iff.mp ht.symm
      rfl
  | cons c t ih =>
    rw [readNumber]
    constructor
    · intro h
      split at h
      · rename_i i hi
        obtain ⟨ds, hds, rfl, rfl⟩ := ih.mp h
        obtain ⟨hlt, rfl⟩ := indexOf_eq_some_iff.mp hi
        exact ⟨i :: ds, forall_mem_cons.mpr ⟨hlt, hds⟩, rfl, rfl⟩
      · cases h
    · rintro ⟨ds, hds, ht, rfl⟩
      cases ds with
      | nil => cases ht
      | cons d ds =>
        obtain ⟨rfl, rfl⟩ := List.cons.inj ht
        obtain ⟨hd, hds⟩ := forall_mem_cons.mp hds
        rw [indexOf_symbol hd]
        exact ih.mpr ⟨ds, hds, rfl, rfl⟩

theorem readNumber_map_symbol {ds : List ℕ} (hds : ∀ d ∈ ds, d < 58) :
    readNumber (ds.map symbol) 0 = .ok (frontValue 58 ds) :=
  readNumber_eq_ok_iff.mpr ⟨ds, hds, rfl, rfl⟩

variable {n : ℕ}

theorem mem_alphabet_of_readNumber (h : readNumber t 0 = .ok n) : ∀ c ∈ t, c ∈ base58Alphabet := by
  obtain ⟨ds, hds, rfl, -⟩ := readNumber_eq_ok_iff.mp h
  intro c hc
  obtain ⟨d, hd, rfl⟩ := mem_map.mp hc
  exact symbol_mem (hds d hd)

/-! ## Keys and their numbers -/

/-- The bytes of a number, at the width of a key. -/
def keyBytes (n : ℕ) : List UInt8 := (fixedDigits 256 32 n).map UInt8.ofNat

/-- `num * 256n + BigInt(b)`, for every byte. -/
def keyNumber (bytes : List UInt8) : ℕ := bytes.foldl (fun num b => num * 256 + b.toNat) 0

theorem keyNumber_eq (bytes : List UInt8) :
    keyNumber bytes = frontValue 256 (bytes.map UInt8.toNat) := by
  rw [keyNumber, frontValue, foldl_map]

theorem toNat_lt_of_mem (bytes : List UInt8) : ∀ d ∈ bytes.map UInt8.toNat, d < 256 := by
  intro d hd
  obtain ⟨b, -, rfl⟩ := mem_map.mp hd
  exact b.toNat_lt

variable {key : List UInt8}

theorem keyNumber_lt (h : key.length = 32) : keyNumber key < 256 ^ 32 := by
  have hlt := frontValue_lt_pow (b := 256) (by decide) (toNat_lt_of_mem key)
  rwa [← keyNumber_eq, length_map, h] at hlt

theorem length_keyBytes (n : ℕ) : (keyBytes n).length = 32 := by
  rw [keyBytes, length_map, length_fixedDigits]

theorem keyBytes_keyNumber (h : key.length = 32) : keyBytes (keyNumber key) = key := by
  rw [keyBytes, keyNumber_eq, fixedDigits_frontValue (by decide) (by rw [length_map, h])
    (toNat_lt_of_mem key), map_map]
  have hid : UInt8.ofNat ∘ UInt8.toNat = id := by
    funext b
    exact UInt8.ofNat_toNat
  rw [hid, map_id]

/-! ## Core -/

/-- A `1` for every leading zero byte. -/
def leadingOnes (bytes : List UInt8) : List Char :=
  (bytes.takeWhile fun b => decide (b = 0)).map fun _ => '1'

/-- Base58 through a big integer, as core and Python do it. -/
def bigIntEncode (bytes : List UInt8) : List Char :=
  leadingOnes bytes ++ (digitLoop 58 (keyNumber bytes) []).map symbol

/-- Core's `base58Encode`. -/
def base58Encode (bytes : List UInt8) : List Char := bigIntEncode bytes

/-- Core's errors.  The last one has the number of characters in its text. -/
inductive KeyError where
  | empty
  | invalidCharacter (c : Char)
  | tooWide
  | notCanonical (characters : ℕ)
  deriving DecidableEq

/-- Core's `base58Decode`. -/
def base58Decode (str : List Char) : Except KeyError (List UInt8) :=
  match readNumber str 0 with
  | .error c => .error (.invalidCharacter c)
  | .ok num =>
    let bytes := lowDigits 256 32 num []
    if 0 < bytes.2 then .error .tooWide else .ok (bytes.1.map UInt8.ofNat)

/-- Core's `keyToPassphrase`, of the raw key. -/
def keyToPassphrase (raw : List UInt8) : List Char := base58Encode raw

/-- Core's `passphraseToKey`, up to the import of the raw key. -/
def passphraseToKey (passphrase : List Char) : Except KeyError (List UInt8) :=
  let trimmed := strip isEcmaWhitespace passphrase
  if trimmed = [] then .error .empty
  else
    match base58Decode trimmed with
    | .error e => .error e
    | .ok raw =>
      if base58Encode raw ≠ trimmed then .error (.notCanonical trimmed.length) else .ok raw

/-- The digits that are written for a key. -/
def keyDigits (key : List UInt8) : List ℕ :=
  List.replicate (key.takeWhile fun b => decide (b = 0)).length 0 ++
    (Nat.digits 58 (keyNumber key)).reverse

theorem lt_of_mem_keyDigits : ∀ d ∈ keyDigits key, d < 58 := by
  intro d hd
  rcases mem_append.mp hd with hd | hd
  · rw [eq_of_mem_replicate hd]
    decide
  · exact Nat.digits_lt_base (by decide) (mem_reverse.mp hd)

theorem frontValue_keyDigits (key : List UInt8) :
    frontValue 58 (keyDigits key) = keyNumber key := by
  rw [keyDigits, frontValue_replicate_zero_append, frontValue_reverse, Nat.ofDigits_digits]

theorem leadingOnes_eq (bytes : List UInt8) : leadingOnes bytes =
    (List.replicate (bytes.takeWhile fun b => decide (b = 0)).length 0).map symbol := by
  rw [leadingOnes, map_const', map_replicate]
  rfl

theorem keyToPassphrase_eq (key : List UInt8) :
    keyToPassphrase key = (keyDigits key).map symbol := by
  rw [keyToPassphrase, base58Encode, bigIntEncode, keyDigits, map_append, leadingOnes_eq,
    digitLoop_eq (by decide), append_nil]

theorem readNumber_keyToPassphrase (key : List UInt8) :
    readNumber (keyToPassphrase key) 0 = .ok (keyNumber key) := by
  rw [keyToPassphrase_eq, readNumber_map_symbol lt_of_mem_keyDigits, frontValue_keyDigits]

theorem base58Decode_eq_ok_iff :
    base58Decode t = .ok key ↔ ∃ n, readNumber t 0 = .ok n ∧ n < 256 ^ 32 ∧ key = keyBytes n := by
  unfold base58Decode
  cases h : readNumber t 0 with
  | error c => simp
  | ok n =>
    dsimp only
    have hfits := lowDigits_rest_pos_iff (b := 256) (by decide) 32 n []
    have hbytes : (lowDigits 256 32 n []).1.map UInt8.ofNat = keyBytes n := by
      rw [lowDigits_eq, append_nil, keyBytes]
    by_cases hlt : n < 256 ^ 32
    · rw [if_neg (fun hpos => hfits.mp hpos hlt), hbytes]
      constructor
      · intro hload
        exact ⟨n, rfl, hlt, (Except.ok.inj hload).symm⟩
      · rintro ⟨m, hm, -, hkey⟩
        rw [hkey, Except.ok.inj hm]
    · rw [if_pos (hfits.mpr hlt)]
      constructor
      · intro hload
        cases hload
      · rintro ⟨m, hm, hlt', -⟩
        obtain rfl := Except.ok.inj hm
        exact absurd hlt' hlt

theorem keyToPassphrase_ne_nil (h : key.length = 32) : keyToPassphrase key ≠ [] := by
  intro hnil
  rw [keyToPassphrase_eq, map_eq_nil_iff, keyDigits, append_eq_nil_iff,
    reverse_eq_nil_iff, Nat.digits_eq_nil_iff_eq_zero] at hnil
  -- the number is zero, so every byte is, and each of them is written
  obtain ⟨hones, hzero⟩ := hnil
  have hkey := keyBytes_keyNumber h
  rw [hzero] at hkey
  rw [← hkey] at hones
  revert hones
  decide +kernel

/-- **Core's importer.**  It takes what `keyToPassphrase` produces, and returns the key that was
written. -/
theorem core_accepts_iff :
    passphraseToKey s = .ok key ↔
      key.length = 32 ∧ Surrounded isEcmaWhitespace (keyToPassphrase key) s := by
  have hclean : ∀ c ∈ keyToPassphrase key, isEcmaWhitespace c = false := fun c hc =>
    isEcmaWhitespace_of_mem (mem_alphabet_of_readNumber (readNumber_keyToPassphrase key) c hc)
  rw [← strip_eq_iff _ hclean, passphraseToKey]
  constructor
  · intro h
    split at h
    · cases h
    · split at h
      · cases h
      · rename_i raw hraw
        split_ifs at h with hcanonical
        · obtain rfl := Except.ok.inj h
          obtain ⟨n, -, -, hkey⟩ := base58Decode_eq_ok_iff.mp hraw
          exact ⟨by rw [hkey, length_keyBytes], (not_not.mp hcanonical).symm⟩
  · rintro ⟨hlength, hstrip⟩
    have hdecode : base58Decode (keyToPassphrase key) = .ok key :=
      base58Decode_eq_ok_iff.mpr ⟨_, readNumber_keyToPassphrase key, keyNumber_lt hlength,
        (keyBytes_keyNumber hlength).symm⟩
    have hcanonical : ¬ base58Encode key ≠ keyToPassphrase key := fun h => h rfl
    rw [hstrip, if_neg (keyToPassphrase_ne_nil hlength), hdecode]
    dsimp only
    rw [if_neg hcanonical]

/-! ## Python -/

namespace Python

/-- The texts of `CryptoProtocolError`, in the order in which they are raised. -/
inductive CryptoProtocolError where
  | portableKeysAreThirtyTwoBytes
  | mustNotBeEmpty
  | mustUse42To44Characters
  | invalidBase58Character (c : Char)
  | exceedsThePortableKeySize
  | mustDecodeToThirtyTwoBytes
  | insufficientKeyMaterial
  deriving DecidableEq

/-- Python's `base58_encode`. -/
def base58Encode (raw : List UInt8) : List Char := bigIntEncode raw

/-- Python's `base58_decode`; the hexadecimal text is the list of its digits. -/
def base58Decode (value : List Char) : Except CryptoProtocolError (List UInt8) :=
  match readNumber value 0 with
  | .error c => .error (.invalidBase58Character c)
  | .ok number =>
    let hexadecimal := paddedDigits 64 16 number
    if hexadecimal.length % 2 = 1 then .error .exceedsThePortableKeySize
    else .ok ((pairDigits 16 hexadecimal).map UInt8.ofNat)

/-- Python's `portable_key_from_bytes`. -/
def portableKeyFromBytes (key : List UInt8) : Except CryptoProtocolError (List Char) :=
  if key.length ≠ 32 then .error .portableKeysAreThirtyTwoBytes else .ok (base58Encode key)

/-- Python's `canonical_portable_key`. -/
def canonicalPortableKey (portableKey : List Char) : Except CryptoProtocolError (List Char) :=
  let normalized := strip isEcmaWhitespace portableKey
  if normalized = [] then .error .mustNotBeEmpty
  else if ¬ (42 ≤ normalized.length ∧ normalized.length ≤ 44) then .error .mustUse42To44Characters
  else
    match base58Decode normalized with
    | .error e => .error e
    | .ok raw =>
      if raw.length ≠ 32 then .error .mustDecodeToThirtyTwoBytes
      else if ¬ (42 ≤ (base58Encode raw).length ∧ (base58Encode raw).length ≤ 44) then
        .error .insufficientKeyMaterial
      else .ok normalized

/-- Python's `portable_key_to_bytes`. -/
def portableKeyToBytes (portableKey : List Char) : Except CryptoProtocolError (List UInt8) :=
  match canonicalPortableKey portableKey with
  | .error e => .error e
  | .ok normalized => base58Decode normalized

end Python

theorem bytesOfHex (h : n < 256 ^ 32) :
    (paddedDigits 64 16 n).length = 64 ∧
      (pairDigits 16 (paddedDigits 64 16 n)).map UInt8.ofNat = keyBytes n := by
  have hpow : (256 : ℕ) ^ 32 = 16 ^ 64 := by norm_num
  have hlength : (paddedDigits 64 16 n).length = 64 :=
    length_paddedDigits (by decide) (by decide) (hpow ▸ h)
  have hpairs : pairDigits 16 (paddedDigits 64 16 n) = fixedDigits 256 32 n := by
    have hvalue := frontValue_pairDigits 16 (paddedDigits 64 16 n) (by rw [hlength]; decide)
    rw [frontValue_paddedDigits] at hvalue
    rw [← fixedDigits_frontValue (b := 256) (w := 32) (by decide)
      (by rw [length_pairDigits, hlength])
      (lt_of_mem_pairDigits (b := 16) fun d => lt_of_mem_paddedDigits (by decide)), hvalue]
  exact ⟨hlength, by rw [hpairs, keyBytes]⟩

theorem Python.base58Decode_of_lt (h : readNumber t 0 = .ok n) (hlt : n < 256 ^ 32) :
    Python.base58Decode t = .ok (keyBytes n) := by
  obtain ⟨hlength, hbytes⟩ := bytesOfHex hlt
  unfold Python.base58Decode
  rw [h]
  dsimp only
  rw [if_neg (by rw [hlength]; decide), hbytes]

theorem Python.base58Decode_thirtyTwo {raw : List UInt8} (h : Python.base58Decode t = .ok raw)
    (hlength : raw.length = 32) :
    ∃ n, readNumber t 0 = .ok n ∧ n < 256 ^ 32 ∧ raw = keyBytes n := by
  unfold Python.base58Decode at h
  cases hn : readNumber t 0 with
  | error c =>
    rw [hn] at h
    cases h
  | ok n =>
    rw [hn] at h
    dsimp only at h
    split_ifs at h with hodd
    have hraw := Except.ok.inj h
    have hlt : n < 256 ^ 32 := by
      by_contra hnot
      have hpow : (256 : ℕ) ^ 32 = 16 ^ 64 := by norm_num
      have hlong := lt_length_paddedDigits (w := 64) (b := 16) (n := n) (by decide) (by decide)
        (by rw [← hpow]; omega)
      rw [← hraw, length_map, length_pairDigits] at hlength
      omega
    exact ⟨n, rfl, hlt, by rw [← hraw, (bytesOfHex hlt).2]⟩

/-- A base58 text that Python takes, and its key: the text and the canonical text of the key have
42 to 44 characters. -/
structure PythonKey (t : List Char) (key : List UInt8) : Prop where
  value : ∃ n, readNumber t 0 = .ok n ∧ n < 256 ^ 32 ∧ key = keyBytes n
  written : 42 ≤ t.length ∧ t.length ≤ 44
  canonical : 42 ≤ (keyToPassphrase key).length ∧ (keyToPassphrase key).length ≤ 44

/-- **Python's importer.** -/
theorem python_accepts_iff :
    Python.portableKeyToBytes s = .ok key ↔
      ∃ t, Surrounded isEcmaWhitespace t s ∧ PythonKey t key := by
  constructor
  · intro h
    unfold Python.portableKeyToBytes Python.canonicalPortableKey at h
    dsimp only at h
    refine ⟨strip isEcmaWhitespace s, surrounded_strip _ s, ?_⟩
    split at h
    · cases h
    · rename_i normalized hnormalized
      split_ifs at hnormalized with hempty hwritten
      cases hraw : Python.base58Decode (strip isEcmaWhitespace s) with
      | error e =>
        rw [hraw] at hnormalized
        cases hnormalized
      | ok raw =>
        rw [hraw] at hnormalized
        dsimp only at hnormalized
        split_ifs at hnormalized with hlength hcanonical
        rw [← Except.ok.inj hnormalized, hraw] at h
        obtain rfl := Except.ok.inj h
        exact ⟨Python.base58Decode_thirtyTwo hraw (not_not.mp hlength), hwritten, hcanonical⟩
  · rintro ⟨t, hs, ⟨n, hn, hlt, hkey⟩, hwritten, hcanonical⟩
    have hclean : ∀ c ∈ t, isEcmaWhitespace c = false := fun c hc =>
      isEcmaWhitespace_of_mem (mem_alphabet_of_readNumber hn c hc)
    have hdecode := Python.base58Decode_of_lt hn hlt
    have hlength : key.length = 32 := by rw [hkey, length_keyBytes]
    have hne : t ≠ [] := by
      rintro rfl
      exact absurd hwritten.1 (by decide)
    rw [← hkey] at hdecode
    have hcanonical' : 42 ≤ (Python.base58Encode key).length ∧
        (Python.base58Encode key).length ≤ 44 := hcanonical
    simp only [Python.portableKeyToBytes, Python.canonicalPortableKey,
      strip_of_surrounded _ hclean hs, if_neg hne, hwritten, hdecode, hlength, hcanonical',
      not_true_eq_false, ne_eq, and_self, if_false]

/-! ## Swift -/

/-- The Kelvin sign, which is canonically equivalent to `K`. -/
def kelvinSign : Char := Char.ofNat 0x212A

/-- **Swift's strings**, as far as base58 uses them.  A string is cut into `Character`s, which are
clusters of scalar values and are equal if their canonical decompositions are. -/
structure SwiftText where
  characters : List Char → List (List Char)
  decomposed : List Char → List Char
  /-- Cutting loses nothing. -/
  characters_flatten : ∀ s, (characters s).flatten = s
  /-- Letters and digits of ASCII stand alone. -/
  characters_ascii : ∀ s : List Char, (∀ c ∈ s, c ∈ base58Alphabet) →
    characters s = s.map fun c => [c]
  /-- Nothing but the Kelvin sign is equivalent to another letter or digit of ASCII. -/
  decomposed_ascii : ∀ (g : List Char) (c : Char), c ∈ base58Alphabet →
    decomposed g = decomposed [c] → g = [c] ∨ g = [kelvinSign]

namespace Swift

/-- The errors of `passphraseToKey`. -/
inductive CryptoError where
  | invalidBase58Character (ch : List Char)
  | invalidKeySize (size : ℕ)

/-- Swift's `base58Encode`. -/
def base58Encode (bytes : List UInt8) : List Char :=
  let digits := (bytes.map UInt8.toNat).foldl (mulAdd 58 256) [0]
  leadingOnes bytes ++ digits.reverse.map symbol

/-- Swift's `keyToPassphrase`. -/
def keyToPassphrase (key : List UInt8) : List Char := base58Encode key

variable (swift : SwiftText)

/-- `BASE58_ALPHABET.firstIndex(of: ch)`. -/
def firstIndex (ch : List Char) : Option ℕ :=
  base58Alphabet.findIdx? fun c => decide (swift.decomposed [c] = swift.decomposed ch)

/-- The loop over the characters, with the digit array. -/
def readDigits : List (List Char) → List ℕ → Except CryptoError (List ℕ)
  | [], bytes => .ok bytes
  | ch :: chs, bytes =>
    match firstIndex swift ch with
    | some idx => readDigits chs (mulAdd 256 58 bytes idx)
    | none => .error (.invalidBase58Character ch)

/-- Swift's `base58Decode`. -/
def base58Decode (str : List Char) : Except CryptoError (List UInt8) :=
  match readDigits swift (swift.characters str) [0] with
  | .error e => .error e
  | .ok bytes =>
    let zeros := ((swift.characters str).takeWhile fun ch =>
      decide (swift.decomposed ch = swift.decomposed ['1'])).map fun _ => 0
    .ok ((fit 32 (zeros ++ bytes.reverse)).map UInt8.ofNat)

/-- Swift's `importKeyRaw`. -/
def importKeyRaw (raw : List UInt8) : Except CryptoError (List UInt8) :=
  if raw.length = 32 then .ok raw else .error (.invalidKeySize raw.length)

/-- Swift's `passphraseToKey`. -/
def passphraseToKey (passphrase : List Char) : Except CryptoError (List UInt8) :=
  match base58Decode swift (strip isSwiftWhitespace passphrase) with
  | .error e => .error e
  | .ok raw => importKeyRaw raw

end Swift

theorem kelvinSign_not_mem : kelvinSign ∉ base58Alphabet := by decide

theorem isEcmaWhitespace_kelvinSign : isEcmaWhitespace kelvinSign = false := by decide

/-- **What Swift writes.**  Only for the key of zeros the digit array has a digit too many. -/
theorem swift_writes (h : keyNumber key ≠ 0) : Swift.keyToPassphrase key = keyToPassphrase key := by
  have hzero : ([0] : List ℕ) = digitArray 58 0 := rfl
  have hdigits : (key.map UInt8.toNat).foldl (mulAdd 58 256) [0] =
      Nat.digits 58 (keyNumber key) := by
    rw [hzero, foldl_mulAdd (by decide) (by decide), ← frontValue, ← keyNumber_eq, digitArray,
      if_neg h]
  rw [Swift.keyToPassphrase, Swift.base58Encode, hdigits, keyToPassphrase_eq, keyDigits,
    map_append, leadingOnes_eq]

section SwiftReads

variable (swift : SwiftText)

theorem decomposed_inj {d : Char} (hc : c ∈ base58Alphabet) (hd : d ∈ base58Alphabet)
    (h : swift.decomposed [c] = swift.decomposed [d]) : c = d := by
  rcases swift.decomposed_ascii [c] d hd h with heq | heq
  · exact head_eq_of_cons_eq heq
  · rw [head_eq_of_cons_eq heq] at hc
    exact absurd hc kelvinSign_not_mem

theorem findIdx_congr {α : Type} {p q : α → Bool} {l : List α} (h : ∀ a ∈ l, p a = q a) :
    l.findIdx? p = l.findIdx? q := by
  induction l with
  | nil => rfl
  | cons a l ih =>
    obtain ⟨ha, hl⟩ := forall_mem_cons.mp h
    rw [List.findIdx?_cons, List.findIdx?_cons, ha, ih hl]

theorem firstIndex_symbol {d : ℕ} (h : d < 58) : Swift.firstIndex swift [symbol d] = some d := by
  have hcongr : ∀ c ∈ base58Alphabet,
      decide (swift.decomposed [c] = swift.decomposed [symbol d]) = decide (c = symbol d) := by
    intro c hc
    rw [decide_eq_decide]
    exact ⟨decomposed_inj swift hc (symbol_mem h), fun heq => by rw [heq]⟩
  have hall : ∀ d : Fin 58, base58Alphabet.findIdx? (fun c => decide (c = symbol d)) =
      some d.val := by decide +kernel
  rw [Swift.firstIndex, findIdx_congr hcongr]
  exact hall ⟨d, h⟩

theorem readDigits_symbols {ds : List ℕ} (hds : ∀ d ∈ ds, d < 58) (n : ℕ) :
    Swift.readDigits swift (ds.map fun d => [symbol d]) (digitArray 256 n) =
      .ok (digitArray 256 (ds.foldl (fun acc d => acc * 58 + d) n)) := by
  induction ds generalizing n with
  | nil => rfl
  | cons d ds ih =>
    obtain ⟨hd, hds⟩ := forall_mem_cons.mp hds
    rw [map_cons, Swift.readDigits, firstIndex_symbol swift hd]
    dsimp only
    rw [mulAdd_digits (by decide) (by decide), ih hds, foldl_cons]

/-- **What Swift reads.**  A base58 text is read as the low 32 bytes of its value. -/
theorem swift_reads (h : readNumber t 0 = .ok n) :
    Swift.base58Decode swift t = .ok (keyBytes n) := by
  obtain ⟨ds, hds, ht, hn⟩ := readNumber_eq_ok_iff.mp h
  have hchars : swift.characters t = ds.map fun d => [symbol d] := by
    rw [swift.characters_ascii t (mem_alphabet_of_readNumber h), ht, map_map]
    rfl
  have hread : Swift.readDigits swift (swift.characters t) [0] = .ok (digitArray 256 n) := by
    rw [hchars, hn]
    exact readDigits_symbols swift hds 0
  unfold Swift.base58Decode
  rw [hread]
  dsimp only
  rw [digitArray_reverse, map_const', keyBytes, fit_eq (b := 256) (by decide),
    frontValue_replicate_zero_append, frontValue_digitsFront]
  intro d hd
  rcases mem_append.mp hd with hd | hd
  · rw [eq_of_mem_replicate hd]
    decide
  · exact lt_of_mem_digitsFront (by decide) hd

theorem swift_passphrase {s : List Char} (hs : strip isSwiftWhitespace s = t)
    (h : readNumber t 0 = .ok n) : Swift.passphraseToKey swift s = .ok (keyBytes n) := by
  unfold Swift.passphraseToKey
  rw [hs, swift_reads swift h]
  dsimp only
  rw [Swift.importKeyRaw, if_pos (length_keyBytes n)]

theorem mem_of_readDigits {chs : List (List Char)} {bytes bytes' : List ℕ}
    (h : Swift.readDigits swift chs bytes = .ok bytes') :
    ∀ c ∈ chs.flatten, c ∈ base58Alphabet ∨ c = kelvinSign := by
  induction chs generalizing bytes with
  | nil => simp
  | cons ch chs ih =>
    rw [Swift.readDigits] at h
    split at h
    · rename_i idx hidx
      intro c hc
      rw [flatten_cons, mem_append] at hc
      rcases hc with hc | hc
      · obtain ⟨i, hmatch, -⟩ := List.findIdx?_eq_some_iff_getElem.mp hidx
        have heq := (of_decide_eq_true hmatch).symm
        have hmem : base58Alphabet[idx] ∈ base58Alphabet := getElem_mem i
        rcases swift.decomposed_ascii ch _ hmem heq with hch | hch
        · rw [hch, mem_singleton] at hc
          exact .inl (hc ▸ hmem)
        · rw [hch, mem_singleton] at hc
          exact .inr hc
      · exact ih h c hc
    · cases h

end SwiftReads

/-! ## The three together -/

theorem swift_agrees (swift : SwiftText) (hs : Surrounded isEcmaWhitespace t s)
    (hn : readNumber t 0 = .ok n) (h : Swift.passphraseToKey swift s = .ok key) :
    key = keyBytes n := by
  have halphabet := mem_alphabet_of_readNumber hn
  -- the characters of the whole text: surrounding ones, and symbols
  have hchars : ∀ c ∈ s, isEcmaWhitespace c = true ∨ c ∈ base58Alphabet := by
    obtain ⟨before, after, rfl, hbefore, hafter⟩ := hs
    intro c hc
    rcases mem_append.mp hc with hc | hc
    · rcases mem_append.mp hc with hc | hc
      · exact .inl (hbefore c hc)
      · exact .inr (halphabet c hc)
    · exact .inl (hafter c hc)
  obtain ⟨before, after, hsplit, hbefore, hafter⟩ := surrounded_strip isSwiftWhitespace s
  have hstripped : ∀ c ∈ strip isSwiftWhitespace s, c ∈ base58Alphabet := by
    intro c hc
    have hmem : c ∈ s := by
      rw [hsplit]
      exact mem_append_left _ (mem_append_right _ hc)
    have hread : c ∈ base58Alphabet ∨ c = kelvinSign := by
      unfold Swift.passphraseToKey Swift.base58Decode at h
      split at h
      · cases h
      · rename_i raw hraw
        split at hraw
        · cases hraw
        · rename_i bytes hbytes
          refine mem_of_readDigits swift hbytes c ?_
          rwa [swift.characters_flatten]
    rcases hread with hsymbol | rfl
    · exact hsymbol
    · rcases hchars _ hmem with hwhite | hsymbol
      · rw [isEcmaWhitespace_kelvinSign] at hwhite
        cases hwhite
      · exact hsymbol
  -- so both strip to the same text
  have hsame : strip isSwiftWhitespace s = t := by
    refine surrounded_unique hstripped halphabet ?_ hs
    exact ⟨before, after, hsplit, fun c hc => isEcmaWhitespace_of_swift (hbefore c hc),
      fun c hc => isEcmaWhitespace_of_swift (hafter c hc)⟩
  rw [swift_passphrase swift hsame hn] at h
  exact (Except.ok.inj h).symm

/-- **Portable keys.**  Core and Python write every key alike, and Swift every key but that of
zeros.  Core takes exactly what it writes; Python takes base58 texts of 42 to 44 characters whose
value is a key with a canonical text of that length; Swift takes whatever core writes, in its own
white space.  And no two of them read one text as two keys. -/
theorem portable_keys_agree (swift : SwiftText) :
    (∀ key : List UInt8, key.length = 32 →
      Python.portableKeyFromBytes key = .ok (keyToPassphrase key) ∧
        (key ≠ List.replicate 32 0 → Swift.keyToPassphrase key = keyToPassphrase key)) ∧
    (∀ s key, passphraseToKey s = .ok key ↔
      key.length = 32 ∧ Surrounded isEcmaWhitespace (keyToPassphrase key) s) ∧
    (∀ s key, Python.portableKeyToBytes s = .ok key ↔
      ∃ t, Surrounded isEcmaWhitespace t s ∧ PythonKey t key) ∧
    (∀ s key, key.length = 32 → Surrounded isSwiftWhitespace (keyToPassphrase key) s →
      Swift.passphraseToKey swift s = .ok key) ∧
    (∀ s key key', passphraseToKey s = .ok key → Python.portableKeyToBytes s = .ok key' →
      key' = key) ∧
    (∀ s key key', Swift.passphraseToKey swift s = .ok key' →
      passphraseToKey s = .ok key ∨ Python.portableKeyToBytes s = .ok key → key' = key) := by
  refine ⟨fun key hkey => ⟨?_, fun hne => swift_writes fun hzero => hne ?_⟩, fun s key =>
    core_accepts_iff, fun s key => python_accepts_iff, ?_, ?_, ?_⟩
  · rw [Python.portableKeyFromBytes, if_neg (not_not.mpr hkey)]
    rfl
  · rw [← keyBytes_keyNumber hkey, hzero]
    decide +kernel
  · intro s key hkey hs
    have hread := readNumber_keyToPassphrase key
    have hclean : ∀ c ∈ keyToPassphrase key, isSwiftWhitespace c = false := by
      intro c hc
      by_contra hwhite
      rw [Bool.not_eq_false] at hwhite
      have hsymbol := isEcmaWhitespace_of_mem (mem_alphabet_of_readNumber hread c hc)
      rw [isEcmaWhitespace_of_swift hwhite] at hsymbol
      cases hsymbol
    rw [swift_passphrase swift (strip_of_surrounded _ hclean hs) hread, keyBytes_keyNumber hkey]
  · intro s key key' hcore hpython
    obtain ⟨hlength, hs⟩ := core_accepts_iff.mp hcore
    obtain ⟨t, ht, ⟨n, hn, -, hkey'⟩, -, -⟩ := python_accepts_iff.mp hpython
    have hread := readNumber_keyToPassphrase key
    have hsame : t = keyToPassphrase key :=
      surrounded_unique (mem_alphabet_of_readNumber hn) (mem_alphabet_of_readNumber hread) ht hs
    rw [hsame, hread] at hn
    rw [hkey', ← Except.ok.inj hn, keyBytes_keyNumber hlength]
  · rintro s key key' hswift (hcore | hpython)
    · obtain ⟨hlength, hs⟩ := core_accepts_iff.mp hcore
      rw [swift_agrees swift hs (readNumber_keyToPassphrase key) hswift, keyBytes_keyNumber hlength]
    · obtain ⟨t, ht, ⟨n, hn, -, hkey⟩, -, -⟩ := python_accepts_iff.mp hpython
      rw [swift_agrees swift ht hn hswift, hkey]

/-- Strings without combining marks: every scalar value is a character of its own. -/
def scalarText : SwiftText where
  characters s := s.map fun c => [c]
  decomposed g := g
  characters_flatten s := by
    induction s with
    | nil => rfl
    | cons c s ih => rw [map_cons, flatten_cons, ih]; rfl
  characters_ascii _ _ := rfl
  decomposed_ascii _ _ _ h := .inl h

/-- The key with the number one. -/
def keyOne : List UInt8 := List.replicate 31 0 ++ [1]

/-- Swift writes the key of zeros with a character more than core does, and takes the text `2`,
which core does not; and Python does not take what core writes for `keyOne`. -/
theorem importers_differ :
    Swift.keyToPassphrase (List.replicate 32 0) ≠ keyToPassphrase (List.replicate 32 0) ∧
      Swift.passphraseToKey scalarText ['2'] = .ok keyOne ∧
      passphraseToKey ['2'] = .error (.notCanonical 1) ∧
      passphraseToKey (keyToPassphrase keyOne) = .ok keyOne ∧
      Python.portableKeyToBytes (keyToPassphrase keyOne) = .error .mustUse42To44Characters := by
  refine ⟨by decide +kernel, ?_, ?_, ?_, ?_⟩
  · have hone : keyBytes 1 = keyOne := by decide +kernel
    rw [swift_passphrase scalarText (t := ['2']) (n := 1) (by decide) (by decide), hone]
  · decide +kernel
  · exact core_accepts_iff.mpr ⟨by decide, [], [], by simp, by simp, by simp⟩
  · decide +kernel

end Interocitor.PortableKeys
