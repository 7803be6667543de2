import Interocitor.Foundation.Base64
import Interocitor.Foundation.JsonReader
import Interocitor.Foundation.Utf8Text
import Interocitor.Native.WireValues

/-!
# `crypto/base64.ts`, and JSON as the core uses it

What a device hands to another is a JavaScript value that goes through JSON, UTF-8 and URL-safe
base64.  `JSON.parse` is the reader of `Foundation.JsonReader` with JavaScript's numbers; of
several properties with one name the last counts.  `JSON.stringify` is `stringify`: a property
whose value is `undefined` is left out, and in an array it becomes `null`.  How it writes numbers
and dates is left open: nothing that is said here depends on it.

Runtimes may or may not have base64 of their own, and `base64.ts` uses it where they do.  What it
is documented to do is a field of `NativeBase64`.

* `base64UrlToBytes_bytesToBase64Url`: bytes come back, with or without the runtime's own base64.
* `JsonWritten`, with `jsonWritten_string`, `jsonWritten_array` and `jsonWritten_object`: values made
  of strings are read as they were written.
-/

namespace Interocitor

open CodeUnits OrderedRecord JsonText JsonReader List

/-! ## JSON -/

/-- `JSON.parse`. -/
def jsBuilder : Builder JsValue where
  null := .null
  bool := .bool
  number l := some (.number (Wire.jsNumber l))
  string := .string
  array := .array
  object members := .object ((∅ : Record Text JsValue).setAll members).entries
  words := []

theorem entries_setAll_empty {V : Type} {l : List (Text × V)} (h : (l.map Prod.fst).Nodup) :
    ((∅ : Record Text V).setAll l).entries = l := by
  have hentries : ((∅ : Record Text V).entries ++ l) = l := rfl
  rw [Record.entries_setAll (by rw [hentries]; exact h), hentries]

/-- `JSON.parse` of a text. -/
def jsonParse (t : Text) : Option JsValue := read jsBuilder t

/-- How a runtime writes numbers, and dates in ISO format. -/
structure Printers where
  number : JsNumber → Text
  iso : ℤ → Text

section Stringify

variable (P : Printers)

mutual

/-- `JSON.stringify`; `none` is `undefined`. -/
def stringify : JsValue → Option Text
  | .undefined => none
  | .null => some nullText
  | .bool b => some (boolText b)
  | .number x => some (P.number x)
  | .string t => some (quote t)
  | .date none => some nullText
  | .date (some t) => some (quote (P.iso t))
  | .array items => some (91 :: joined (itemTexts items) ++ [93])
  | .object fields => some (123 :: joined (fieldTexts fields) ++ [125])

/-- The texts of the items of an array. -/
def itemTexts : List JsValue → List Text
  | [] => []
  | v :: items => (stringify v).getD nullText :: itemTexts items

/-- The texts of the properties of an object. -/
def fieldTexts : List (Text × JsValue) → List Text
  | [] => []
  | (k, v) :: fields =>
    match stringify v with
    | none => fieldTexts fields
    | some t => (quote k ++ 58 :: t) :: fieldTexts fields

end

/-- The text `t` is what `JSON.stringify` writes for `v`, and is read as `v` where values may be
nested to the depth `n`. -/
structure JsonWritten (n : ℕ) (t : Text) (v : JsValue) : Prop where
  text : stringify P v = some t
  parses : Parses (readValue jsBuilder n) t v
  solid : Solid t
  wellFormed : isWellFormed t = true

variable {P}

theorem jsonWritten_string (n : ℕ) (t : Text) : JsonWritten P (n + 1) (quote t) (.string t) where
  text := by rw [stringify]
  parses := parses_string (reads_quoteBody t) n
  solid := solid_quoted (quoteBody t)
  wellFormed := Utf8Text.isWellFormed_quote t

/-- An array of values that are read as they were written. -/
theorem jsonWritten_array {n : ℕ} {pieces : List (Text × JsValue)}
    (h : ∀ p ∈ pieces, JsonWritten P n p.1 p.2) :
    JsonWritten P (n + 1) (91 :: joined (pieces.map Prod.fst) ++ [93])
      (.array (pieces.map Prod.snd)) where
  text := by
    have hitems : itemTexts P (pieces.map Prod.snd) = pieces.map Prod.fst := by
      induction pieces with
      | nil => rfl
      | cons p pieces ih =>
        rw [forall_mem_cons] at h
        rw [map_cons, itemTexts, h.1.text, Option.getD_some, ih h.2, map_cons]
    rw [stringify, hitems]
  parses := parses_array fun p hp => ⟨(h p hp).parses, (h p hp).solid⟩
  solid := ⟨91, _, rfl, rfl, by decide, by decide⟩
  wellFormed := by
    refine Utf8Text.isWellFormed_append (Utf8Text.isWellFormed_cons (by decide)
      (Utf8Text.isWellFormed_joined ?_)) (by decide)
    intro t ht
    obtain ⟨p, hp, rfl⟩ := mem_map.mp ht
    exact (h p hp).wellFormed

/-- An object whose properties have different names, and values that are read as they were
written. -/
theorem jsonWritten_object {n : ℕ} {pieces : List (Text × Text × JsValue)}
    (hkeys : (pieces.map fun p => p.2.1).Nodup)
    (h : ∀ p ∈ pieces, ∃ t, p.1 = quote p.2.1 ++ 58 :: t ∧ JsonWritten P n t p.2.2) :
    JsonWritten P (n + 1) (123 :: joined (pieces.map Prod.fst) ++ [125])
      (.object (pieces.map Prod.snd)) where
  text := by
    have hfields : fieldTexts P (pieces.map Prod.snd) = pieces.map Prod.fst := by
      clear hkeys
      induction pieces with
      | nil => rfl
      | cons p pieces ih =>
        rw [forall_mem_cons] at h
        obtain ⟨t, ht, hwritten⟩ := h.1
        rw [map_cons, fieldTexts, hwritten.text, map_cons, ih h.2, ht]
    rw [stringify, hfields]
  parses := by
    have hobject : jsBuilder.object (pieces.map Prod.snd) = .object (pieces.map Prod.snd) :=
      congrArg JsValue.object (entries_setAll_empty (by rw [map_map]; exact hkeys))
    rw [← hobject]
    refine parses_object fun p hp => ?_
    obtain ⟨t, ht, hwritten⟩ := h p hp
    rw [ht]
    exact ⟨parses_member (reads_quoteBody p.2.1) hwritten.parses, solid_member _ _⟩
  solid := ⟨123, _, rfl, rfl, by decide, by decide⟩
  wellFormed := by
    refine Utf8Text.isWellFormed_append (Utf8Text.isWellFormed_cons (by decide)
      (Utf8Text.isWellFormed_joined ?_)) (by decide)
    intro t ht
    obtain ⟨p, hp, rfl⟩ := mem_map.mp ht
    obtain ⟨t, ht, hwritten⟩ := h p hp
    rw [ht]
    exact Utf8Text.isWellFormed_append (Utf8Text.isWellFormed_quote _)
      (Utf8Text.isWellFormed_cons (by decide) hwritten.wellFormed)

/-- An object with different names and values nested to the depth `k`, at any greater depth. -/
theorem exists_jsonWritten_object {k : ℕ} {fields : List (Text × JsValue)}
    (hkeys : (fields.map Prod.fst).Nodup)
    (h : ∀ f ∈ fields, ∃ t, ∀ n, JsonWritten P (n + k) t f.2) :
    ∃ t, fields.length < t.length ∧
      ∀ n, JsonWritten P (n + (k + 1)) (123 :: t) (.object fields) := by
  let pieces := fields.map fun f => (quote f.1 ++ 58 :: (stringify P f.2).getD [], f)
  have hfields : pieces.map Prod.snd = fields := by
    rw [map_map]
    exact map_id fields
  refine ⟨joined (pieces.map Prod.fst) ++ [125], ?_, fun n => ?_⟩
  · have hlong := length_le_joined (pieces.map Prod.fst) fun t ht => by
      obtain ⟨p, hp, rfl⟩ := mem_map.mp ht
      obtain ⟨f, -, rfl⟩ := mem_map.mp hp
      exact cons_ne_nil _ _
    rw [length_map, length_map] at hlong
    rw [length_append]
    exact Nat.lt_succ_of_le hlong
  rw [← hfields]
  refine jsonWritten_object (n := n + k) ?_ fun p hp => ?_
  · have hnames : (pieces.map fun p => p.2.1) = fields.map Prod.fst := by
      rw [map_map]
      rfl
    rw [hnames]
    exact hkeys
  · obtain ⟨f, hf, rfl⟩ := mem_map.mp hp
    obtain ⟨t, ht⟩ := h f hf
    refine ⟨t, ?_, ht n⟩
    rw [(ht n).text, Option.getD_some]

theorem JsonWritten.jsonParse {t : Text} {v : JsValue} (h : JsonWritten P (t.length + 1) t v) :
    jsonParse t = some v := read_of_parses h.parses

end Stringify

/-! ## `base64.ts` -/

/-- The base64 of a runtime, if it has any: `Uint8Array#toBase64` and `Uint8Array.fromBase64` with
the URL-safe alphabet. -/
structure NativeBase64 where
  toBase64 : Option (List UInt8 → Text)
  fromBase64 : Option (Text → Option (List UInt8))
  encodes : ∀ f, toBase64 = some f → ∀ bytes, f bytes = Base64.encodeUrl bytes
  decodes : ∀ f, fromBase64 = some f → ∀ bytes, f (Base64.encodeUrl bytes) = some bytes

/-- A runtime without base64 of its own. -/
def NativeBase64.none : NativeBase64 := ⟨.none, .none, fun _ h => absurd h (by simp),
  fun _ h => absurd h (by simp)⟩

/-- `replaceAll` of one character by another. -/
def replaceUnit (a b : CodeUnit) (t : Text) : Text := t.map fun u => if u = a then b else u

/-- `replace(/=+$/, "")`. -/
def dropTrailing (a : CodeUnit) (t : Text) : Text :=
  (t.reverse.dropWhile fun u => decide (u = a)).reverse

/-- `bytesToBase64Url`. -/
def bytesToBase64Url (R : NativeBase64) (bytes : List UInt8) : Text :=
  match R.toBase64 with
  | some native => native bytes
  | .none => dropTrailing 61 (replaceUnit 47 95 (replaceUnit 43 45 (Base64.btoa bytes)))

/-- `base64UrlToBytes`. -/
def base64UrlToBytes (R : NativeBase64) (text : Text) : Option (List UInt8) :=
  match R.fromBase64 with
  | some native => native text
  | .none =>
    let standard := replaceUnit 95 47 (replaceUnit 45 43 text)
    Base64.atob (standard ++ List.replicate ((4 - standard.length % 4) % 4) 61)

theorem bytesToBase64Url_eq (R : NativeBase64) (bytes : List UInt8) :
    bytesToBase64Url R bytes = Base64.encodeUrl bytes := by
  rw [bytesToBase64Url]
  cases hnative : R.toBase64 with
  | some native => exact R.encodes native hnative bytes
  | none =>
    have hreplace : replaceUnit 47 95 (replaceUnit 43 45 (Base64.btoa bytes)) =
        Base64.encodeUrl bytes ++ Base64.padding bytes := by
      rw [Base64.btoa, replaceUnit, replaceUnit, map_map, map_append, Base64.encode,
        map_map, Base64.encodeUrl]
      congr 1
      · refine map_congr_left fun d hd => ?_
        have hall : ∀ d < 64, ((fun u => if u = 47 then 95 else u) ∘
            fun u => if u = 43 then (45 : CodeUnit) else u) (Base64.digit 43 47 d) =
              Base64.digit 45 95 d := by decide
        exact hall d (Base64.bits_lt bytes d hd)
      · rw [Base64.padding, map_replicate]
        rfl
    have hlast : ((Base64.encodeUrl bytes).reverse.dropWhile fun u => decide (u = 61)) =
        (Base64.encodeUrl bytes).reverse := by
      rcases hrev : (Base64.encodeUrl bytes).reverse with _ | ⟨u, r⟩
      · rfl
      · refine dropWhile_cons_of_neg ?_
        have hu : u ∈ Base64.encodeUrl bytes := by
          rw [← mem_reverse, hrev]
          exact mem_cons_self
        have hchar := Base64.isUrlChar_of_mem hu
        rw [decide_eq_true_eq]
        rintro rfl
        exact absurd hchar (by decide)
    dsimp only
    rw [hreplace, dropTrailing, reverse_append, Base64.padding, reverse_replicate,
      dropWhile_append_of_pos (by
        intro u hu
        rw [eq_of_mem_replicate hu]
        rfl), hlast, reverse_reverse]

/-- **Bytes come back.** -/
theorem base64UrlToBytes_bytesToBase64Url (R : NativeBase64) (bytes : List UInt8) :
    base64UrlToBytes R (bytesToBase64Url R bytes) = some bytes := by
  rw [bytesToBase64Url_eq, base64UrlToBytes]
  cases hnative : R.fromBase64 with
  | some native => exact R.decodes native hnative bytes
  | none =>
    have hrestore : replaceUnit 95 47 (replaceUnit 45 43 (Base64.encodeUrl bytes)) =
        Base64.encode bytes := by
      rw [replaceUnit, replaceUnit, map_map, Base64.encodeUrl, map_map, Base64.encode]
      refine map_congr_left fun d hd => ?_
      have hall : ∀ d < 64, (((fun u => if u = 95 then 47 else u) ∘
          fun u => if u = 45 then (43 : CodeUnit) else u) ∘ Base64.digit 45 95) d =
            Base64.digit 43 47 d := by decide
      exact hall d (Base64.bits_lt bytes d hd)
    have hlengths := (Base64.length_sextets (bytes.map UInt8.toNat)).1
    have hlength : (Base64.encode bytes).length =
        (Base64.sextets (bytes.map UInt8.toNat)).length := length_map _
    rw [length_map] at hlengths
    dsimp only
    rw [hrestore, hlength, hlengths]
    exact Base64.atob_btoa bytes

end Interocitor
