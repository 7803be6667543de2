import Interocitor.Core.Encoding

/-!
# Frames of stored files

A durable file is stored as a frame: the length of a header in four bytes, the header as JSON in
UTF-8, and the body.  The TypeScript core and the Python client write and read the same frames.

Their headers differ as texts.  `JSON.stringify` writes characters as they are and escapes a
surrogate outside a pair; `json.dumps` escapes everything beyond ASCII, so that every header it
writes is ASCII.  TypeScript writes the properties in the order in which the header has them and
leaves out the undefined ones, Python writes them in a fixed order and leaves out those that are
`None`.  The readers do not mind: `JsonReader.Reads` has every spelling of a character, and both
look the properties up by name.

Numbers are another matter.  A size is an `int` in Python, of any magnitude, and a number in
JavaScript, which is exact below `2 ^ 53`.  A larger size that Python writes is read by TypeScript
as the nearest float.  And the length of the header has four bytes.

Text is UTF-16 in both halves of the model: a character of a Python string beyond U+FFFF is the
pair of its surrogates.

* `frames_round_trip`: the four pairs of a writer and a reader, and the prefixes.
-/

namespace Interocitor.StoredFrames

open CodeUnits OrderedRecord Decimals JsonText JsonReader List

/-- Bytes. -/
abbrev Bytes := List UInt8

/-! ## Headers -/

/-- A value in a header. -/
inductive HeaderValue where
  | number (n : ℕ)
  | text (t : Text)

/-- `StoredFileHeader`. -/
structure StoredFileHeader where
  size : ℕ
  digest : Text
  contentType : Option Text
  taint : Option Text

/-- `v`. -/
def versionName : Text := [118]

/-- `size`. -/
def sizeName : Text := [115, 105, 122, 101]

/-- `digest`. -/
def digestName : Text := [100, 105, 103, 101, 115, 116]

/-- `contentType`. -/
def contentTypeName : Text := [99, 111, 110, 116, 101, 110, 116, 84, 121, 112, 101]

/-- `taint`. -/
def taintName : Text := [116, 97, 105, 110, 116]

/-- The properties of a header, in the order of its declaration. -/
def StoredFileHeader.members (h : StoredFileHeader) : List (Text × HeaderValue) :=
  [(sizeName, .number h.size), (digestName, .text h.digest)] ++
    (h.contentType.map fun t => (contentTypeName, .text t)).toList ++
    (h.taint.map fun t => (taintName, .text t)).toList

/-- `FRAME_VERSION`. -/
def version : Text × HeaderValue := (versionName, .number 1)

/-- The text of a property, given how strings and numbers are written. -/
def memberText (string : Text → Text) (number : ℕ → Text) (p : Text × HeaderValue) : Text :=
  string p.1 ++ 58 ::
    match p.2 with
    | .number n => number n
    | .text t => string t

/-- The JSON text of an object. -/
def headerText (string : Text → Text) (number : ℕ → Text) (members : List (Text × HeaderValue)) :
    Text :=
  123 :: joined (members.map (memberText string number)) ++ [125]

/-! ## Frames -/

/-- What the decoders throw. -/
inductive FrameError where
  | truncated
  | malformed
  | unknownVersion
  | typeError
  deriving DecidableEq

/-- Four bytes, the most significant first; the length wraps. -/
def lengthBytes (n : ℕ) : Bytes :=
  [UInt8.ofNat (n / 16777216), UInt8.ofNat (n / 65536), UInt8.ofNat (n / 256), UInt8.ofNat n]

/-- The number in four bytes. -/
def readLength (bytes : Bytes) : ℕ := bytes.foldl (fun acc b => acc * 256 + b.toNat) 0

/-- The length of the header, the header and the body. -/
def frame (header body : Bytes) : Bytes := lengthBytes header.length ++ header ++ body

/-- The part of the decoders before the header is read. -/
def splitFrame (frame : Bytes) : Except FrameError (Bytes × Bytes) :=
  if frame.length < 4 then .error .truncated
  else if frame.length < 4 + readLength (frame.take 4) then .error .truncated
  else .ok ((frame.drop 4).take (readLength (frame.take 4)),
    frame.drop (4 + readLength (frame.take 4)))

theorem take_lengthBytes (n : ℕ) (t : Bytes) : (lengthBytes n ++ t).take 4 = lengthBytes n := rfl

theorem drop_lengthBytes (n : ℕ) (t : Bytes) : (lengthBytes n ++ t).drop 4 = t := rfl

variable {n : ℕ}

theorem readLength_lengthBytes (h : n < 2 ^ 32) : readLength (lengthBytes n) = n := by
  simp only [readLength, lengthBytes, foldl_cons, foldl_nil, UInt8.toNat_ofNat']
  omega

/-- **A frame is split where it was joined.** -/
theorem splitFrame_frame {header : Bytes} (h : header.length < 2 ^ 32) (body : Bytes) :
    splitFrame (frame header body) = .ok (header, body) := by
  have hprefix : (frame header body).take 4 = lengthBytes header.length := by
    rw [frame, append_assoc, take_lengthBytes]
  have hdrop : (frame header body).drop 4 = header ++ body := by
    rw [frame, append_assoc, drop_lengthBytes]
  have hlength : (frame header body).length = 4 + header.length + body.length := by
    rw [frame, length_append, length_append]
    rfl
  rw [splitFrame, if_neg (by omega), hprefix, readLength_lengthBytes h, if_neg (by omega),
    ← drop_drop, hdrop, take_left' rfl, drop_left' rfl]

/-- **A prefix that ends in the length or in the header is rejected.** -/
theorem splitFrame_take {header : Bytes} (h : header.length < 2 ^ 32) (body : Bytes) {k : ℕ}
    (hk : k < 4 + header.length) : splitFrame ((frame header body).take k) = .error .truncated := by
  have hlength : ((frame header body).take k).length ≤ k := length_take_le _ _
  rw [splitFrame]
  by_cases h4 : ((frame header body).take k).length < 4
  · rw [if_pos h4]
  · have hprefix : ((frame header body).take k).take 4 = lengthBytes header.length := by
      rw [take_take, min_eq_left (by omega), frame, append_assoc, take_lengthBytes]
    rw [if_neg h4, hprefix, readLength_lengthBytes h, if_pos (by omega)]

/-! ## Reading a header -/

/-- Strings are written between quotation marks, in pieces that stand for their characters. -/
def Quotes (string : Text → Text) : Prop :=
  ∀ t, ∃ p, string t = 34 :: p ++ [34] ∧ Reads p t

/-- What a reader makes of a value in a header. -/
def valueOf {V : Type} (number : ℕ → V) (string : Text → V) : HeaderValue → V
  | .number n => number n
  | .text t => string t

theorem quotes_quote : Quotes quote := fun t => ⟨quoteBody t, rfl, reads_quoteBody t⟩

section Reading

variable {V : Type} {B : Builder V} {number : ℕ → V} {string : Text → Text}
  {digits : ℕ → Text}

/-- Every number among the values is written in digits and taken by the reader. -/
def Exact (B : Builder V) (number : ℕ → V) (digits : ℕ → Text)
    (members : List (Text × HeaderValue)) : Prop :=
  ∀ p ∈ members, ∀ n, p.2 = .number n →
    digits n = numeral 10 n ∧ B.number (.ofInt n) = some (number n)

theorem parses_memberText (hstring : Quotes string) {p : Text × HeaderValue}
    (hp : ∀ n, p.2 = .number n → digits n = numeral 10 n ∧ B.number (.ofInt n) = some (number n))
    (n : ℕ) :
    Parses (readMember (readValue B (n + 1))) (memberText string digits p)
        (p.1, valueOf number B.string p.2) ∧
      Solid (memberText string digits p) := by
  obtain ⟨name, value⟩ := p
  obtain ⟨k, hk, hname⟩ := hstring name
  cases value with
  | number m =>
    have htext : memberText string digits (name, .number m) =
        34 :: k ++ [34] ++ 58 :: numeral 10 m := by
      simp only [memberText, hk, (hp m rfl).1]
    rw [htext]
    exact ⟨parses_member hname (parses_numeral (hp m rfl).2 n), solid_member _ _⟩
  | text t =>
    obtain ⟨p, hp', ht⟩ := hstring t
    have htext : memberText string digits (name, .text t) =
        34 :: k ++ [34] ++ 58 :: (34 :: p ++ [34]) := by
      simp only [memberText, hk, hp']
    rw [htext]
    exact ⟨parses_member hname (parses_string ht n), solid_member _ _⟩

/-- **What a reader makes of a header**, whoever wrote it. -/
theorem read_headerText (hstring : Quotes string) {members : List (Text × HeaderValue)}
    (hexact : Exact B number digits members) :
    read B (headerText string digits members) =
      some (B.object (members.map fun p => (p.1, valueOf number B.string p.2))) := by
  have hpieces : ∀ n, ∀ q ∈ members.map fun p =>
      (memberText string digits p, p.1, valueOf number B.string p.2),
        Parses (readMember (readValue B (n + 1))) q.1 q.2 ∧ Solid q.1 := by
    intro n q hq
    obtain ⟨p, hp, rfl⟩ := mem_map.mp hq
    exact parses_memberText hstring (hexact p hp) n
  have htext : headerText string digits members = 123 :: joined ((members.map fun p =>
      (memberText string digits p, p.1, valueOf number B.string p.2)).map Prod.fst) ++ [125] := by
    rw [headerText, map_map]
    rfl
  have hvalues : (members.map fun p => (memberText string digits p, p.1,
      valueOf number B.string p.2)).map Prod.snd =
        members.map fun p => (p.1, valueOf number B.string p.2) := by
    rw [map_map]
    rfl
  obtain ⟨n, hn⟩ : ∃ n, (headerText string digits members).length + 1 = n + 1 + 1 := by
    refine ⟨(headerText string digits members).length - 1, ?_⟩
    rw [headerText, length_append, length_cons]
    omega
  refine read_of_parses ?_
  rw [hn, htext, ← hvalues]
  exact parses_object (hpieces n)

end Reading

/-! ## TypeScript -/

/-- The text of a number that is not negative: the digits of an integer below `10 ^ 21`, and
`null` if it is infinite. -/
def jsDigits (n : ℕ) : Text :=
  match Number.ofInt n with
  | some x => x.literal.text
  | none => nullText

/-- The properties that `JSON.stringify` writes: those that are not `undefined`. -/
def definedMembers (header : List (Text × Option HeaderValue)) : List (Text × HeaderValue) :=
  header.filterMap fun p => p.2.map fun v => (p.1, v)

/-- `encodeStoredFrame`, of a header as an object. -/
def encodeStoredFrame (header : List (Text × Option HeaderValue)) (body : Bytes) : Bytes :=
  frame (Utf8Text.encode (headerText quote jsDigits (version :: definedMembers header))) body

/-- `parsed.v !== FRAME_VERSION` fails. -/
def isVersion : Option JsValue → Bool
  | some (.number x) => decide (x = .finite 1)
  | _ => false

/-- `decodeStoredFrame`: the properties of the header, and the body. -/
def decodeStoredFrame (frame : Bytes) : Except FrameError (List (Text × JsValue) × Bytes) :=
  match splitFrame frame with
  | .error e => .error e
  | .ok (header, body) =>
    match read jsBuilder (Utf8Text.decode header) with
    | none => .error .malformed
    | some .null => .error .typeError
    | some (.object fields) =>
      if isVersion (find versionName fields) then
        .ok (fields.filter fun p => decide (p.1 ≠ versionName), body)
      else .error .unknownVersion
    -- a string, a number or an array has no `v`
    | some _ => .error .unknownVersion

/-! ## Python -/

namespace Python

/-- What `json.loads` returns. -/
inductive PyValue where
  | none
  | bool (b : Bool)
  | int (i : ℤ)
  | float (x : JsNumber)
  | str (t : Text)
  | list (items : List PyValue)
  | dict (members : List (Text × PyValue))

/-- The digits that `int` converts between text and numbers, at most. -/
def maxDigits : ℕ := 4300

/-- A number of JSON text: an `int` without fraction and exponent, a `float` with one. -/
def pyNumber (l : Literal) : Option PyValue :=
  match l.integer with
  | some i => if (numeral 10 i.natAbs).length ≤ maxDigits then some (.int i) else Option.none
  | Option.none => some (.float (Wire.jsNumber l))

/-- `json.loads`. -/
def pyBuilder : Builder PyValue where
  null := .none
  bool := .bool
  number := pyNumber
  string := .str
  array := .list
  object members := .dict ((∅ : Record Text PyValue).setAll members).entries
  words := [([78, 97, 78], .float .nan), ([73, 110, 102, 105, 110, 105, 116, 121], .float .posInf),
    ([45, 73, 110, 102, 105, 110, 105, 116, 121], .float .negInf)]

/-- A character in a string that `json.dumps` writes: ASCII only. -/
def asciiEscape (u : CodeUnit) : Text := if u.val < 127 then escapeUnit u else unicodeEscape u

/-- A string that `json.dumps` writes. -/
def asciiQuote (t : Text) : Text := 34 :: t.flatMap asciiEscape ++ [34]

/-- What the encoder raises. -/
inductive EncodeError where
  | valueError
  | overflowError
  deriving DecidableEq

/-- `encode_stored_frame`. -/
def encodeStoredFrame (header : StoredFileHeader) (body : Bytes) : Except EncodeError Bytes :=
  -- an `int` with more digits is not written
  if maxDigits < (numeral 10 header.size).length then .error .valueError
  else
    let headerBytes := Utf8Text.encode (headerText asciiQuote (numeral 10)
      (version :: header.members))
    if 2 ^ 32 ≤ headerBytes.length then .error .overflowError
    else .ok (frame headerBytes body)

/-- `StoredFileHeader` as it is read: nothing is checked. -/
structure ReadHeader where
  size : ℤ
  digest : Text
  content_type : PyValue
  taint : PyValue

/-- The built-in conversions, where the values are not the expected ones. -/
structure Conversions where
  /-- `int` of a string. -/
  intOfText : Text → Option ℤ
  /-- `str` of anything but a string. -/
  display : PyValue → Text

/-- `int`. -/
def toInt (conv : Conversions) : PyValue → Option ℤ
  | .int i => some i
  | .bool b => some (if b then 1 else 0)
  | .float (.finite q) => some (if 0 ≤ q then ⌊q⌋ else ⌈q⌉)
  | .float .negZero => some 0
  | .str t => conv.intOfText t
  | _ => Option.none

/-- `str`. -/
def toStr (conv : Conversions) : PyValue → Text
  | .str t => t
  | v => conv.display v

/-- `== 1`. -/
def isOne : PyValue → Bool
  | .int i => decide (i = 1)
  | .float x => decide (x = .finite 1)
  | .bool b => b
  | _ => false

/-- The header that the properties make. -/
def readHeader (conv : Conversions) (members : List (Text × PyValue)) : Option ReadHeader :=
  match (find sizeName members).bind (toInt conv), find digestName members with
  | some size, some digest =>
    some ⟨size, toStr conv digest, (find contentTypeName members).getD .none,
      (find taintName members).getD .none⟩
  | _, _ => Option.none

/-- `decode_stored_frame`. -/
def decodeStoredFrame (conv : Conversions) (frame : Bytes) :
    Except FrameError (ReadHeader × Bytes) :=
  match splitFrame frame with
  | .error e => .error e
  | .ok (header, body) =>
    match (Utf8Text.decodeStrict header).bind (read pyBuilder) with
    | Option.none => .error .malformed
    | some (.dict members) =>
      if isOne ((find versionName members).getD .none) then
        match readHeader conv members with
        | some header => .ok (header, body)
        | Option.none => .error .typeError
      else .error .unknownVersion
    | some _ => .error .typeError

end Python

/-! ## What each of them makes of the other's texts -/

theorem reads_asciiEscape (u : CodeUnit) : Reads (Python.asciiEscape u) [u] := by
  rw [Python.asciiEscape]
  split_ifs
  · exact reads_escapeUnit u
  · exact reads_unicodeEscape u

theorem quotes_asciiQuote : Quotes Python.asciiQuote :=
  fun t => ⟨t.flatMap Python.asciiEscape, rfl, reads_flatMap reads_asciiEscape t⟩

theorem text_ofInt (n : ℕ) : (Literal.ofInt n).text = numeral 10 n := by
  have hsign : decide ((n : ℤ) < 0) = false := decide_eq_false (by omega)
  simp only [Literal.text, Literal.ofInt, hsign, Int.natAbs_natCast, Literal.fractionText,
    Literal.exponentText, append_nil, nil_append, Bool.false_eq_true, if_false]

theorem jsDigits_eq (h : n < 2 ^ 53) : jsDigits n = numeral 10 n := by
  have hliteral : (Number.ofInt n).map Number.literal = some (.ofInt n) :=
    Number.literal_ofInt (by rw [Nat.abs_cast]; exact_mod_cast h)
  obtain ⟨x, hx, hlit⟩ := Option.map_eq_some_iff.mp hliteral
  rw [jsDigits, hx]
  dsimp only
  rw [hlit, text_ofInt]

theorem jsNumber_ofNat (h : n < 2 ^ 53) : Wire.jsNumber (.ofInt n) = .finite n := by
  have hdouble : (Literal.ofInt (n : ℤ)).double = .finite ((n : ℤ) : ℚ) :=
    Literal.double_ofInt (by rw [Nat.abs_cast]; exact_mod_cast h)
  have hpositive : ¬ (n : ℤ) < 0 := by omega
  have hsign : (Literal.ofInt (n : ℤ)).negative = false := decide_eq_false hpositive
  rw [Wire.jsNumber, hdouble]
  dsimp only
  rw [hsign, if_neg fun hneg => Bool.false_ne_true hneg.1, Int.cast_natCast]

theorem length_numeral (h : n < 2 ^ 53) : (numeral 10 n).length ≤ Python.maxDigits := by
  have hlt : n < 10 ^ 16 := lt_trans h (by norm_num)
  have hlength : (digitsFront 10 n).length ≤ 16 :=
    (length_digitsFront_le_iff (by norm_num) (by norm_num)).mpr hlt
  rw [numeral, length_map, Python.maxDigits]
  omega

theorem pyNumber_ofNat (h : n < 2 ^ 53) : Python.pyNumber (.ofInt n) = some (.int n) := by
  rw [Python.pyNumber, Literal.integer_ofInt]
  dsimp only
  rw [Int.natAbs_natCast, if_pos (length_numeral h)]

/-- The names of a header are distinct, and none of them is `v`. -/
theorem nodup_members (h : StoredFileHeader) : ((version :: h.members).map Prod.fst).Nodup := by
  obtain ⟨size, digest, contentType, taint⟩ := h
  cases contentType <;> cases taint <;>
    simp [StoredFileHeader.members, version, versionName, sizeName, digestName, contentTypeName,
      taintName]

/-- A header object whose defined properties are those of `h`, in any order.  A property `v` of its
own, even an undefined one, would take the place of the version. -/
structure Describes (header : List (Text × Option HeaderValue)) (h : StoredFileHeader) : Prop where
  nodup : (versionName :: header.map Prod.fst).Nodup
  members : (definedMembers header).Perm h.members

section Members

variable {h : StoredFileHeader} {members : List (Text × HeaderValue)}

theorem nodup_of_perm (hperm : members.Perm h.members) :
    ((version :: members).map Prod.fst).Nodup :=
  (((hperm.cons version).map Prod.fst).nodup_iff).mpr (nodup_members h)

theorem lt_of_number (hsize : h.size < 2 ^ 53) (hperm : members.Perm h.members)
    {p : Text × HeaderValue} (hp : p ∈ version :: members) (hn : p.2 = .number n) : n < 2 ^ 53 := by
  rcases mem_cons.mp hp with rfl | hp
  · obtain rfl := HeaderValue.number.inj hn
    norm_num
  · have hmem := hperm.mem_iff.mp hp
    simp only [StoredFileHeader.members, mem_append, mem_cons, not_mem_nil,
      or_false, Option.mem_toList, Option.map_eq_some_iff] at hmem
    rcases hmem with ((rfl | rfl) | ⟨t, -, rfl⟩) | ⟨t, -, rfl⟩
    · obtain rfl := HeaderValue.number.inj hn
      exact hsize
    · exact absurd hn (by simp)
    · exact absurd hn (by simp)
    · exact absurd hn (by simp)

theorem exact_js {digits : ℕ → Text}
    (hdigits : ∀ p ∈ version :: members, ∀ n, p.2 = .number n → digits n = numeral 10 n) :
    Exact jsBuilder (fun n => .number (Wire.jsNumber (.ofInt n))) digits (version :: members) :=
  fun p hp n hn => ⟨hdigits p hp n hn, rfl⟩

theorem exact_py {digits : ℕ → Text} (hdigits : ∀ n < 2 ^ 53, digits n = numeral 10 n)
    (hsize : h.size < 2 ^ 53) (hperm : members.Perm h.members) :
    Exact Python.pyBuilder (fun n => .int n) digits (version :: members) := by
  intro p hp n hn
  have hlt := lt_of_number hsize hperm hp hn
  exact ⟨hdigits n hlt, pyNumber_ofNat hlt⟩

end Members

theorem isWellFormed_headerText {string : Text → Text} {digits : ℕ → Text}
    {members : List (Text × HeaderValue)} (hstring : ∀ t, isWellFormed (string t) = true)
    (hdigits : ∀ p ∈ members, ∀ n, p.2 = .number n → digits n = numeral 10 n) :
    isWellFormed (headerText string digits members) = true := by
  refine Utf8Text.isWellFormed_append (Utf8Text.isWellFormed_cons (by decide)
    (Utf8Text.isWellFormed_joined ?_)) (by decide)
  intro t ht
  obtain ⟨⟨name, value⟩, hp, rfl⟩ := mem_map.mp ht
  refine Utf8Text.isWellFormed_append (hstring name) (Utf8Text.isWellFormed_cons (by decide) ?_)
  cases value with
  | number n =>
    dsimp only
    rw [hdigits _ hp n rfl]
    exact Utf8Text.isWellFormed_numeral (by norm_num) (by norm_num) n
  | text t => exact hstring t

theorem isWellFormed_asciiQuote (t : Text) : isWellFormed (Python.asciiQuote t) = true := by
  refine isWellFormed_of_plain fun v hv => ?_
  rw [Python.asciiQuote, mem_append, mem_cons, mem_flatMap, mem_singleton] at hv
  rcases hv with (rfl | ⟨u, -, hu⟩) | rfl
  · decide
  · rw [Python.asciiEscape] at hu
    split_ifs at hu with hascii
    · exact isSurrogate_of_mem_escapeUnit (isSurrogate_of_lt (by omega)) hu
    · exact isSurrogate_of_mem_unicodeEscape hu
  · decide

/-! ## Round trips -/

/-- The properties of a header as JavaScript values. -/
def jsMembers (h : StoredFileHeader) : List (Text × JsValue) :=
  h.members.map fun p => (p.1, valueOf (fun n => .number (.finite n)) .string p.2)

/-- The header as Python reads it. -/
def pyHeader (h : StoredFileHeader) : Python.ReadHeader :=
  ⟨h.size, h.digest, (h.contentType.map .str).getD .none, (h.taint.map .str).getD .none⟩

/-- The four pairs of a writer and a reader, and the prefixes of what either of them wrote.  The
properties that TypeScript reads are those of the header, in some order. -/
structure Agrees (conv : Python.Conversions) (h : StoredFileHeader)
    (header : List (Text × Option HeaderValue)) (body : Bytes) : Prop where
  tsTs : ∃ fields, decodeStoredFrame (encodeStoredFrame header body) = .ok (fields, body) ∧
    fields.Perm (jsMembers h)
  tsPy : Python.decodeStoredFrame conv (encodeStoredFrame header body) = .ok (pyHeader h, body)
  pyTs : ∃ frame, Python.encodeStoredFrame h body = .ok frame ∧
    ∃ fields, decodeStoredFrame frame = .ok (fields, body) ∧ fields.Perm (jsMembers h)
  pyPy : ∃ frame, Python.encodeStoredFrame h body = .ok frame ∧
    Python.decodeStoredFrame conv frame = .ok (pyHeader h, body)
  prefixes : ∀ frame, frame = encodeStoredFrame header body ∨
      Python.encodeStoredFrame h body = .ok frame →
    ∀ k, k < 4 + readLength (frame.take 4) →
      (∃ e, decodeStoredFrame (frame.take k) = .error e) ∧
        ∃ e, Python.decodeStoredFrame conv (frame.take k) = .error e

section RoundTrips

variable {h : StoredFileHeader} {members : List (Text × HeaderValue)} {string : Text → Text}
  {digits : ℕ → Text}

/-- A property as TypeScript reads it: a number is the nearest float. -/
def jsProperty (p : Text × HeaderValue) : Text × JsValue :=
  (p.1, valueOf (fun n => .number (Wire.jsNumber (.ofInt n))) .string p.2)

/-- **TypeScript reads the properties that were written**, by whomever. -/
theorem decodeStoredFrame_frame (hperm : members.Perm h.members) (hquotes : Quotes string)
    (hstring : ∀ t, isWellFormed (string t) = true)
    (hdigits : ∀ p ∈ version :: members, ∀ n, p.2 = .number n → digits n = numeral 10 n)
    (body : Bytes)
    (hlength : (Utf8Text.encode (headerText string digits (version :: members))).length < 2 ^ 32) :
    decodeStoredFrame
        (frame (Utf8Text.encode (headerText string digits (version :: members))) body) =
      .ok (members.map jsProperty, body) := by
  have hformed := isWellFormed_headerText hstring hdigits
  have hread := read_headerText hquotes (exact_js hdigits)
  have hkeys : (((version :: members).map jsProperty).map Prod.fst).Nodup := by
    rw [map_map]
    exact nodup_of_perm hperm
  have hobject : read jsBuilder (headerText string digits (version :: members)) =
      some (.object ((version :: members).map jsProperty)) := by
    rw [hread]
    exact congrArg (fun l => some (JsValue.object l)) (entries_setAll_empty hkeys)
  have hdecode : Utf8Text.decode (Utf8Text.encode (headerText string digits
      (version :: members))) = headerText string digits (version :: members) :=
    Utf8Text.decode_encode (u := 123) (by decide) hformed
  have hother : ∀ p ∈ members, p.1 ≠ versionName := by
    have hnodup := nodup_of_perm hperm
    rw [map_cons, nodup_cons] at hnodup
    exact fun p hp heq => hnodup.1 (mem_map.mpr ⟨p, hp, heq⟩)
  have hfilter : ((version :: members).map jsProperty).filter
      (fun p => decide (p.1 ≠ versionName)) = members.map jsProperty := by
    rw [map_cons, filter_cons_of_neg (by simp [version, jsProperty]), filter_eq_self]
    intro q hq
    obtain ⟨p, hp, rfl⟩ := mem_map.mp hq
    exact decide_eq_true (hother p hp)
  have hversion : isVersion (find versionName ((version :: members).map jsProperty)) = true := by
    have hself : find versionName ((version :: members).map jsProperty) =
        some (.number (Wire.jsNumber (.ofInt (1 : ℕ)))) := if_pos rfl
    rw [hself, jsNumber_ofNat (by norm_num), isVersion, Nat.cast_one]
    exact decide_eq_true rfl
  rw [decodeStoredFrame, splitFrame_frame hlength]
  dsimp only
  rw [hdecode, hobject]
  dsimp only
  rw [hversion, if_pos rfl, hfilter]

theorem map_jsProperty (hsize : h.size < 2 ^ 53) (hperm : members.Perm h.members) :
    (members.map jsProperty).Perm (jsMembers h) := by
  have heq : members.map jsProperty =
      members.map fun p => (p.1, valueOf (fun n => .number (.finite n)) .string p.2) := by
    refine map_congr_left fun p hp => ?_
    obtain ⟨name, value⟩ := p
    cases value with
    | number n =>
      have hlt := lt_of_number hsize hperm (mem_cons_of_mem version hp) rfl
      rw [jsProperty, valueOf, jsNumber_ofNat hlt, valueOf]
    | text t => rfl
  rw [heq]
  exact hperm.map _

/-- **Python reads the header that was written**, by whomever. -/
theorem python_decodeStoredFrame_frame (conv : Python.Conversions) (hsize : h.size < 2 ^ 53)
    (hperm : members.Perm h.members) (hquotes : Quotes string)
    (hstring : ∀ t, isWellFormed (string t) = true)
    (hdigits : ∀ n < 2 ^ 53, digits n = numeral 10 n) (body : Bytes)
    (hlength : (Utf8Text.encode (headerText string digits (version :: members))).length < 2 ^ 32) :
    Python.decodeStoredFrame conv
        (frame (Utf8Text.encode (headerText string digits (version :: members))) body) =
      .ok (pyHeader h, body) := by
  have hexact := exact_py hdigits hsize hperm
  have hformed := isWellFormed_headerText hstring fun p hp n hn => (hexact p hp n hn).1
  have hread := read_headerText hquotes hexact
  have hkeys : (((version :: members).map fun p => (p.1, valueOf (fun n => Python.PyValue.int n)
      Python.PyValue.str p.2)).map Prod.fst).Nodup := by
    rw [map_map]
    exact nodup_of_perm hperm
  have hobject : read Python.pyBuilder (headerText string digits (version :: members)) =
      some (.dict ((version :: members).map fun p =>
        (p.1, valueOf (fun n => .int n) .str p.2))) := by
    rw [hread]
    exact congrArg (fun l => some (Python.PyValue.dict l)) (entries_setAll_empty hkeys)
  -- a lookup by name does not see the order
  have hfind : ∀ k, find k ((version :: members).map fun p =>
      (p.1, valueOf (fun n => Python.PyValue.int n) Python.PyValue.str p.2)) =
        find k ((version :: h.members).map fun p =>
          (p.1, valueOf (fun n => .int n) .str p.2)) :=
    fun k => find_perm hkeys ((hperm.cons version).map _) k
  have hone : Python.isOne ((find versionName ((version :: members).map fun p =>
      (p.1, valueOf (fun n => Python.PyValue.int n) Python.PyValue.str p.2))).getD .none) =
        true := by
    have hself : find versionName ((version :: members).map fun p =>
        (p.1, valueOf (fun n => Python.PyValue.int n) Python.PyValue.str p.2)) =
          some (.int (1 : ℕ)) := if_pos rfl
    rw [hself]
    rfl
  have hheader : Python.readHeader conv ((version :: members).map fun p =>
      (p.1, valueOf (fun n => .int n) .str p.2)) = some (pyHeader h) := by
    rw [Python.readHeader, hfind, hfind, hfind, hfind]
    obtain ⟨size, digest, contentType, taint⟩ := h
    cases contentType <;> cases taint <;> rfl
  rw [Python.decodeStoredFrame, splitFrame_frame hlength]
  dsimp only
  rw [Utf8Text.decodeStrict_encode hformed, Option.bind_some, hobject]
  dsimp only
  rw [hone, if_pos rfl, hheader]

theorem rejected_of_truncated (conv : Python.Conversions) {bytes : Bytes}
    (htruncated : splitFrame bytes = .error .truncated) :
    (∃ e, decodeStoredFrame bytes = .error e) ∧
      ∃ e, Python.decodeStoredFrame conv bytes = .error e := by
  refine ⟨⟨.truncated, ?_⟩, .truncated, ?_⟩
  · rw [decodeStoredFrame, htruncated]
  · rw [Python.decodeStoredFrame, htruncated]

/-- **Stored file frames round-trip.**  For every header with a size below `2 ^ 53`, every body, and
both headers of less than `2 ^ 32` bytes: each of the readers makes the header and the body of what
each of the writers wrote, and rejects every prefix that ends in the length or in the header. -/
theorem frames_round_trip (conv : Python.Conversions) {header : List (Text × Option HeaderValue)}
    (hdescribes : Describes header h) (body : Bytes) (hsize : h.size < 2 ^ 53)
    (hts : (Utf8Text.encode (headerText quote jsDigits
      (version :: definedMembers header))).length < 2 ^ 32)
    (hpy : (Utf8Text.encode (headerText Python.asciiQuote (numeral 10)
      (version :: h.members))).length < 2 ^ 32) :
    Agrees conv h header body := by
  have hpyFrame : Python.encodeStoredFrame h body = .ok (frame (Utf8Text.encode
      (headerText Python.asciiQuote (numeral 10) (version :: h.members))) body) := by
    rw [Python.encodeStoredFrame, if_neg (not_lt.mpr (length_numeral hsize))]
    dsimp only
    rw [if_neg (not_le.mpr hpy)]
  have hjs : ∀ n < 2 ^ 53, jsDigits n = numeral 10 n := fun _ => jsDigits_eq
  have hquote : ∀ t, isWellFormed (quote t) = true := Utf8Text.isWellFormed_quote
  have hcut : ∀ {headerBytes : Bytes}, headerBytes.length < 2 ^ 32 → ∀ k,
      k < 4 + readLength ((frame headerBytes body).take 4) →
        splitFrame ((frame headerBytes body).take k) = .error .truncated := by
    intro headerBytes hlength k hk
    rw [frame, append_assoc, take_lengthBytes, readLength_lengthBytes hlength] at hk
    exact splitFrame_take hlength body hk
  exact
    { tsTs := ⟨_, decodeStoredFrame_frame hdescribes.members quotes_quote hquote
        (fun p hp n hn => jsDigits_eq (lt_of_number hsize hdescribes.members hp hn)) body hts,
        map_jsProperty hsize hdescribes.members⟩
      tsPy := python_decodeStoredFrame_frame conv hsize hdescribes.members quotes_quote hquote hjs
        body hts
      pyTs := ⟨_, hpyFrame, _, decodeStoredFrame_frame (List.Perm.refl _) quotes_asciiQuote
        isWellFormed_asciiQuote (fun _ _ _ _ => rfl) body hpy,
        map_jsProperty hsize (List.Perm.refl _)⟩
      pyPy := ⟨_, hpyFrame, python_decodeStoredFrame_frame conv hsize (List.Perm.refl _)
        quotes_asciiQuote isWellFormed_asciiQuote (fun _ _ => rfl) body hpy⟩
      prefixes := by
        rintro bytes (rfl | hbytes) k hk
        · exact rejected_of_truncated conv (hcut hts k hk)
        · obtain rfl := Except.ok.inj (hpyFrame.symm.trans hbytes)
          exact rejected_of_truncated conv (hcut hpy k hk) }

end RoundTrips

/-! ### An empty file, and a size beyond the floats -/

/-- An empty file with a content type and an empty taint. -/
def emptyFile : StoredFileHeader := ⟨0, [97], some [233, 0xD83D, 0xDE00, 34], some []⟩

/-- The conversions of a Python that takes no text for a number. -/
def strict : Python.Conversions := ⟨fun _ => none, fun _ => []⟩

/-- A header as an object, its properties in the order of the declaration. -/
def ordered (h : StoredFileHeader) : List (Text × Option HeaderValue) :=
  h.members.map fun p => (p.1, some p.2)

theorem describes_ordered (h : StoredFileHeader) : Describes (ordered h) h := by
  have hmembers : definedMembers (ordered h) = h.members := by
    rw [definedMembers, ordered, filterMap_map]
    exact filterMap_some
  refine ⟨?_, hmembers ▸ List.Perm.refl _⟩
  rw [ordered, map_map]
  exact nodup_members h

theorem length_emptyFile : (Utf8Text.encode (headerText quote jsDigits
    (version :: definedMembers (ordered emptyFile)))).length < 2 ^ 32 := by
  decide +kernel

theorem frames_round_trip_emptyFile : Agrees strict emptyFile (ordered emptyFile) [1, 2] :=
  frames_round_trip strict (describes_ordered emptyFile) [1, 2] (by decide) length_emptyFile
    (by decide)

/-- A file of one byte more than the floats go without gaps. -/
def largeFile : StoredFileHeader := ⟨2 ^ 53 + 1, [97], none, none⟩

theorem jsNumber_large : Wire.jsNumber (.ofInt (2 ^ 53 + 1 : ℕ)) = .finite (2 ^ 53) := by
  decide +kernel

/-- Python writes the size, and TypeScript reads another one. -/
theorem not_frames_round_trip : ¬∀ (conv : Python.Conversions) (h : StoredFileHeader)
    (header : List (Text × Option HeaderValue)) (body : Bytes), Describes header h →
      Agrees conv h header body := by
  intro hall
  obtain ⟨bytes, hencode, fields, hdecode, hperm⟩ :=
    (hall strict largeFile (ordered largeFile) [] (describes_ordered largeFile)).pyTs
  have hlength : (Utf8Text.encode (headerText Python.asciiQuote (numeral 10)
      (version :: largeFile.members))).length < 2 ^ 32 := by decide
  have hframe : Python.encodeStoredFrame largeFile [] = .ok (frame (Utf8Text.encode
      (headerText Python.asciiQuote (numeral 10) (version :: largeFile.members))) []) := by
    rw [Python.encodeStoredFrame, if_neg (by decide)]
    dsimp only
    rw [if_neg (not_le.mpr hlength)]
  obtain rfl := Except.ok.inj (hframe.symm.trans hencode)
  rw [decodeStoredFrame_frame (h := largeFile) (List.Perm.refl _) quotes_asciiQuote
    isWellFormed_asciiQuote (fun _ _ _ _ => rfl) [] hlength, Except.ok.injEq, Prod.mk.injEq]
    at hdecode
  have hsize : (sizeName, JsValue.number (.finite (2 ^ 53 + 1 : ℕ))) ∈ jsMembers largeFile :=
    mem_cons_self
  rw [← hperm.mem_iff, ← hdecode.1, mem_map] at hsize
  obtain ⟨⟨name, value⟩, hmem, heq⟩ := hsize
  have hmembers : largeFile.members =
      [(sizeName, .number (2 ^ 53 + 1)), (digestName, .text [97])] := rfl
  rw [hmembers, mem_cons, mem_singleton] at hmem
  rcases hmem with hfirst | hsecond
  · rw [hfirst, jsProperty, valueOf, jsNumber_large, Prod.mk.injEq, JsValue.number.injEq,
      JsNumber.finite.injEq] at heq
    have hvalue := heq.2
    norm_num at hvalue
  · rw [hsecond, jsProperty, Prod.mk.injEq] at heq
    exact absurd heq.1 (by decide)

end Interocitor.StoredFrames
