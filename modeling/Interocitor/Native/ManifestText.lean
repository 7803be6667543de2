import Interocitor.Foundation.Decimals
import Interocitor.Foundation.JsonText
import Interocitor.Core.Crdt
import Interocitor.Native.Hlc

/-!
# The text a manifest's hash is taken of

A manifest carries the SHA-256 of its own JSON text without the hash.  Core takes the text with
`JSON.stringify`; the Swift and the Python engine read the file into typed fields and build the
text again, Swift by hand and Python through a dictionary in core's order of members.

A file is an object whose numbers are literals.  Core prints its numbers as JavaScript does,
Swift decodes them as 64-bit integers, Python wants integer literals; Swift strings are
well-formed Unicode.  In the other direction core reads the integers the two wrote as
JavaScript numbers and prints those.

* `CorePayload`: what `createBootstrapManifest` and `compact` put into a manifest.
* `Python.fromWire`, `Swift.decode`: reading a file; `Python.payloadWire`, `Swift.manifestJSON`:
  building the text.
* `Python.recomputes_iff`, `Swift.recomputes_iff`: exactly which files of core the two verify.
* `validateManifestHash`: core on a file of theirs.
-/

namespace Interocitor.ManifestText

open CodeUnits HybridClock Decimals JsonText List Option

/-! ## Files -/

/-- The member names of a manifest, its server record and its retention policy. -/
inductive Key where
  | generation
  | parentGeneration
  | writtenBy
  | writtenAt
  | contentHash
  | version
  | meshId
  | schema
  | encrypted
  | server
  | createdAt
  | epoch
  | watermarkHlc
  | snapshotPath
  | deltaPath
  | retention
  | lineage
  | managed
  | relayUrl
  | serverId
  | compactAfterMs
  | maxOfflineDurationMs
  deriving DecidableEq

/-- A text of ASCII characters. -/
def ascii (chars : List Char) : Text := chars.map fun c => Fin.ofNat 65536 c.toNat

/-- The name as it stands in the file. -/
def Key.name : Key → Text
  | generation => ascii ['g', 'e', 'n', 'e', 'r', 'a', 't', 'i', 'o', 'n']
  | parentGeneration =>
    ascii ['p', 'a', 'r', 'e', 'n', 't', 'G', 'e', 'n', 'e', 'r', 'a', 't', 'i', 'o', 'n']
  | writtenBy => ascii ['w', 'r', 'i', 't', 't', 'e', 'n', 'B', 'y']
  | writtenAt => ascii ['w', 'r', 'i', 't', 't', 'e', 'n', 'A', 't']
  | contentHash => ascii ['c', 'o', 'n', 't', 'e', 'n', 't', 'H', 'a', 's', 'h']
  | version => ascii ['v', 'e', 'r', 's', 'i', 'o', 'n']
  | meshId => ascii ['m', 'e', 's', 'h', 'I', 'd']
  | schema => ascii ['s', 'c', 'h', 'e', 'm', 'a']
  | encrypted => ascii ['e', 'n', 'c', 'r', 'y', 'p', 't', 'e', 'd']
  | server => ascii ['s', 'e', 'r', 'v', 'e', 'r']
  | createdAt => ascii ['c', 'r', 'e', 'a', 't', 'e', 'd', 'A', 't']
  | epoch => ascii ['e', 'p', 'o', 'c', 'h']
  | watermarkHlc => ascii ['w', 'a', 't', 'e', 'r', 'm', 'a', 'r', 'k', 'H', 'l', 'c']
  | snapshotPath => ascii ['s', 'n', 'a', 'p', 's', 'h', 'o', 't', 'P', 'a', 't', 'h']
  | deltaPath => ascii ['d', 'e', 'l', 't', 'a', 'P', 'a', 't', 'h']
  | retention => ascii ['r', 'e', 't', 'e', 'n', 't', 'i', 'o', 'n']
  | lineage => ascii ['l', 'i', 'n', 'e', 'a', 'g', 'e']
  | managed => ascii ['m', 'a', 'n', 'a', 'g', 'e', 'd']
  | relayUrl => ascii ['r', 'e', 'l', 'a', 'y', 'U', 'r', 'l']
  | serverId => ascii ['s', 'e', 'r', 'v', 'e', 'r', 'I', 'd']
  | compactAfterMs => ascii ['c', 'o', 'm', 'p', 'a', 'c', 't', 'A', 'f', 't', 'e', 'r', 'M', 's']
  | maxOfflineDurationMs =>
    ascii ['m', 'a', 'x', 'O', 'f', 'f', 'l', 'i', 'n', 'e', 'D', 'u', 'r', 'a', 't', 'i', 'o', 'n',
      'M', 's']

/-- A JSON value of a manifest file. -/
abbrev Value := Json Key Literal

/-- The members of an object, in their order. -/
abbrev Members := List (Key × Value)

/-- A string, or `null`. -/
def optionalString : Option Text → Value
  | some t => .string t
  | none => .null

/-- `"sha256:"` and the digest in hexadecimal digits. -/
def contentHashOf (digest : Text → List (Fin 256)) (text : Text) : Text :=
  ascii ['s', 'h', 'a', '2', '5', '6', ':'] ++
    (digest text).flatMap fun b => padStart 2 (digitUnit 0) (numeral 16 b.val)

/-- `ServerConfig`, as the manifests of all three engines have it. -/
structure ServerConfig where
  managed : Bool
  relayUrl : Option Text
  serverId : Text

/-- The server record in a file. -/
def ServerConfig.members (s : ServerConfig) : Members :=
  [(.managed, .bool s.managed), (.relayUrl, optionalString s.relayUrl),
    (.serverId, .string s.serverId)]

/-- The retention policy of a native engine in a file: left out if there is none. -/
def retentionMember : Option (ℤ × ℤ) → Members
  | some (compactAfterMs, maxOfflineDurationMs) =>
    [(.retention, .object [(.compactAfterMs, .number (.ofInt compactAfterMs)),
      (.maxOfflineDurationMs, .number (.ofInt maxOfflineDurationMs))])]
  | none => []

/-- The lineage of a native engine in a file: left out if there is none. -/
def lineageMember : Option ℤ → Members
  | some lineage => [(.lineage, .number (.ofInt lineage))]
  | none => []

theorem contentHash_notMem_retentionMember {r : Option (ℤ × ℤ)} :
    ∀ x ∈ retentionMember r, x.1 ≠ .contentHash := by
  cases r <;> simp [retentionMember]

theorem contentHash_notMem_lineageMember {l : Option ℤ} :
    ∀ x ∈ lineageMember l, x.1 ≠ .contentHash := by
  cases l <;> simp [lineageMember]

/-! ## Core: writing -/

/-- The payload that `createBootstrapManifest` and `compact` hash.  The retention durations and
the lineage are positive finite numbers; the watermark is empty or a serialized clock; the
version is three and the delta path is `null`. -/
structure CorePayload where
  generation : Number
  parentGeneration : Number
  writtenBy : Text
  writtenAt : Text
  meshId : Text
  schema : Number
  encrypted : Bool
  server : ServerConfig
  createdAt : Text
  epoch : Number
  watermark : Option (Stamp Text)
  snapshotPath : Option Text
  compactAfterMs : Decimal
  maxOfflineDurationMs : Decimal
  lineage : Decimal

namespace CorePayload

/-- `watermarkHlc`. -/
def watermarkHlc (p : CorePayload) : Text := p.watermark.elim [] stampText

/-- The payload as an object. -/
def members (p : CorePayload) : Members :=
  [(.generation, .number p.generation.literal),
    (.parentGeneration, .number p.parentGeneration.literal),
    (.writtenBy, .string p.writtenBy),
    (.writtenAt, .string p.writtenAt),
    (.version, .number (.ofInt 3)),
    (.meshId, .string p.meshId),
    (.schema, .number p.schema.literal),
    (.encrypted, .bool p.encrypted),
    (.server, .object p.server.members),
    (.createdAt, .string p.createdAt),
    (.epoch, .number p.epoch.literal),
    (.watermarkHlc, .string p.watermarkHlc),
    (.snapshotPath, optionalString p.snapshotPath),
    (.deltaPath, .null),
    (.retention, .object
      [(.compactAfterMs, .number (p.compactAfterMs.literal false)),
        (.maxOfflineDurationMs, .number (p.maxOfflineDurationMs.literal false))]),
    (.lineage, .number (p.lineage.literal false))]

/-- The numbers of a payload. -/
def numbers (p : CorePayload) : List Number :=
  [.finite false p.lineage, .finite false p.compactAfterMs, .finite false p.maxOfflineDurationMs,
    p.generation, p.parentGeneration, p.schema, p.epoch]

/-- The strings of a payload. -/
def strings (p : CorePayload) : List Text :=
  [p.writtenBy, p.writtenAt, p.meshId, p.server.serverId, p.createdAt, p.watermarkHlc] ++
    p.server.relayUrl.toList ++ p.snapshotPath.toList

end CorePayload

/-- `JSON.stringify`. -/
def jsonStringify (v : Value) : Text := v.render quote Literal.text Key.name

/-- The file core writes: the payload and, last, its hash. -/
def CorePayload.file (digest : Text → List (Fin 256)) (p : CorePayload) : Members :=
  p.members ++ [(.contentHash, .string (contentHashOf digest (jsonStringify (.object p.members))))]

theorem plain_text : Json.PlainNumbers Literal.text := by
  intro l u hu
  simp only [Literal.text, mem_append] at hu
  rcases hu with ((hu | hu) | hu) | hu
  · split_ifs at hu
    · rw [mem_singleton] at hu
      rw [hu]
      decide
    · exact absurd hu not_mem_nil
  · exact isSurrogate_of_mem_numeral (by norm_num) (by norm_num) hu
  · rcases hf : l.fraction with _ | ⟨digits, width⟩ <;> rw [hf] at hu
    · exact absurd hu not_mem_nil
    · rcases mem_cons.mp hu with rfl | hu
      · decide
      · exact isSurrogate_of_mem_padStart (by norm_num) (by norm_num) hu
  · rcases hx : l.exponent with _ | x <;> rw [hx] at hu
    · exact absurd hu not_mem_nil
    · rcases mem_cons.mp hu with rfl | hu
      · decide
      rcases mem_cons.mp hu with rfl | hu
      · split_ifs <;> decide
      · exact isSurrogate_of_mem_numeral (by norm_num) (by norm_num) hu

/-- A literal that is an integer in digits. -/
def IsInteger (l : Literal) : Prop := ∃ i : ℤ, l = .ofInt i

/-! ## Core: validating a file of another engine -/

/-- A number that core has read, as it prints it: the nearest JavaScript number, `null` if that
is infinite.  How a literal that is no integer is read and printed is left open. -/
def reprinted (readDecimal : Literal → Option Literal) (l : Literal) : Text :=
  match (match l.integer with
    | some i => (Number.ofInt i).map Number.literal
    | none => readDecimal l) with
  | some printed => printed.text
  | none => nullText

/-- `validateManifestHash`, of the parsed file. -/
def validateManifestHash (readDecimal : Literal → Option Literal)
    (digest : Text → List (Fin 256)) (file : Members) : Bool :=
  let payload : Value := .object (file.filter fun m => decide (m.1 ≠ .contentHash))
  match Json.get file .contentHash with
  | some (.string stored) =>
    decide (stored = contentHashOf digest (payload.render quote (reprinted readDecimal) Key.name))
  | _ => false

/-- An integer that JavaScript reads and prints as it was written. -/
def Unchanged (i : ℤ) : Prop := (Number.ofInt i).map Number.literal = some (.ofInt i)

/-- Every integer below `2 ^ 53` in magnitude is such an integer. -/
theorem unchanged_of_lt {i : ℤ} (h : |i| < 2 ^ 53) : Unchanged i := Number.literal_ofInt h

/-- A literal that core reads and prints as it was written. -/
def Stable (l : Literal) : Prop := ∃ i : ℤ, l = .ofInt i ∧ Unchanged i

theorem reprinted_of_stable (readDecimal : Literal → Option Literal) {l : Literal} (h : Stable l) :
    reprinted readDecimal l = l.text := by
  obtain ⟨i, rfl, hi⟩ := h
  simp only [reprinted, Literal.integer_ofInt]
  rw [hi]

/-- **Core on a foreign file.**  A file whose numbers are stable and whose last member is the
hash of the text of the others is valid. -/
theorem validateManifestHash_of_stable (readDecimal : Literal → Option Literal)
    (digest : Text → List (Fin 256)) {payload : Members}
    (hkeys : ∀ m ∈ payload, m.1 ≠ .contentHash)
    (hstable : (Json.object payload : Value).Numbers Stable) :
    validateManifestHash readDecimal digest (payload ++ [(.contentHash,
      .string (contentHashOf digest (jsonStringify (.object payload))))]) = true := by
  have hnone : (payload.find? fun m => decide (m.1 = .contentHash)) = none := by
    rw [List.find?_eq_none]
    intro m hm
    rw [decide_eq_true_eq]
    exact hkeys m hm
  have hget : Json.get (payload ++ [(.contentHash,
      .string (contentHashOf digest (jsonStringify (.object payload))))]) .contentHash =
      some (.string (contentHashOf digest (jsonStringify (.object payload)))) := by
    rw [Json.get, List.find?_append, hnone]
    rfl
  have hfilter : (payload.filter fun m => decide (m.1 ≠ .contentHash)) = payload := by
    rw [filter_eq_self]
    intro m hm
    rw [decide_eq_true_eq]
    exact hkeys m hm
  have hrender : (Json.object payload : Value).render quote (reprinted readDecimal) Key.name =
      jsonStringify (.object payload) :=
    Json.render_congr _ _ (fun _ => reprinted_of_stable readDecimal) _ hstable
  unfold validateManifestHash
  rw [hget, filter_append, hfilter]
  simp only [ne_eq, decide_not, filter_cons, filter_nil, decide_true, Bool.not_true,
    Bool.false_eq_true, if_false, append_nil, hrender]

/-! ## Python -/

namespace Python

/-- `_mapping`. -/
def mapping (value : Option Value) (description : String) : Except String Members :=
  match value with
  | some (.object members) => .ok members
  | _ => .error (description ++ " must be an object")

/-- `_string`. -/
def string (value : Option Value) (description : String) : Except String Text :=
  match value with
  | some (.string t) => .ok t
  | _ => .error (description ++ " must be a string")

/-- `_integer`: `json.loads` makes an `int` of an integer literal and a `float` of any other. -/
def integer (value : Option Value) (description : String) : Except String ℤ :=
  match value with
  | some (.number l) =>
    match l.integer with
    | some i => .ok i
    | none => .error (description ++ " must be an integer")
  | _ => .error (description ++ " must be an integer")

/-- `_integer`, then the test for a positive value. -/
def positive (value : Option Value) (description refusal : String) : Except String ℤ := do
  let i ← integer value description
  if i ≤ 0 then .error refusal else .ok i

/-- `Manifest` of `types.py`. -/
structure Manifest where
  generation : ℤ
  parentGeneration : ℤ
  writtenBy : Text
  writtenAt : Text
  contentHash : Text
  version : ℤ
  meshId : Text
  schema : ℤ
  encrypted : Bool
  server : Members
  createdAt : Text
  epoch : ℤ
  watermarkHlc : Text
  snapshotPath : Option Text
  deltaPath : Option Text
  retention : Option (ℤ × ℤ)
  lineage : Option ℤ

/-- `Manifest.payload_wire`. -/
def Manifest.payloadWire (m : Manifest) : Members :=
  [(.generation, .number (.ofInt m.generation)),
    (.parentGeneration, .number (.ofInt m.parentGeneration)),
    (.writtenBy, .string m.writtenBy),
    (.writtenAt, .string m.writtenAt),
    (.version, .number (.ofInt m.version)),
    (.meshId, .string m.meshId),
    (.schema, .number (.ofInt m.schema)),
    (.encrypted, .bool m.encrypted),
    (.server, .object m.server),
    (.createdAt, .string m.createdAt),
    (.epoch, .number (.ofInt m.epoch)),
    (.watermarkHlc, .string m.watermarkHlc),
    (.snapshotPath, optionalString m.snapshotPath),
    (.deltaPath, optionalString m.deltaPath)] ++
  retentionMember m.retention ++ lineageMember m.lineage

/-- `Manifest.to_wire`. -/
def Manifest.toWire (m : Manifest) : Members :=
  m.payloadWire ++ [(.contentHash, .string m.contentHash)]

/-- A number as `json.dumps` prints it: an `int` in digits, a `float` by its `repr`. -/
def dumped (floatRepr : Literal → Literal) (l : Literal) : Text :=
  match l.integer with
  | some i => (Literal.ofInt i).text
  | none => (floatRepr l).text

/-- `json_stringify`: `json.dumps`, then `_well_formed_json_text` over the whole text. -/
def jsonStringify (floatRepr : Literal → Literal) (v : Value) : Text :=
  escapeSurrogates (v.render plainQuote (dumped floatRepr) Key.name)

/-- `_content_hash(manifest.payload_wire())`. -/
def Manifest.expectedHash (floatRepr : Literal → Literal) (digest : Text → List (Fin 256))
    (m : Manifest) : Text :=
  contentHashOf digest (jsonStringify floatRepr (.object m.payloadWire))

/-- What the paths of a file become: a value that is no string is `None`. -/
def pathOf : Option Value → Option Text
  | some (.string t) => some t
  | _ => none

/-- The lineage of a file: an absent or `null` one is `None`. -/
def lineageOf : Option Value → Except String (Option ℤ)
  | none => .ok none
  | some .null => .ok none
  | some v => do
    let i ← positive (some v) "Manifest lineage" "Manifest lineage must be a positive integer"
    .ok (some i)

/-- The retention policy of a file: what is no object is `None`. -/
def retentionOf : Option Value → Except String (Option (ℤ × ℤ))
  | some (.object members) => do
    let compactAfterMs ← integer (Json.get members .compactAfterMs)
      "Manifest retention compactAfterMs"
    let maxOfflineDurationMs ← integer (Json.get members .maxOfflineDurationMs)
      "Manifest retention maxOfflineDurationMs"
    if compactAfterMs ≤ 0 ∨ maxOfflineDurationMs ≤ 0 then
      .error "Manifest retention durations must be positive"
    else .ok (some (compactAfterMs, maxOfflineDurationMs))
  | _ => .ok none

/-- `Manifest.from_wire`. -/
def Manifest.fromWire (value : Value) : Except String Manifest := do
  let record ← mapping (some value) "Manifest"
  let encrypted ← match Json.get record .encrypted with
    | some (.bool b) => .ok b
    | _ => .error "Manifest encrypted must be a boolean"
  let server ← mapping (Json.get record .server) "Manifest server"
  let lineage ← lineageOf (Json.get record .lineage)
  let retention ← retentionOf (Json.get record .retention)
  let generation ← integer (Json.get record .generation) "Manifest generation"
  let parentGeneration ← integer (Json.get record .parentGeneration) "Manifest parentGeneration"
  let writtenBy ← string (Json.get record .writtenBy) "Manifest writtenBy"
  let writtenAt ← string (Json.get record .writtenAt) "Manifest writtenAt"
  let contentHash ← string (Json.get record .contentHash) "Manifest contentHash"
  let version ← integer (Json.get record .version) "Manifest version"
  let meshId ← string (Json.get record .meshId) "Manifest meshId"
  let schema ← integer (Json.get record .schema) "Manifest schema"
  let createdAt ← string (Json.get record .createdAt) "Manifest createdAt"
  let epoch ← integer (Json.get record .epoch) "Manifest epoch"
  let watermarkHlc ← string (Json.get record .watermarkHlc) "Manifest watermarkHlc"
  .ok { generation, parentGeneration, writtenBy, writtenAt, contentHash, version, meshId, schema,
        encrypted, server, createdAt, epoch, watermarkHlc,
        snapshotPath := pathOf (Json.get record .snapshotPath),
        deltaPath := pathOf (Json.get record .deltaPath), retention, lineage }

/-- `_validate_manifest_hlcs`. -/
def validateManifestHlcs (m : Manifest) : Except String Unit :=
  if m.watermarkHlc = [] then .ok ()
  else match Native.Python.hlcParse m.watermarkHlc with
    | some _ => .ok ()
    | none => .error "Invalid HLC"

/-- The part of `_load_or_create_manifest` that reads and verifies the file. -/
def load (floatRepr : Literal → Literal) (digest : Text → List (Fin 256)) (file : Members) :
    Except String Manifest := do
  let manifest ← Manifest.fromWire (.object file)
  validateManifestHlcs manifest
  if manifest.contentHash = manifest.expectedHash floatRepr digest then .ok manifest
  else .error "Manifest content hash mismatch"

/-! ### Files of core -/

section CoreFiles

variable (digest : Text → List (Fin 256)) (p : CorePayload)

/-- The record read from a file of core, given what its numbers are read as. -/
def recordOf (lineage compactAfterMs maxOfflineDurationMs generation parentGeneration schema
    epoch : ℤ) : Manifest where
  generation := generation
  parentGeneration := parentGeneration
  writtenBy := p.writtenBy
  writtenAt := p.writtenAt
  contentHash := contentHashOf digest (ManifestText.jsonStringify (.object p.members))
  version := 3
  meshId := p.meshId
  schema := schema
  encrypted := p.encrypted
  server := p.server.members
  createdAt := p.createdAt
  epoch := epoch
  watermarkHlc := p.watermarkHlc
  snapshotPath := p.snapshotPath
  deltaPath := none
  retention := some (compactAfterMs, maxOfflineDurationMs)
  lineage := some lineage

theorem pathOf_optionalString (t : Option Text) : pathOf (some (optionalString t)) = t := by
  cases t <;> rfl

theorem integer_number {l : Literal} {i : ℤ} (h : l.integer = some i) (description : String) :
    integer (some (.number l)) description = .ok i := by
  simp only [integer, h]

variable {p}

theorem pos_of_integer {d : Decimal} {i : ℤ} (h : (d.literal false).integer = some i) : 0 < i := by
  have hvalue := ((d.integer_literal_iff false i).mp h).1
  have hone : ((sign false : ℤ) : ℚ) = 1 := by rw [sign]; norm_num
  rw [hone, one_mul] at hvalue
  have hpos := d.value_pos
  rw [hvalue] at hpos
  exact_mod_cast hpos

/-- A file of core whose numbers are integer literals is read. -/
theorem fromWire_file {l c o g pg s e : ℤ} (hl : (p.lineage.literal false).integer = some l)
    (hc : (p.compactAfterMs.literal false).integer = some c)
    (ho : (p.maxOfflineDurationMs.literal false).integer = some o)
    (hg : p.generation.literal.integer = some g)
    (hpg : p.parentGeneration.literal.integer = some pg)
    (hs : p.schema.literal.integer = some s) (he : p.epoch.literal.integer = some e) :
    Manifest.fromWire (.object (p.file digest)) = .ok (recordOf digest p l c o g pg s e) := by
  have hlineage : lineageOf (Json.get (p.file digest) .lineage) = .ok (some l) := by
    show (positive (some (.number (p.lineage.literal false))) _ _ >>= fun i => .ok (some i)) = _
    rw [positive, integer_number hl]
    simp only [bind, Except.bind, if_neg (not_le.mpr (pos_of_integer hl))]
  have hretention : retentionOf (Json.get (p.file digest) .retention) = .ok (some (c, o)) := by
    have hpos : ¬ (c ≤ 0 ∨ o ≤ 0) := by
      have hc := pos_of_integer hc
      have ho := pos_of_integer ho
      omega
    show (integer (some (.number (p.compactAfterMs.literal false))) _ >>= fun c =>
      integer (some (.number (p.maxOfflineDurationMs.literal false))) _ >>= fun o => _) = _
    rw [integer_number hc, integer_number ho]
    simp only [bind, Except.bind, if_neg hpos]
  have hencrypted : Json.get (p.file digest) .encrypted = some (.bool p.encrypted) := rfl
  have hserver : Json.get (p.file digest) .server = some (.object p.server.members) := rfl
  have hgeneration : integer (Json.get (p.file digest) .generation) "Manifest generation" = .ok g :=
    integer_number hg _
  have hparent : integer (Json.get (p.file digest) .parentGeneration) "Manifest parentGeneration" =
      .ok pg := integer_number hpg _
  have hversion : integer (Json.get (p.file digest) .version) "Manifest version" = .ok 3 :=
    integer_number (Literal.integer_ofInt 3) _
  have hschema : integer (Json.get (p.file digest) .schema) "Manifest schema" = .ok s :=
    integer_number hs _
  have hepoch : integer (Json.get (p.file digest) .epoch) "Manifest epoch" = .ok e :=
    integer_number he _
  have hpath : pathOf (Json.get (p.file digest) .snapshotPath) = p.snapshotPath :=
    pathOf_optionalString p.snapshotPath
  unfold Manifest.fromWire
  simp only [mapping, bind, Except.bind, hencrypted, hserver, hlineage, hretention, hgeneration,
    hparent, hversion, hschema, hepoch, hpath]
  rfl

theorem of_bind_ok {α β : Type} {x : Except String α} {f : α → Except String β} {b : β}
    (h : (x >>= f) = .ok b) : ∃ a, x = .ok a ∧ f a = .ok b := by
  cases x with
  | error err => exact absurd h (by simp [bind, Except.bind])
  | ok a => exact ⟨a, rfl, h⟩

theorem of_integer_number {l : Literal} {description : String} {i : ℤ}
    (h : integer (some (.number l)) description = .ok i) : l.integer = some i := by
  simp only [integer] at h
  rcases hl : l.integer with _ | j
  · rw [hl] at h
    exact absurd h (by simp)
  · rw [hl] at h
    exact congrArg some (Except.ok.inj h)

theorem integers_of_fromWire {m : Manifest}
    (h : Manifest.fromWire (.object (p.file digest)) = .ok m) :
    ∀ x ∈ p.numbers, ∃ i, x.literal.integer = some i := by
  unfold Manifest.fromWire at h
  obtain ⟨record, hrecord, h⟩ := of_bind_ok h
  obtain rfl : p.file digest = record := Except.ok.inj hrecord
  obtain ⟨encrypted, -, h⟩ := of_bind_ok h
  obtain ⟨server, -, h⟩ := of_bind_ok h
  obtain ⟨lineage, hlineage, h⟩ := of_bind_ok h
  obtain ⟨l, hlineage, -⟩ := of_bind_ok hlineage
  obtain ⟨l, hl, -⟩ := of_bind_ok hlineage
  obtain ⟨retention, hretention, h⟩ := of_bind_ok h
  obtain ⟨c, hc, hretention⟩ := of_bind_ok hretention
  obtain ⟨o, ho, -⟩ := of_bind_ok hretention
  obtain ⟨g, hg, h⟩ := of_bind_ok h
  obtain ⟨pg, hpg, h⟩ := of_bind_ok h
  obtain ⟨writtenBy, -, h⟩ := of_bind_ok h
  obtain ⟨writtenAt, -, h⟩ := of_bind_ok h
  obtain ⟨contentHash, -, h⟩ := of_bind_ok h
  obtain ⟨version, -, h⟩ := of_bind_ok h
  obtain ⟨meshId, -, h⟩ := of_bind_ok h
  obtain ⟨s, hs, h⟩ := of_bind_ok h
  obtain ⟨createdAt, -, h⟩ := of_bind_ok h
  obtain ⟨e, he, -⟩ := of_bind_ok h
  simp only [CorePayload.numbers, forall_mem_cons]
  exact ⟨⟨l, of_integer_number hl⟩, ⟨c, of_integer_number hc⟩, ⟨o, of_integer_number ho⟩,
    ⟨g, of_integer_number hg⟩, ⟨pg, of_integer_number hpg⟩, ⟨s, of_integer_number hs⟩,
    ⟨e, of_integer_number he⟩, fun _ hx => absurd hx not_mem_nil⟩

theorem payloadWire_recordOf {l c o g pg s e : ℤ}
    (hl : (p.lineage.literal false).integer = some l)
    (hc : (p.compactAfterMs.literal false).integer = some c)
    (ho : (p.maxOfflineDurationMs.literal false).integer = some o)
    (hg : p.generation.literal.integer = some g)
    (hpg : p.parentGeneration.literal.integer = some pg)
    (hs : p.schema.literal.integer = some s) (he : p.epoch.literal.integer = some e) :
    (recordOf digest p l c o g pg s e).payloadWire = p.members := by
  have hl : p.lineage.literal false = .ofInt l :=
    Number.literal_of_integer (x := .finite false p.lineage) hl
  have hc : p.compactAfterMs.literal false = .ofInt c :=
    Number.literal_of_integer (x := .finite false p.compactAfterMs) hc
  have ho : p.maxOfflineDurationMs.literal false = .ofInt o :=
    Number.literal_of_integer (x := .finite false p.maxOfflineDurationMs) ho
  rw [CorePayload.members, hl, hc, ho, Number.literal_of_integer hg,
    Number.literal_of_integer hpg, Number.literal_of_integer hs, Number.literal_of_integer he]
  rfl

end CoreFiles

theorem jsonStringify_of_integers (floatRepr : Literal → Literal) {P : Literal → Prop}
    (hP : ∀ l, P l → IsInteger l) {v : Value} (h : v.Numbers P) :
    jsonStringify floatRepr v = ManifestText.jsonStringify v := by
  have hplain : Json.PlainNumbers (dumped floatRepr) := by
    intro l u hu
    unfold dumped at hu
    split at hu <;> exact plain_text _ u hu
  rw [jsonStringify, Json.escapeSurrogates_render Key.name hplain]
  refine Json.render_congr _ _ ?_ v h
  intro l hl
  obtain ⟨i, rfl⟩ := hP l hl
  rw [dumped, Literal.integer_ofInt]

theorem numbers_members {p : CorePayload}
    (h : ∀ x ∈ p.numbers, ∃ i, x.literal.integer = some i) :
    (Json.object p.members : Value).Numbers IsInteger := by
  have hint : ∀ x ∈ p.numbers, IsInteger x.literal := fun x hx =>
    (h x hx).imp fun _ => Number.literal_of_integer
  have hstring : ∀ t, (optionalString t).Numbers IsInteger := by
    intro t
    cases t <;> simp only [optionalString, Json.Numbers]
  simp only [CorePayload.numbers, forall_mem_cons] at hint
  obtain ⟨hl, hc, ho, hg, hpg, hs, he, -⟩ := hint
  simp only [CorePayload.members, ServerConfig.members, Json.Numbers, Json.MemberNumbers, hstring,
    hg, hpg, hs, he, and_true, true_and]
  exact ⟨⟨3, rfl⟩, ⟨hc, ho⟩, hl⟩

/-- What core's clock may hold for Python to read it. -/
def ReadableWatermark (p : CorePayload) : Prop := ∀ s ∈ p.watermark, Native.Python.Readable s

theorem validateManifestHlcs_iff {p : CorePayload} {m : Manifest}
    (h : m.watermarkHlc = p.watermarkHlc) :
    validateManifestHlcs m = .ok () ↔ ReadableWatermark p := by
  classical
  rw [validateManifestHlcs, h, CorePayload.watermarkHlc, ReadableWatermark]
  cases p.watermark with
  | none => simp
  | some s =>
    rw [elim_some, if_neg (stampText_ne_nil s), Native.Python.hlcParse_stampText]
    by_cases hs : Native.Python.Readable s
    · simp [hs]
    · simp [hs]

/-- **Python on the files of core.**  A file is loaded --- read, its watermark recognised and its
hash recomputed to the stored one --- exactly when all its numbers are whole and below `10 ^ 21`
and the watermark is one Python reads. -/
theorem load_iff (floatRepr : Literal → Literal) (digest : Text → List (Fin 256))
    (p : CorePayload) :
    (∃ m, load floatRepr digest (p.file digest) = .ok m) ↔
      (∀ x ∈ p.numbers, ∃ i : ℤ, x.value = i ∧ |i| < 10 ^ 21) ∧ ReadableWatermark p := by
  have hwhole : (∀ x ∈ p.numbers, ∃ i : ℤ, x.value = i ∧ |i| < 10 ^ 21) ↔
      ∀ x ∈ p.numbers, ∃ i, x.literal.integer = some i := by
    simp only [Number.integer_literal_iff]
  rw [hwhole]
  -- either way the file is read into the record of its integers
  have hread : (∀ x ∈ p.numbers, ∃ i, x.literal.integer = some i) →
      ∃ m, Manifest.fromWire (.object (p.file digest)) = .ok m ∧
        m.watermarkHlc = p.watermarkHlc ∧ m.contentHash = m.expectedHash floatRepr digest := by
    intro hint
    have hnumbers := numbers_members hint
    simp only [CorePayload.numbers, forall_mem_cons] at hint
    obtain ⟨⟨l, hl⟩, ⟨c, hc⟩, ⟨o, ho⟩, ⟨g, hg⟩, ⟨pg, hpg⟩, ⟨s, hs⟩, ⟨e, he⟩, -⟩ := hint
    refine ⟨_, fromWire_file digest hl hc ho hg hpg hs he, rfl, ?_⟩
    rw [Manifest.expectedHash, payloadWire_recordOf digest hl hc ho hg hpg hs he,
      jsonStringify_of_integers floatRepr (fun _ hl => hl) hnumbers]
    rfl
  constructor
  · rintro ⟨m, hm⟩
    obtain ⟨m', hfrom, hrest⟩ := of_bind_ok hm
    obtain ⟨u, hhlcs, -⟩ := of_bind_ok hrest
    have hint := integers_of_fromWire digest hfrom
    obtain ⟨m'', hfrom', hmark, -⟩ := hread hint
    obtain rfl : m'' = m' := Except.ok.inj (hfrom'.symm.trans hfrom)
    exact ⟨hint, (validateManifestHlcs_iff hmark).mp hhlcs⟩
  · rintro ⟨hint, hclock⟩
    obtain ⟨m, hfrom, hmark, hhash⟩ := hread hint
    refine ⟨m, ?_⟩
    rw [load, hfrom]
    show (validateManifestHlcs m >>= fun _ => _) = _
    rw [(validateManifestHlcs_iff hmark).mpr hclock]
    exact if_pos hhash

/-- A manifest with its hash, as `_create_manifest` and `compact` write it. -/
def Manifest.signed (floatRepr : Literal → Literal) (digest : Text → List (Fin 256))
    (m : Manifest) : Manifest :=
  { m with contentHash := m.expectedHash floatRepr digest }

theorem contentHash_notMem_payloadWire (m : Manifest) :
    ∀ x ∈ m.payloadWire, x.1 ≠ .contentHash := by
  intro x hx
  simp only [Manifest.payloadWire, mem_append] at hx
  rcases hx with (hx | hx) | hx
  · revert x
    simp
  · exact contentHash_notMem_retentionMember x hx
  · exact contentHash_notMem_lineageMember x hx

/-- **Core on the files of Python.**  A file whose numbers are integers that JavaScript prints as
written has the hash core computes. -/
theorem validate_signed (floatRepr : Literal → Literal) (readDecimal : Literal → Option Literal)
    (digest : Text → List (Fin 256)) {m : Manifest}
    (h : (Json.object m.payloadWire : Value).Numbers Stable) :
    validateManifestHash readDecimal digest (m.signed floatRepr digest).toWire = true := by
  have hinteger : ∀ l, Stable l → IsInteger l := fun l hl => hl.imp fun _ hi => hi.1
  have htext := jsonStringify_of_integers floatRepr hinteger h
  have hvalid := validateManifestHash_of_stable readDecimal digest
    (contentHash_notMem_payloadWire m) h
  rw [← htext] at hvalid
  exact hvalid

end Python

/-! ## Swift -/

namespace Swift

/-- A Swift `String`: Unicode scalar values, so no surrogate stands alone. -/
abbrev Str := { t : Text // isWellFormed t = true }

/-- A Swift `Int`. -/
abbrev Int64 := { i : ℤ // -2 ^ 63 ≤ i ∧ i < 2 ^ 63 }

/-- `ServerConfig` of `Types.swift`. -/
structure ServerConfig where
  managed : Bool
  relayUrl : Option Str
  serverId : Str

/-- `Manifest` of `Types.swift`. -/
structure Manifest where
  generation : Int64
  parentGeneration : Int64
  writtenBy : Str
  writtenAt : Str
  contentHash : Str
  version : Int64
  meshId : Str
  schema : Int64
  encrypted : Bool
  server : ServerConfig
  createdAt : Str
  epoch : Int64
  watermarkHlc : Str
  snapshotPath : Option Str
  deltaPath : Option Str
  retention : Option (Int64 × Int64)
  lineage : Option Int64

/-! ### Building the text -/

/-- `jsonString`: a string by the encoder, slashes not escaped. -/
def jsonString (value : Text) : Text := plainQuote value

/-- `jsonOptionalString`. -/
def jsonOptionalString : Option Str → Text
  | some value => jsonString value.val
  | none => nullText

/-- The digits of an `Int`. -/
def intText (i : Int64) : Text := (Literal.ofInt i.val).text

/-- A member of an object, and an object. -/
def memberText (key : Key) (value : Text) : Text := jsonString key.name ++ 58 :: value

@[inherit_doc memberText]
def objectText (fields : List Text) : Text := 123 :: joined fields ++ [125]

/-- `manifestValue`: the text of one member, if there is one. -/
def manifestValue (m : Manifest) (includeContentHash : Bool) : Key → Option Text
  | .generation => some (intText m.generation)
  | .parentGeneration => some (intText m.parentGeneration)
  | .writtenBy => some (jsonString m.writtenBy.val)
  | .writtenAt => some (jsonString m.writtenAt.val)
  | .contentHash => if includeContentHash then some (jsonString m.contentHash.val) else none
  | .version => some (intText m.version)
  | .meshId => some (jsonString m.meshId.val)
  | .schema => some (intText m.schema)
  | .encrypted => some (boolText m.encrypted)
  | .server =>
    some (objectText [memberText .managed (boolText m.server.managed),
      memberText .relayUrl (jsonOptionalString m.server.relayUrl),
      memberText .serverId (jsonString m.server.serverId.val)])
  | .createdAt => some (jsonString m.createdAt.val)
  | .epoch => some (intText m.epoch)
  | .watermarkHlc => some (jsonString m.watermarkHlc.val)
  | .snapshotPath => some (jsonOptionalString m.snapshotPath)
  | .deltaPath => some (jsonOptionalString m.deltaPath)
  | .retention => m.retention.map fun r =>
      objectText [memberText .compactAfterMs (intText r.1),
        memberText .maxOfflineDurationMs (intText r.2)]
  | .lineage => m.lineage.map intText
  | _ => none

/-- `manifestJSON`. -/
def manifestJSON (m : Manifest) (order : List Key) (includeContentHash : Bool) : Text :=
  objectText (order.filterMap fun key =>
    (manifestValue m includeContentHash key).map (memberText key))

/-- `coreManifestKeyOrder`. -/
def coreManifestKeyOrder : List Key :=
  [.generation, .parentGeneration, .writtenBy, .writtenAt, .version, .meshId, .schema, .encrypted,
    .server, .createdAt, .epoch, .watermarkHlc, .snapshotPath, .deltaPath, .retention, .lineage,
    .contentHash]

/-- `ManifestCodingKey.allCases`. -/
def allCases : List Key :=
  [.generation, .parentGeneration, .writtenBy, .writtenAt, .contentHash, .version, .meshId,
    .schema, .encrypted, .server, .createdAt, .epoch, .watermarkHlc, .snapshotPath, .deltaPath,
    .retention, .lineage]

/-- `sortedManifestKeyOrder`: all members by name, the order of earlier Swift engines. -/
def sortedManifestKeyOrder : List Key :=
  allCases.mergeSort fun a b => !decide (b.name < a.name)

/-- `manifestHash`. -/
def manifestHash (digest : Text → List (Fin 256)) (m : Manifest) (order : List Key) : Text :=
  contentHashOf digest (manifestJSON m order false)

/-- The hash guard of `validateManifest`. -/
def acceptsHash (digest : Text → List (Fin 256)) (m : Manifest) : Bool :=
  [manifestHash digest m coreManifestKeyOrder, manifestHash digest m sortedManifestKeyOrder].contains
    m.contentHash.val

/-! ### Reading a file -/

/-- An `Int` from a number: the value must be a whole one in range, however it is written. -/
def decodeInt : Option Value → Option Int64
  | some (.number l) =>
    if h : l.value.den = 1 ∧ -2 ^ 63 ≤ l.value.num ∧ l.value.num < 2 ^ 63 then
      some ⟨l.value.num, h.2⟩
    else none
  | _ => none

/-- A `String`, a `Bool`. -/
def decodeString : Option Value → Option Str
  | some (.string t) => if h : isWellFormed t = true then some ⟨t, h⟩ else none
  | _ => none

@[inherit_doc decodeString]
def decodeBool : Option Value → Option Bool
  | some (.bool b) => some b
  | _ => none

/-- An optional property: absent and `null` are `nil`, anything else must decode. -/
def decodeIfPresent {α : Type} (decode : Option Value → Option α) :
    Option Value → Option (Option α)
  | none => some none
  | some .null => some none
  | some v => (decode (some v)).map some

/-- `ServerConfig`, decoded. -/
def decodeServer : Option Value → Option ServerConfig
  | some (.object members) => do
    let managed ← decodeBool (Json.get members .managed)
    let relayUrl ← decodeIfPresent decodeString (Json.get members .relayUrl)
    let serverId ← decodeString (Json.get members .serverId)
    some { managed, relayUrl, serverId }
  | _ => none

/-- `RetentionPolicy`, decoded. -/
def decodeRetention : Option Value → Option (Int64 × Int64)
  | some (.object members) => do
    let compactAfterMs ← decodeInt (Json.get members .compactAfterMs)
    let maxOfflineDurationMs ← decodeInt (Json.get members .maxOfflineDurationMs)
    some (compactAfterMs, maxOfflineDurationMs)
  | _ => none

/-- `Manifest`, decoded. -/
def decode (file : Members) : Option Manifest := do
  let generation ← decodeInt (Json.get file .generation)
  let parentGeneration ← decodeInt (Json.get file .parentGeneration)
  let writtenBy ← decodeString (Json.get file .writtenBy)
  let writtenAt ← decodeString (Json.get file .writtenAt)
  let contentHash ← decodeString (Json.get file .contentHash)
  let version ← decodeInt (Json.get file .version)
  let meshId ← decodeString (Json.get file .meshId)
  let schema ← decodeInt (Json.get file .schema)
  let encrypted ← decodeBool (Json.get file .encrypted)
  let server ← decodeServer (Json.get file .server)
  let createdAt ← decodeString (Json.get file .createdAt)
  let epoch ← decodeInt (Json.get file .epoch)
  let watermarkHlc ← decodeString (Json.get file .watermarkHlc)
  let snapshotPath ← decodeIfPresent decodeString (Json.get file .snapshotPath)
  let deltaPath ← decodeIfPresent decodeString (Json.get file .deltaPath)
  let retention ← decodeIfPresent decodeRetention (Json.get file .retention)
  let lineage ← decodeIfPresent decodeInt (Json.get file .lineage)
  some { generation, parentGeneration, writtenBy, writtenAt, contentHash, version, meshId, schema,
         encrypted, server, createdAt, epoch, watermarkHlc, snapshotPath, deltaPath, retention,
         lineage }

/-! ### The text is core's -/

/-- The members of a Swift manifest without its hash, in core's order. -/
def Manifest.members (m : Manifest) : Members :=
  [(.generation, .number (.ofInt m.generation.val)),
    (.parentGeneration, .number (.ofInt m.parentGeneration.val)),
    (.writtenBy, .string m.writtenBy.val),
    (.writtenAt, .string m.writtenAt.val),
    (.version, .number (.ofInt m.version.val)),
    (.meshId, .string m.meshId.val),
    (.schema, .number (.ofInt m.schema.val)),
    (.encrypted, .bool m.encrypted),
    (.server, .object [(.managed, .bool m.server.managed),
      (.relayUrl, optionalString (m.server.relayUrl.map Subtype.val)),
      (.serverId, .string m.server.serverId.val)]),
    (.createdAt, .string m.createdAt.val),
    (.epoch, .number (.ofInt m.epoch.val)),
    (.watermarkHlc, .string m.watermarkHlc.val),
    (.snapshotPath, optionalString (m.snapshotPath.map Subtype.val)),
    (.deltaPath, optionalString (m.deltaPath.map Subtype.val))] ++
  retentionMember (m.retention.map fun r => (r.1.val, r.2.val)) ++
  lineageMember (m.lineage.map Subtype.val)

/-- The file of a Swift manifest: its members and, last, its hash. -/
def Manifest.file (m : Manifest) : Members :=
  m.members ++ [(.contentHash, .string m.contentHash.val)]

theorem isWellFormed_name (k : Key) : isWellFormed k.name = true := by
  cases k <;> decide

theorem jsonString_val (s : Str) : jsonString s.val = quote s.val :=
  (quote_eq_plainQuote s.property).symm

theorem memberText_eq (key : Key) (value : Text) :
    memberText key value = quote key.name ++ 58 :: value := by
  rw [memberText, jsonString, quote_eq_plainQuote (isWellFormed_name key)]

theorem jsonOptionalString_eq (s : Option Str) :
    jsonOptionalString s =
      (optionalString (s.map Subtype.val)).render quote Literal.text Key.name := by
  cases s with
  | none =>
    rw [map_none, optionalString, Json.render]
    rfl
  | some s =>
    rw [map_some, optionalString, Json.render, jsonOptionalString, jsonString_val]

theorem filterMap_members (m : Manifest) (includeContentHash : Bool) :
    (coreManifestKeyOrder.filterMap fun key =>
      (manifestValue m includeContentHash key).map (memberText key)) =
      Json.renderMembers quote Literal.text Key.name
        (m.members ++ if includeContentHash then [(.contentHash, .string m.contentHash.val)]
          else []) := by
  rcases hr : m.retention with _ | ⟨c, o⟩ <;> rcases hl : m.lineage with _ | l <;>
    cases includeContentHash <;>
    simp only [coreManifestKeyOrder, filterMap_cons, filterMap_nil, manifestValue,
      map_some, map_none, hr, hl, memberText_eq, jsonString_val,
      jsonOptionalString_eq, Manifest.members, retentionMember, lineageMember, cons_append,
      nil_append, Json.renderMembers, Json.render, if_true, if_false, intText, objectText,
      Bool.false_eq_true, append_nil]

theorem manifestJSON_payload (m : Manifest) :
    manifestJSON m coreManifestKeyOrder false = jsonStringify (.object m.members) := by
  rw [manifestJSON, filterMap_members, jsonStringify, Json.render, if_neg Bool.false_ne_true,
    append_nil, objectText]

theorem manifestJSON_file (m : Manifest) :
    manifestJSON m coreManifestKeyOrder true = jsonStringify (.object m.file) := by
  rw [manifestJSON, filterMap_members, jsonStringify, Json.render, if_pos rfl, objectText]
  rfl

/-! ### Files of core -/

variable {i : Int64}

theorem decodeInt_literal {l : Literal} :
    decodeInt (some (.number l)) = some i ↔ l.value = i.val := by
  simp only [decodeInt]
  constructor
  · intro h
    split_ifs at h with hfits
    obtain rfl := some.inj h
    exact (Rat.coe_int_num_of_den_eq_one hfits.1).symm
  · intro h
    have hfits : l.value.den = 1 ∧ -2 ^ 63 ≤ l.value.num ∧ l.value.num < 2 ^ 63 := by
      rw [h]
      exact ⟨Rat.den_intCast _, by rw [Rat.num_intCast]; exact i.property⟩
    rw [dif_pos hfits]
    congr 1
    ext
    show l.value.num = i.val
    rw [h, Rat.num_intCast]

theorem decodeInt_number {x : Number} :
    decodeInt (some (.number x.literal)) = some i ↔ x.value = i.val := by
  rw [decodeInt_literal, Number.value_literal]

theorem decodeInt_version {v : Int64} :
    decodeInt (some (.number (.ofInt 3))) = some v ↔ v.val = 3 := by
  rw [decodeInt_literal, Literal.value_ofInt, Int.cast_inj]
  exact eq_comm

theorem decodeString_string {t : Text} {s : Str} :
    decodeString (some (.string t)) = some s ↔ t = s.val := by
  simp only [decodeString]
  constructor
  · intro h
    split_ifs at h with ht
    obtain rfl := some.inj h
    rfl
  · rintro rfl
    rw [dif_pos s.property]

theorem decodeString_optional {t : Option Text} {s : Option Str} :
    decodeIfPresent decodeString (some (optionalString t)) = some s ↔ t = s.map Subtype.val := by
  cases t with
  | none =>
    show some none = some s ↔ _
    cases s <;> simp
  | some t =>
    show (decodeString (some (.string t))).map some = some s ↔ _
    rw [map_eq_some_iff]
    constructor
    · rintro ⟨a, ha, rfl⟩
      rw [map_some, decodeString_string.mp ha]
    · cases s with
      | none => intro h; exact absurd h (by simp)
      | some s =>
        intro h
        exact ⟨s, decodeString_string.mpr (some.inj h), rfl⟩

theorem literal_of_value {x : Number} (h : x.value = i.val) : x.literal = .ofInt i.val := by
  refine Number.literal_of_integer ((x.integer_literal_iff i.val).mpr ⟨h, ?_⟩)
  have hi := i.property
  rw [abs_lt]
  constructor <;> omega

section CoreFiles

variable {digest : Text → List (Fin 256)} {p : CorePayload}

/-- What a file of core is decoded to: field by field the same text or the same number. -/
structure Decodes (digest : Text → List (Fin 256)) (p : CorePayload) (m : Manifest) : Prop where
  generation : p.generation.value = m.generation.val
  parentGeneration : p.parentGeneration.value = m.parentGeneration.val
  writtenBy : p.writtenBy = m.writtenBy.val
  writtenAt : p.writtenAt = m.writtenAt.val
  contentHash : contentHashOf digest (jsonStringify (.object p.members)) = m.contentHash.val
  version : m.version.val = 3
  meshId : p.meshId = m.meshId.val
  schema : p.schema.value = m.schema.val
  encrypted : p.encrypted = m.encrypted
  managed : p.server.managed = m.server.managed
  relayUrl : p.server.relayUrl = m.server.relayUrl.map Subtype.val
  serverId : p.server.serverId = m.server.serverId.val
  createdAt : p.createdAt = m.createdAt.val
  epoch : p.epoch.value = m.epoch.val
  watermarkHlc : p.watermarkHlc = m.watermarkHlc.val
  snapshotPath : p.snapshotPath = m.snapshotPath.map Subtype.val
  deltaPath : m.deltaPath = none
  retention : ∃ c o : Int64, m.retention = some (c, o) ∧
    (Number.finite false p.compactAfterMs).value = c.val ∧
    (Number.finite false p.maxOfflineDurationMs).value = o.val
  lineage : ∃ l : Int64, m.lineage = some l ∧ (Number.finite false p.lineage).value = l.val

theorem decodeServer_members {s : ManifestText.ServerConfig} {server : ServerConfig} :
    decodeServer (some (.object s.members)) = some server ↔
      s.managed = server.managed ∧ s.relayUrl = server.relayUrl.map Subtype.val ∧
        s.serverId = server.serverId.val := by
  have hmanaged : Json.get s.members .managed = some (.bool s.managed) := rfl
  have hrelay : Json.get s.members .relayUrl = some (optionalString s.relayUrl) := rfl
  have hid : Json.get s.members .serverId = some (.string s.serverId) := rfl
  simp only [decodeServer, hmanaged, hrelay, hid, decodeBool, Option.bind_eq_bind,
    bind_some, bind_eq_some_iff, some.injEq]
  constructor
  · rintro ⟨relayUrl, hr, serverId, hi, rfl⟩
    exact ⟨rfl, decodeString_optional.mp hr, decodeString_string.mp hi⟩
  · rintro ⟨hm, hr, hi⟩
    refine ⟨server.relayUrl, decodeString_optional.mpr hr, server.serverId,
      decodeString_string.mpr hi, ?_⟩
    rw [hm]

theorem decodeRetention_members {r : Int64 × Int64} :
    decodeRetention (Json.get (p.file digest) .retention) = some r ↔
      (Number.finite false p.compactAfterMs).value = r.1.val ∧
        (Number.finite false p.maxOfflineDurationMs).value = r.2.val := by
  show ((decodeInt (some (.number (Number.finite false p.compactAfterMs).literal))).bind fun c =>
    (decodeInt (some (.number (Number.finite false p.maxOfflineDurationMs).literal))).bind fun o =>
      some (c, o)) = some r ↔ _
  simp only [bind_eq_some_iff, some.injEq]
  constructor
  · rintro ⟨c, hc, o, ho, rfl⟩
    exact ⟨decodeInt_number.mp hc, decodeInt_number.mp ho⟩
  · rintro ⟨hc, ho⟩
    exact ⟨r.1, decodeInt_number.mpr hc, r.2, decodeInt_number.mpr ho, rfl⟩

theorem some_bind {α β : Type} {x : Option α} {a : α} {f : α → Option β} {b : β}
    (hx : x = some a) (hf : f a = some b) : (x >>= f) = some b := by
  rw [hx]
  exact hf

variable {m : Manifest}

/-- **Decoding a file of core** is reading each of its members. -/
theorem decode_file_iff : decode (p.file digest) = some m ↔ Decodes digest p m := by
  have hretention : decodeIfPresent decodeRetention (Json.get (p.file digest) .retention) =
      (decodeRetention (Json.get (p.file digest) .retention)).map some := rfl
  have hlineage : decodeIfPresent decodeInt (Json.get (p.file digest) .lineage) =
      (decodeInt (some (.number (Number.finite false p.lineage).literal))).map some := rfl
  unfold decode
  constructor
  · intro h
    obtain ⟨generation, hg, h⟩ := bind_eq_some_iff.mp h
    obtain ⟨parentGeneration, hpg, h⟩ := bind_eq_some_iff.mp h
    obtain ⟨writtenBy, hby, h⟩ := bind_eq_some_iff.mp h
    obtain ⟨writtenAt, hat, h⟩ := bind_eq_some_iff.mp h
    obtain ⟨contentHash, hhash, h⟩ := bind_eq_some_iff.mp h
    obtain ⟨version, hversion, h⟩ := bind_eq_some_iff.mp h
    obtain ⟨meshId, hmesh, h⟩ := bind_eq_some_iff.mp h
    obtain ⟨schema, hschema, h⟩ := bind_eq_some_iff.mp h
    obtain ⟨encrypted, hencrypted, h⟩ := bind_eq_some_iff.mp h
    obtain ⟨server, hserver, h⟩ := bind_eq_some_iff.mp h
    obtain ⟨createdAt, hcreated, h⟩ := bind_eq_some_iff.mp h
    obtain ⟨epoch, hepoch, h⟩ := bind_eq_some_iff.mp h
    obtain ⟨watermarkHlc, hmark, h⟩ := bind_eq_some_iff.mp h
    obtain ⟨snapshotPath, hsnap, h⟩ := bind_eq_some_iff.mp h
    obtain ⟨deltaPath, hdelta, h⟩ := bind_eq_some_iff.mp h
    obtain ⟨retention, hr, h⟩ := bind_eq_some_iff.mp h
    obtain ⟨lineage, hl, h⟩ := bind_eq_some_iff.mp h
    obtain rfl := some.inj h
    obtain ⟨r, hr', rfl⟩ := map_eq_some_iff.mp (hretention.symm.trans hr)
    obtain ⟨l, hl', rfl⟩ := map_eq_some_iff.mp (hlineage.symm.trans hl)
    have hserver := decodeServer_members.mp hserver
    have hr := decodeRetention_members.mp hr'
    exact
      { generation := decodeInt_number.mp hg
        parentGeneration := decodeInt_number.mp hpg
        writtenBy := decodeString_string.mp hby
        writtenAt := decodeString_string.mp hat
        contentHash := decodeString_string.mp hhash
        version := decodeInt_version.mp hversion
        meshId := decodeString_string.mp hmesh
        schema := decodeInt_number.mp hschema
        encrypted := some.inj hencrypted
        managed := hserver.1
        relayUrl := hserver.2.1
        serverId := hserver.2.2
        createdAt := decodeString_string.mp hcreated
        epoch := decodeInt_number.mp hepoch
        watermarkHlc := decodeString_string.mp hmark
        snapshotPath := decodeString_optional.mp hsnap
        deltaPath := (some.inj hdelta).symm
        retention := ⟨r.1, r.2, rfl, hr.1, hr.2⟩
        lineage := ⟨l, rfl, decodeInt_number.mp hl'⟩ }
  · intro h
    obtain ⟨c, o, hr, hc, ho⟩ := h.retention
    obtain ⟨l, hl, hlv⟩ := h.lineage
    have hretention : decodeIfPresent decodeRetention (Json.get (p.file digest) .retention) =
        some m.retention := by
      have hpolicy : decodeRetention (Json.get (p.file digest) .retention) = some (c, o) :=
        decodeRetention_members.mpr ⟨hc, ho⟩
      rw [hretention, hpolicy, hr, map_some]
    have hlineage : decodeIfPresent decodeInt (Json.get (p.file digest) .lineage) =
        some m.lineage := by
      rw [hlineage, decodeInt_number.mpr hlv, hl, map_some]
    refine some_bind (decodeInt_number.mpr h.generation) ?_
    refine some_bind (decodeInt_number.mpr h.parentGeneration) ?_
    refine some_bind (decodeString_string.mpr h.writtenBy) ?_
    refine some_bind (decodeString_string.mpr h.writtenAt) ?_
    refine some_bind (decodeString_string.mpr h.contentHash) ?_
    refine some_bind (decodeInt_version.mpr h.version) ?_
    refine some_bind (decodeString_string.mpr h.meshId) ?_
    refine some_bind (decodeInt_number.mpr h.schema) ?_
    refine some_bind (congrArg some h.encrypted) ?_
    refine some_bind (decodeServer_members.mpr ⟨h.managed, h.relayUrl, h.serverId⟩) ?_
    refine some_bind (decodeString_string.mpr h.createdAt) ?_
    refine some_bind (decodeInt_number.mpr h.epoch) ?_
    refine some_bind (decodeString_string.mpr h.watermarkHlc) ?_
    refine some_bind (decodeString_optional.mpr h.snapshotPath) ?_
    refine some_bind (congrArg some h.deltaPath.symm) ?_
    refine some_bind hretention ?_
    exact some_bind hlineage rfl

theorem Decodes.members (h : Decodes digest p m) : m.members = p.members := by
  obtain ⟨c, o, hr, hc, ho⟩ := h.retention
  obtain ⟨l, hl, hlv⟩ := h.lineage
  have hc : p.compactAfterMs.literal false = .ofInt c.val := literal_of_value hc
  have ho : p.maxOfflineDurationMs.literal false = .ofInt o.val := literal_of_value ho
  have hlv : p.lineage.literal false = .ofInt l.val := literal_of_value hlv
  rw [CorePayload.members, ServerConfig.members, hc, ho, hlv, literal_of_value h.generation,
    literal_of_value h.parentGeneration, literal_of_value h.schema, literal_of_value h.epoch,
    h.writtenBy, h.writtenAt, h.meshId, h.encrypted, h.managed, h.relayUrl, h.serverId,
    h.createdAt, h.watermarkHlc, h.snapshotPath, Manifest.members, hr, hl, h.version, h.deltaPath]
  rfl

theorem Decodes.manifestHash_eq (h : Decodes digest p m) :
    manifestHash digest m coreManifestKeyOrder = m.contentHash.val := by
  rw [manifestHash, manifestJSON_payload, h.members, h.contentHash]

theorem exists_str {t : Option Text} (h : ∀ s ∈ t, isWellFormed s = true) :
    ∃ s : Option Str, t = s.map Subtype.val := by
  cases t with
  | none => exact ⟨none, rfl⟩
  | some t => exact ⟨some ⟨t, h t rfl⟩, rfl⟩

theorem isWellFormed_contentHashOf (digest : Text → List (Fin 256)) (text : Text) :
    isWellFormed (contentHashOf digest text) = true := by
  refine isWellFormed_of_plain fun u hu => ?_
  rw [contentHashOf, mem_append, mem_flatMap] at hu
  rcases hu with hu | ⟨b, -, hu⟩
  · have hall : ((ascii ['s', 'h', 'a', '2', '5', '6', ':']).all fun u => !isSurrogate u) = true := by
      decide
    have hu := all_eq_true.mp hall u hu
    rwa [Bool.not_eq_true'] at hu
  · exact isSurrogate_of_mem_padStart (by norm_num) (by norm_num) hu

/-- What a file of core must hold for Swift to decode it: whole numbers in the range of `Int` and
well-formed strings. -/
theorem exists_decodes_iff (digest : Text → List (Fin 256)) (p : CorePayload) :
    (∃ m, Decodes digest p m) ↔
      (∀ x ∈ p.numbers, ∃ i : ℤ, x.value = i ∧ -2 ^ 63 ≤ i ∧ i < 2 ^ 63) ∧
        ∀ t ∈ p.strings, isWellFormed t = true := by
  have hoption : ∀ {t : Option Text} {s : Option Str}, t = s.map Subtype.val →
      ∀ u ∈ t, isWellFormed u = true := by
    rintro t (_ | s) rfl u hu
    · exact absurd hu (by simp)
    · obtain rfl : s.val = u := by simpa using hu
      exact s.property
  simp only [CorePayload.numbers, CorePayload.strings, forall_mem_cons, forall_mem_append,
    Option.mem_toList]
  constructor
  · rintro ⟨m, h⟩
    obtain ⟨c, o, -, hc, ho⟩ := h.retention
    obtain ⟨l, -, hl⟩ := h.lineage
    exact ⟨⟨⟨l, hl, l.property⟩, ⟨c, hc, c.property⟩, ⟨o, ho, o.property⟩,
        ⟨m.generation, h.generation, m.generation.property⟩,
        ⟨m.parentGeneration, h.parentGeneration, m.parentGeneration.property⟩,
        ⟨m.schema, h.schema, m.schema.property⟩, ⟨m.epoch, h.epoch, m.epoch.property⟩,
        fun _ hx => absurd hx not_mem_nil⟩,
      ⟨⟨h.writtenBy ▸ m.writtenBy.property, h.writtenAt ▸ m.writtenAt.property,
        h.meshId ▸ m.meshId.property, h.serverId ▸ m.server.serverId.property,
        h.createdAt ▸ m.createdAt.property, h.watermarkHlc ▸ m.watermarkHlc.property,
        fun _ hx => absurd hx not_mem_nil⟩, hoption h.relayUrl⟩, hoption h.snapshotPath⟩
  · rintro ⟨⟨⟨l, hl, hl'⟩, ⟨c, hc, hc'⟩, ⟨o, ho, ho'⟩, ⟨g, hg, hg'⟩, ⟨pg, hpg, hpg'⟩, ⟨s, hs, hs'⟩,
      ⟨e, he, he'⟩, -⟩, ⟨⟨hby, hat, hmesh, hid, hcreated, hmark, -⟩, hrelay⟩, hsnap⟩
    obtain ⟨relayUrl, hrelay⟩ := exists_str hrelay
    obtain ⟨snapshotPath, hsnap⟩ := exists_str hsnap
    refine ⟨{ generation := ⟨g, hg'⟩, parentGeneration := ⟨pg, hpg'⟩, writtenBy := ⟨_, hby⟩,
              writtenAt := ⟨_, hat⟩,
              contentHash := ⟨_, isWellFormed_contentHashOf digest (jsonStringify (.object p.members))⟩,
              version := ⟨3, by norm_num⟩, meshId := ⟨_, hmesh⟩, schema := ⟨s, hs'⟩,
              encrypted := p.encrypted,
              server := { managed := p.server.managed, relayUrl, serverId := ⟨_, hid⟩ },
              createdAt := ⟨_, hcreated⟩, epoch := ⟨e, he'⟩, watermarkHlc := ⟨_, hmark⟩, snapshotPath,
              deltaPath := none, retention := some (⟨c, hc'⟩, ⟨o, ho'⟩), lineage := some ⟨l, hl'⟩ },
      { generation := hg, parentGeneration := hpg, writtenBy := rfl, writtenAt := rfl,
        contentHash := rfl, version := rfl, meshId := rfl, schema := hs, encrypted := rfl,
        managed := rfl, relayUrl := hrelay, serverId := rfl, createdAt := rfl, epoch := he,
        watermarkHlc := rfl, snapshotPath := hsnap, deltaPath := rfl,
        retention := ⟨_, _, rfl, hc, ho⟩, lineage := ⟨_, rfl, hl⟩ }⟩

end CoreFiles

/-- Reading a file and checking its hash, the first steps of `loadOrCreateManifest` with it. -/
def verifies (digest : Text → List (Fin 256)) (file : Members) : Bool :=
  match decode file with
  | some m => acceptsHash digest m
  | none => false

/-- **Swift on the files of core.**  A file is decoded and its hash recomputed to the stored one
exactly when its numbers are whole and in the range of `Int` and its strings are well formed. -/
theorem verifies_iff (digest : Text → List (Fin 256)) (p : CorePayload) :
    verifies digest (p.file digest) = true ↔
      (∀ x ∈ p.numbers, ∃ i : ℤ, x.value = i ∧ -2 ^ 63 ≤ i ∧ i < 2 ^ 63) ∧
        ∀ t ∈ p.strings, isWellFormed t = true := by
  rw [← exists_decodes_iff digest p]
  unfold verifies
  constructor
  · intro h
    rcases hm : decode (p.file digest) with _ | m
    · rw [hm] at h
      exact absurd h Bool.false_ne_true
    · exact ⟨m, decode_file_iff.mp hm⟩
  · rintro ⟨m, hm⟩
    rw [decode_file_iff.mpr hm]
    show acceptsHash digest m = true
    rw [acceptsHash, hm.manifestHash_eq, contains_iff_mem]
    exact mem_cons_self

/-- `preparedManifest`: the manifest with its hash. -/
def Manifest.signed (digest : Text → List (Fin 256)) (m : Manifest) : Manifest :=
  { m with contentHash := ⟨manifestHash digest m coreManifestKeyOrder,
      isWellFormed_contentHashOf digest _⟩ }

theorem contentHash_notMem_members (m : Manifest) : ∀ x ∈ m.members, x.1 ≠ .contentHash := by
  intro x hx
  simp only [Manifest.members, mem_append] at hx
  rcases hx with (hx | hx) | hx
  · revert x
    simp
  · exact contentHash_notMem_retentionMember x hx
  · exact contentHash_notMem_lineageMember x hx

/-- **Core on the files of Swift.**  A file whose integers JavaScript prints as written has the
hash core computes. -/
theorem validate_signed (readDecimal : Literal → Option Literal) (digest : Text → List (Fin 256))
    {m : Manifest} (h : (Json.object m.members : Value).Numbers Stable) :
    validateManifestHash readDecimal digest (m.signed digest).file = true := by
  have hvalid := validateManifestHash_of_stable readDecimal digest (contentHash_notMem_members m) h
  rw [← manifestJSON_payload] at hvalid
  exact hvalid

end Swift

/-! ## Across the implementations -/

/-- **Manifests verify across the implementations, within the integers they share.**  Swift
verifies exactly the files of core whose numbers are whole and fit an `Int` and whose strings are
well formed; Python those whose numbers are whole and below `10 ^ 21` and whose watermark is one
it reads.  A file of Swift or Python has the hash core computes if JavaScript prints its integers
as they were written. -/
theorem manifests_verify_across_implementations (floatRepr : Literal → Literal)
    (readDecimal : Literal → Option Literal) (digest : Text → List (Fin 256)) :
    (∀ p : CorePayload, Swift.verifies digest (p.file digest) = true ↔
      (∀ x ∈ p.numbers, ∃ i : ℤ, x.value = i ∧ -2 ^ 63 ≤ i ∧ i < 2 ^ 63) ∧
        ∀ t ∈ p.strings, isWellFormed t = true) ∧
    (∀ p : CorePayload, (∃ m, Python.load floatRepr digest (p.file digest) = .ok m) ↔
      (∀ x ∈ p.numbers, ∃ i : ℤ, x.value = i ∧ |i| < 10 ^ 21) ∧ Python.ReadableWatermark p) ∧
    (∀ m : Swift.Manifest, (Json.object m.members : Value).Numbers Stable →
      Swift.manifestJSON (m.signed digest) Swift.coreManifestKeyOrder true =
          jsonStringify (.object (m.signed digest).file) ∧
        validateManifestHash readDecimal digest (m.signed digest).file = true) ∧
    (∀ m : Python.Manifest, (Json.object m.payloadWire : Value).Numbers Stable →
      validateManifestHash readDecimal digest (m.signed floatRepr digest).toWire = true) := by
  refine ⟨Swift.verifies_iff digest, Python.load_iff floatRepr digest, ?_, ?_⟩
  · intro m h
    exact ⟨Swift.manifestJSON_file _, Swift.validate_signed readDecimal digest h⟩
  · intro m h
    exact Python.validate_signed floatRepr readDecimal digest h

/-- The first manifest of a mesh, with a retention duration. -/
def firstPayload (compactAfterMs : Decimal) : CorePayload where
  generation := .finite false ⟨1, 0, by decide⟩
  parentGeneration := .zero
  writtenBy := ascii ['d', 'e', 'v']
  writtenAt := ascii ['n', 'o', 'w']
  meshId := ascii ['m', 'e', 's', 'h']
  schema := .finite false ⟨1, 0, by decide⟩
  encrypted := false
  server := { managed := false, relayUrl := none, serverId := ascii ['d', 'e', 'v'] }
  createdAt := ascii ['n', 'o', 'w']
  epoch := .zero
  watermark := none
  snapshotPath := none
  compactAfterMs := compactAfterMs
  maxOfflineDurationMs := ⟨2592, 6, by decide⟩
  lineage := ⟨1, 0, by decide⟩

/-- One and a half milliseconds: a positive finite duration that no `Int` is. -/
theorem fractional_duration_not_verified :
    ¬ ∃ (digest : Text → List (Fin 256)) (floatRepr : Literal → Literal),
      Swift.verifies digest ((firstPayload ⟨15, -1, by decide⟩).file digest) = true ∨
      ∃ m, Python.load floatRepr digest ((firstPayload ⟨15, -1, by decide⟩).file digest) = .ok m := by
  have hhalf : ∀ i : ℤ, (Number.finite false ⟨15, -1, by decide⟩).value ≠ i := by
    intro i hi
    have hvalue : (Number.finite false ⟨15, -1, by decide⟩).value = 3 / 2 := by
      rw [Number.value, Decimal.value, sign]
      norm_num
    rw [hvalue, div_eq_iff (by norm_num)] at hi
    have hint : (3 : ℤ) = i * 2 := by exact_mod_cast hi
    omega
  have hmem : Number.finite false ⟨15, -1, by decide⟩ ∈
      (firstPayload ⟨15, -1, by decide⟩).numbers := by
    exact mem_cons_of_mem _ mem_cons_self
  rintro ⟨digest, floatRepr, h | h⟩
  · obtain ⟨i, hi, -⟩ := ((Swift.verifies_iff digest _).mp h).1 _ hmem
    exact hhalf i hi
  · obtain ⟨i, hi, -⟩ := ((Python.load_iff floatRepr digest _).mp h).1 _ hmem
    exact hhalf i hi

/-- A manifest Python has just created. -/
def firstRecord : Python.Manifest where
  generation := 1
  parentGeneration := 0
  writtenBy := ascii ['d', 'e', 'v']
  writtenAt := ascii ['n', 'o', 'w']
  contentHash := []
  version := 3
  meshId := ascii ['m', 'e', 's', 'h']
  schema := 1
  encrypted := false
  server := ServerConfig.members ⟨false, none, ascii ['d', 'e', 'v']⟩
  createdAt := ascii ['n', 'o', 'w']
  epoch := 0
  watermarkHlc := []
  snapshotPath := none
  deltaPath := none
  retention := none
  lineage := none

/-- A manifest Swift has just created. -/
def firstSwiftManifest : Swift.Manifest where
  generation := ⟨1, by norm_num⟩
  parentGeneration := ⟨0, by norm_num⟩
  writtenBy := ⟨ascii ['d', 'e', 'v'], by decide⟩
  writtenAt := ⟨ascii ['n', 'o', 'w'], by decide⟩
  contentHash := ⟨[], by decide⟩
  version := ⟨3, by norm_num⟩
  meshId := ⟨ascii ['m', 'e', 's', 'h'], by decide⟩
  schema := ⟨1, by norm_num⟩
  encrypted := false
  server := { managed := false, relayUrl := none, serverId := ⟨ascii ['d', 'e', 'v'], by decide⟩ }
  createdAt := ⟨ascii ['n', 'o', 'w'], by decide⟩
  epoch := ⟨0, by norm_num⟩
  watermarkHlc := ⟨[], by decide⟩
  snapshotPath := none
  deltaPath := none
  retention := none
  lineage := none

/-- A digest that is easy to compute: the length of the text. -/
def lengthDigest (t : Text) : List (Fin 256) := [Fin.ofNat 256 t.length]

/-- With a week for a duration core's first manifest verifies in both engines, and theirs verify
in core. -/
theorem weekly_manifest_verifies :
    Swift.verifies lengthDigest ((firstPayload ⟨6048, 5, by decide⟩).file lengthDigest) = true ∧
    (∃ m, Python.load id lengthDigest
      ((firstPayload ⟨6048, 5, by decide⟩).file lengthDigest) = .ok m) ∧
    validateManifestHash some lengthDigest (firstSwiftManifest.signed lengthDigest).file = true ∧
    validateManifestHash some lengthDigest (firstRecord.signed id lengthDigest).toWire = true := by
  obtain ⟨hswift, hpython, hfromSwift, hfromPython⟩ :=
    manifests_verify_across_implementations id some lengthDigest
  have hsmall : ∀ i : ℤ, |i| < 2 ^ 53 → Stable (.ofInt i) := fun i hi =>
    ⟨i, rfl, unchanged_of_lt hi⟩
  -- the numbers of the payload, one by one
  have hnumbers : ∀ x ∈ (firstPayload ⟨6048, 5, by decide⟩).numbers,
      ∃ i : ℤ, x.value = i ∧ 0 ≤ i ∧ i < 2 ^ 53 := by
    have hone : (Number.finite false ⟨1, 0, by decide⟩).value = ((1 : ℤ) : ℚ) := by
      rw [Number.value, Decimal.value, sign]
      norm_num
    have hweek : (Number.finite false ⟨6048, 5, by decide⟩).value = ((604800000 : ℤ) : ℚ) := by
      rw [Number.value, Decimal.value, sign]
      norm_num
    have hmonth : (Number.finite false ⟨2592, 6, by decide⟩).value = ((2592000000 : ℤ) : ℚ) := by
      rw [Number.value, Decimal.value, sign]
      norm_num
    have hzero : Number.zero.value = ((0 : ℤ) : ℚ) := by
      rw [Number.value]
      norm_num
    simp only [CorePayload.numbers, forall_mem_cons]
    exact ⟨⟨1, hone, by norm_num⟩, ⟨604800000, hweek, by norm_num⟩,
      ⟨2592000000, hmonth, by norm_num⟩, ⟨1, hone, by norm_num⟩, ⟨0, hzero, by norm_num⟩,
      ⟨1, hone, by norm_num⟩, ⟨0, hzero, by norm_num⟩, fun _ hx => absurd hx not_mem_nil⟩
  refine ⟨(hswift _).mpr ⟨fun x hx => ?_, ?_⟩, (hpython _).mpr ⟨fun x hx => ?_, ?_⟩,
    (hfromSwift _ ?_).2, hfromPython _ ?_⟩
  · obtain ⟨i, hi, hlo, hhi⟩ := hnumbers x hx
    exact ⟨i, hi, by omega, by omega⟩
  · have hall : ((firstPayload ⟨6048, 5, by decide⟩).strings.all isWellFormed) = true := by decide
    exact all_eq_true.mp hall
  · obtain ⟨i, hi, hlo, hhi⟩ := hnumbers x hx
    exact ⟨i, hi, by rw [abs_of_nonneg hlo]; omega⟩
  · intro s hs
    exact absurd hs (by simp [firstPayload])
  · simp only [Swift.Manifest.members, firstSwiftManifest, Json.Numbers, Json.MemberNumbers,
      retentionMember, lineageMember, optionalString, map_none, append_nil, true_and,
      and_true]
    exact ⟨hsmall 1 (by norm_num), hsmall 0 (by norm_num), hsmall 3 (by norm_num),
      hsmall 1 (by norm_num), hsmall 0 (by norm_num)⟩
  · simp only [Python.Manifest.payloadWire, firstRecord, ServerConfig.members, Json.Numbers,
      Json.MemberNumbers, retentionMember, lineageMember, optionalString, append_nil,
      true_and, and_true]
    exact ⟨hsmall 1 (by norm_num), hsmall 0 (by norm_num), hsmall 3 (by norm_num),
      hsmall 1 (by norm_num), hsmall 0 (by norm_num)⟩

end Interocitor.ManifestText
