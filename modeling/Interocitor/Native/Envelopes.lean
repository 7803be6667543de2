import Interocitor.Handshake.Capabilities

/-!
# Encrypted envelopes, in TypeScript, Python and Swift

What a device writes to the mesh is sealed.  An envelope is a byte that names its format, a nonce of
twelve bytes, and the AES-GCM ciphertext with its tag of sixteen bytes at the end; the format byte
is authenticated along with it.  The plaintext is compressed first whenever that makes it smaller,
and never above a size past which no reader inflates.  Readers also open an older envelope in JSON,
which is told from the others by its first byte.

Three implementations do all of this separately, and every one has to open what any one has sealed.
They share neither the cipher nor the codec: `Runtimes` has what each of them uses of its platform.
The codecs have one format in common, `Deflated`, that each of them writes and reads.  How much of
its output a codec hands over at a time is up to the codec.

* `envelopes_open_everywhere`: the nine pairs, and envelopes that were tampered with.
-/

namespace Interocitor.Envelopes

open CodeUnits List
open Handshake (property)

/-- A byte string. -/
abbrev Bytes := List UInt8

/-- A mesh key, of 256 bits. -/
abbrev MeshKey := { key : Bytes // key.length = 32 }

/-- A nonce, of 96 bits. -/
abbrev Iv := { iv : Bytes // iv.length = 12 }

/-- `PLAIN_FORMAT`. -/
def plainFormat : UInt8 := 0x02

/-- `DEFLATE_FORMAT`. -/
def deflateFormat : UInt8 := 0x03

/-- `IV_LENGTH`. -/
def ivLength : ℕ := 12

/-- `TAG_LENGTH`. -/
def tagLength : ℕ := 16

/-- `MIN_ENVELOPE_LENGTH`. -/
def minEnvelopeLength : ℕ := 1 + ivLength + tagLength

/-- `MAX_INFLATED_BYTES`. -/
def maxInflatedBytes : ℕ := 256 * 1024 * 1024

/-! ## What the platforms provide -/

/-- The status of `compression_stream_process`. -/
inductive Status where
  | ok
  | ended
  | error
  deriving DecidableEq

/-- One call of `compression_stream_process`: what it has put into the buffer, its status, and how
much of the source it has left. -/
structure Turn where
  output : Bytes
  status : Status
  srcLeft : ℕ

/-- The calls that a stream needs to its end: all but the last make progress, and the last has used
up the source. -/
inductive Completes : List Turn → Bytes → Prop
  | last (output : Bytes) (later : List Turn) : Completes (⟨output, .ended, 0⟩ :: later) output
  | more {output rest : Bytes} {srcLeft : ℕ} {turns : List Turn}
      (progress : ¬ (srcLeft = 0 ∧ output = [])) (h : Completes turns rest) :
      Completes (⟨output, .ok, srcLeft⟩ :: turns) (output ++ rest)

/-- What a `decompressobj` has after `decompress`. -/
structure PyInflated where
  out : Bytes
  eof : Bool
  unusedData : Bytes

/-- A value in Python's parsed JSON envelope. -/
inductive PyField where
  | int (n : ℤ)
  | str (s : Text)
  | other

/-- Swift's `EncryptedEnvelope`. -/
structure SwiftEnvelope where
  v : ℤ
  iv : Text
  ct : Text

/-- **The platforms.**  Key, nonce, additional data and text are the arguments of the cipher. -/
structure Runtimes where
  /-- AES-GCM; the tag is at the end of the ciphertext. -/
  encrypt : Bytes → Bytes → Bytes → Bytes → Bytes
  decrypt : Bytes → Bytes → Bytes → Bytes → Option Bytes
  /-- `Deflated plaintext bytes`: raw DEFLATE, RFC 1951. -/
  Deflated : Bytes → Bytes → Prop
  /-- The chunks of a `CompressionStream`. -/
  tsDeflate : Bytes → List Bytes
  /-- The chunks of a `DecompressionStream`, and whether it gets to its end. -/
  tsInflate : Bytes → List Bytes × Bool
  /-- `compress` and `flush`. -/
  pyDeflate : Bytes → Bytes × Bytes
  /-- `decompress(data, max_length)`; `none` is a `zlib.error`. -/
  pyInflate : Bytes → ℕ → Option PyInflated
  swiftEncode : Bytes → List Turn
  swiftDecode : Bytes → List Turn
  /-- `JSON.parse` of the decoded bytes, and `atob`. -/
  tsParse : Bytes → Option JsValue
  tsBase64 : Text → Option Bytes
  /-- `json.loads`, if it gives a mapping, and `b64decode`. -/
  pyParse : Bytes → Option (Text → PyField)
  pyBase64 : Text → Option Bytes
  /-- `JSONDecoder`, and `Data(base64Encoded:)`. -/
  swiftParse : Bytes → Option SwiftEnvelope
  swiftBase64 : Text → Option Bytes
  length_encrypt : ∀ key iv additional plaintext,
    (encrypt key iv additional plaintext).length = plaintext.length + 16
  ts_deflates : ∀ p, Deflated p (tsDeflate p).flatten
  py_deflates : ∀ p, Deflated p ((pyDeflate p).1 ++ (pyDeflate p).2)
  swift_deflates : ∀ p, ∃ c, Completes (swiftEncode p) c ∧ Deflated p c
  ts_inflates : ∀ p c, Deflated p c → (tsInflate c).1.flatten = p ∧ (tsInflate c).2 = true
  py_inflates : ∀ p c limit, Deflated p c → p.length < limit →
    pyInflate c limit = some ⟨p, true, []⟩
  swift_inflates : ∀ p c, Deflated p c → Completes (swiftDecode c) p

/-- **AES-GCM, for one message.**  Under its key and nonce decryption inverts this encryption, and
fails for other additional data and for other bytes. -/
def OpensOnly (lib : Runtimes) (key iv additional plaintext : Bytes) : Prop :=
  ∀ additional' c p, lib.decrypt key iv additional' c = some p ↔
    additional' = additional ∧ c = lib.encrypt key iv additional plaintext ∧ p = plaintext

/-! ## Errors -/

/-- What the openers throw. -/
inductive EnvelopeError where
  | empty
  | unknownFormat (format : UInt8)
  | truncated (length : ℕ)
  | authentication
  | malformedPayload
  | malformedEnvelope
  | unknownVersion
  deriving DecidableEq

/-- An exception, as an error. -/
def orError {α : Type} (e : EnvelopeError) : Option α → Except EnvelopeError α
  | some a => .ok a
  | none => .error e

/-! ## Compression -/

/-- `collect`: the chunks so far, and their length. -/
def collect (limit : Option ℕ) : List Bytes → ℕ → Bytes → Option Bytes
  | [], _, out => some out
  | chunk :: rest, total, out =>
    if (limit.any fun l => decide (l < total + chunk.length)) = true then none
    else collect limit rest (total + chunk.length) (out ++ chunk)

/-- The loop of Swift's `runCompression`. -/
def runCompression (limit : Option ℕ) : List Turn → Bytes → Option Bytes
  | [], _ => none
  | t :: ts, output =>
    if (limit.any fun l => decide (l < (output ++ t.output).length)) = true then none
    else
      match t.status with
      | .ok => if t.srcLeft = 0 ∧ t.output = [] then none
        else runCompression limit ts (output ++ t.output)
      | .ended => if t.srcLeft ≠ 0 then none else some (output ++ t.output)
      | .error => none

/-- The implementations. -/
inductive Runtime where
  | typescript
  | python
  | swift
  deriving DecidableEq

variable (lib : Runtimes)

/-- `deflateRaw`, `_deflate_raw`, `deflateRaw`. -/
def deflateRaw (plaintext : Bytes) : Runtime → Option Bytes
  | .typescript => collect none (lib.tsDeflate plaintext) 0 []
  | .python => some ((lib.pyDeflate plaintext).1 ++ (lib.pyDeflate plaintext).2)
  | .swift => runCompression none (lib.swiftEncode plaintext) []

/-- Core's `inflateRaw`. -/
def tsInflateRaw (bytes : Bytes) : Option Bytes :=
  (collect (some maxInflatedBytes) (lib.tsInflate bytes).1 0 []).filter fun _ =>
    (lib.tsInflate bytes).2

/-- Python's `_inflate_raw`. -/
def pyInflateRaw (data : Bytes) : Option Bytes :=
  match lib.pyInflate data (maxInflatedBytes + 1) with
  | none => none
  | some r =>
    if maxInflatedBytes < r.out.length then none
    else if r.eof = false ∨ r.unusedData ≠ [] then none
    else some r.out

/-- Swift's `inflateRaw`. -/
def swiftInflateRaw (data : Bytes) : Option Bytes :=
  runCompression (some maxInflatedBytes) (lib.swiftDecode data) []

/-- The three of them. -/
def inflateRaw (bytes : Bytes) : Runtime → Option Bytes
  | .typescript => tsInflateRaw lib bytes
  | .python => pyInflateRaw lib bytes
  | .swift => swiftInflateRaw lib bytes

/-! ### Every reader inflates what any writer deflated -/

theorem collect_eq {limit : Option ℕ} {chunks : List Bytes} {total : ℕ} {out : Bytes}
    (h : ∀ l ∈ limit, total + chunks.flatten.length ≤ l) :
    collect limit chunks total out = some (out ++ chunks.flatten) := by
  induction chunks generalizing total out with
  | nil => rw [collect, flatten_nil, append_nil]
  | cons chunk rest ih =>
    have hall : ∀ l ∈ limit, total + chunk.length + rest.flatten.length ≤ l := by
      intro l hl
      have hle := h l hl
      rw [flatten_cons, length_append] at hle
      omega
    have hfits : ¬ (limit.any fun l => decide (l < total + chunk.length)) = true := by
      rw [Option.any_eq_true]
      rintro ⟨l, hl, hlt⟩
      have hle := hall l hl
      have hlt := of_decide_eq_true hlt
      omega
    rw [collect, if_neg hfits, ih hall, flatten_cons, append_assoc]

theorem runCompression_eq {limit : Option ℕ} {turns : List Turn} {p output : Bytes}
    (hturns : Completes turns p) (h : ∀ l ∈ limit, (output ++ p).length ≤ l) :
    runCompression limit turns output = some (output ++ p) := by
  induction hturns generalizing output with
  | last p later =>
    have hfits : ¬ (limit.any fun l => decide (l < (output ++ p).length)) = true := by
      rw [Option.any_eq_true]
      rintro ⟨l, hl, hlt⟩
      exact absurd (of_decide_eq_true hlt) (Nat.not_lt.mpr (h l hl))
    rw [runCompression, if_neg hfits]
    exact if_neg (by simp)
  | more hprogress hrest ih =>
    rename_i piece rest srcLeft turns
    rw [← append_assoc] at h
    have hfits : ¬ (limit.any fun l => decide (l < (output ++ piece).length)) = true := by
      rw [Option.any_eq_true]
      rintro ⟨l, hl, hlt⟩
      have hle := h l hl
      have hlt := of_decide_eq_true hlt
      rw [length_append] at hle
      omega
    rw [runCompression, if_neg hfits]
    dsimp only
    rw [if_neg hprogress, ih h, append_assoc]

/-- **Deflating.** -/
theorem deflateRaw_deflated (plaintext : Bytes) (w : Runtime) :
    ∃ c, deflateRaw lib plaintext w = some c ∧ lib.Deflated plaintext c := by
  cases w with
  | typescript => exact ⟨_, collect_eq (by simp), lib.ts_deflates plaintext⟩
  | python => exact ⟨_, rfl, lib.py_deflates plaintext⟩
  | swift =>
    obtain ⟨c, hturns, hc⟩ := lib.swift_deflates plaintext
    exact ⟨c, runCompression_eq hturns (by simp), hc⟩

/-- **Inflating.** -/
theorem inflate_deflated {plaintext c : Bytes} (h : lib.Deflated plaintext c)
    (hsize : plaintext.length ≤ maxInflatedBytes) (r : Runtime) :
    inflateRaw lib c r = some plaintext := by
  cases r with
  | typescript =>
    obtain ⟨hchunks, hended⟩ := lib.ts_inflates plaintext c h
    have hfits : ∀ l ∈ some maxInflatedBytes, 0 + (lib.tsInflate c).1.flatten.length ≤ l := by
      rintro l hl
      obtain rfl := Option.some.inj hl
      rw [hchunks, Nat.zero_add]
      exact hsize
    rw [inflateRaw, tsInflateRaw, collect_eq hfits, hchunks, hended]
    rfl
  | python =>
    rw [inflateRaw, pyInflateRaw, lib.py_inflates plaintext c _ h (Nat.lt_succ_of_le hsize)]
    dsimp only
    rw [if_neg (Nat.not_lt.mpr hsize), if_neg (by simp)]
  | swift =>
    refine runCompression_eq (lib.swift_inflates plaintext c h) ?_
    rintro l hl
    obtain rfl := Option.some.inj hl
    exact hsize

/-! ## Sealing -/

/-- Whether the plaintext is compressed: the format and what is encrypted. -/
def chooseBody (compressed : Option Bytes) (plaintext : Bytes) : UInt8 × Bytes :=
  match compressed with
  | some c => if c.length < plaintext.length then (deflateFormat, c) else (plainFormat, plaintext)
  | none => (plainFormat, plaintext)

/-- The compressed plaintext, where there is an attempt; `none` outside is an exception. -/
def compressed (w : Runtime) (plaintext : Bytes) : Option (Option Bytes) :=
  if plaintext.length ≤ maxInflatedBytes then (deflateRaw lib plaintext w).map some
  else some none

/-- An envelope: format, nonce, ciphertext with tag. -/
def frame (format : UInt8) (iv c : Bytes) : Bytes := format :: (iv ++ c)

/-- The ciphertext of `AES.GCM.seal`, apart from its tag, and the tag. -/
def sealedBox (c : Bytes) : Bytes × Bytes :=
  (c.take (c.length - tagLength), c.drop (c.length - tagLength))

/-- `sealEnvelope`, `encrypt_bytes`, `encryptBytes`, with the nonce that was drawn. -/
def sealBytes (w : Runtime) (key : MeshKey) (iv : Iv) (plaintext : Bytes) : Option Bytes := do
  let (format, body) := chooseBody (← compressed lib w plaintext) plaintext
  let c := lib.encrypt key iv [format] body
  match w with
  | .typescript => return frame format iv c
  | .python => return [format] ++ iv ++ c
  | .swift => return frame format iv ((sealedBox c).1 ++ (sealedBox c).2)

/-- What is encrypted for a plaintext, with its format. -/
def sealedInput (w : Runtime) (plaintext : Bytes) : UInt8 × Bytes :=
  chooseBody ((compressed lib w plaintext).getD none) plaintext

theorem compressed_eq (w : Runtime) (plaintext : Bytes) :
    ∃ o, compressed lib w plaintext = some o ∧ ∀ c ∈ o,
      plaintext.length ≤ maxInflatedBytes ∧ lib.Deflated plaintext c := by
  unfold compressed
  split_ifs with hsize
  · obtain ⟨c, hc, hdeflated⟩ := deflateRaw_deflated lib plaintext w
    refine ⟨some c, by rw [hc]; rfl, fun c' hc' => ?_⟩
    obtain rfl := Option.some.inj hc'
    exact ⟨hsize, hdeflated⟩
  · exact ⟨none, rfl, by simp⟩

/-- **The three sealers.**  They differ in what they compress to. -/
theorem sealBytes_eq (w : Runtime) (key : MeshKey) (iv : Iv) (plaintext : Bytes) :
    sealBytes lib w key iv plaintext = some (frame (sealedInput lib w plaintext).1 iv
      (lib.encrypt key iv [(sealedInput lib w plaintext).1] (sealedInput lib w plaintext).2)) := by
  obtain ⟨o, ho, -⟩ := compressed_eq lib w plaintext
  rw [sealBytes, sealedInput, ho]
  cases w with
  | typescript => rfl
  | python => rfl
  | swift =>
    dsimp only [bind, Option.bind, Option.getD_some]
    rw [sealedBox, take_append_drop]
    rfl

theorem sealedInput_cases (w : Runtime) (plaintext : Bytes) :
    sealedInput lib w plaintext = (plainFormat, plaintext) ∨
      ∃ c, sealedInput lib w plaintext = (deflateFormat, c) ∧ lib.Deflated plaintext c ∧
        plaintext.length ≤ maxInflatedBytes := by
  obtain ⟨o, ho, hdeflated⟩ := compressed_eq lib w plaintext
  rw [sealedInput, ho, Option.getD_some]
  cases o with
  | none => exact .inl rfl
  | some c =>
    unfold chooseBody
    dsimp only
    split_ifs
    · exact .inr ⟨c, rfl, (hdeflated c rfl).2, (hdeflated c rfl).1⟩
    · exact .inl rfl

/-! ## Opening -/

/-- `{` and the white space of JSON. -/
def isJsonEnvelope (first : UInt8) : Bool :=
  decide (first = 0x7b ∨ first = 0x20 ∨ first = 0x09 ∨ first = 0x0a ∨ first = 0x0d)

/-- `"v"`, `"iv"`, `"ct"`. -/
def vName : Text := [118]

@[inherit_doc vName]
def ivName : Text := [105, 118]

@[inherit_doc vName]
def ctName : Text := [99, 116]

/-- Core's `openJsonEnvelope`. -/
def tsOpenJson (key bytes : Bytes) : Except EnvelopeError Bytes := do
  let envelope ← orError .malformedEnvelope (lib.tsParse bytes)
  match property vName envelope with
  | .number (.finite q) =>
    if q ≠ 1 then .error .unknownVersion
    else
      match property ivName envelope, property ctName envelope with
      | .string iv, .string ct => do
        let iv ← orError .malformedEnvelope (lib.tsBase64 iv)
        let ct ← orError .malformedEnvelope (lib.tsBase64 ct)
        orError .authentication (lib.decrypt key iv [] ct)
      | _, _ => .error .malformedEnvelope
  | _ => .error .unknownVersion

/-- Python's `_open_json_envelope`. -/
def pyOpenJson (key envelope : Bytes) : Except EnvelopeError Bytes := do
  let fields ← orError .malformedEnvelope (lib.pyParse envelope)
  match fields vName with
  | .int n =>
    if n ≠ 1 then .error .unknownVersion
    else
      match fields ivName, fields ctName with
      | .str iv, .str ct => do
        let iv ← orError .malformedEnvelope (lib.pyBase64 iv)
        let ct ← orError .malformedEnvelope (lib.pyBase64 ct)
        if iv.length ≠ ivLength then .error .malformedEnvelope
        else orError .authentication (lib.decrypt key iv [] ct)
      | _, _ => .error .malformedEnvelope
  | _ => .error .unknownVersion

/-- Swift's `openJsonEnvelope`. -/
def swiftOpenJson (key data : Bytes) : Except EnvelopeError Bytes := do
  let envelope ← orError .malformedEnvelope (lib.swiftParse data)
  if envelope.v ≠ 1 then .error .unknownVersion
  else do
    let iv ← orError .malformedEnvelope (lib.swiftBase64 envelope.iv)
    let ct ← orError .malformedEnvelope (lib.swiftBase64 envelope.ct)
    if ct.length < tagLength then .error .malformedEnvelope
    else
      orError .authentication (lib.decrypt key iv [] ((sealedBox ct).1 ++ (sealedBox ct).2))

/-- The three of them. -/
def openJson (key bytes : Bytes) : Runtime → Except EnvelopeError Bytes
  | .typescript => tsOpenJson lib key bytes
  | .python => pyOpenJson lib key bytes
  | .swift => swiftOpenJson lib key bytes

/-- What is decrypted: core and Python hand over all that follows the nonce, Swift the ciphertext
and the tag. -/
def ciphertextOf (bytes : Bytes) : Runtime → Bytes
  | .typescript => bytes.drop (1 + ivLength)
  | .python => bytes.drop (1 + ivLength)
  | .swift => (bytes.take (bytes.length - tagLength)).drop (1 + ivLength) ++
      bytes.drop (bytes.length - tagLength)

/-- The nonce of an envelope. -/
def nonceOf (bytes : Bytes) : Bytes := (bytes.drop 1).take ivLength

/-- `openEnvelope`, `decrypt_bytes`, `decryptBytes`. -/
def openBytes (r : Runtime) (key : MeshKey) (bytes : Bytes) : Except EnvelopeError Bytes :=
  match bytes with
  | [] => .error .empty
  | format :: _ =>
    if isJsonEnvelope format = true then openJson lib key bytes r
    else if format ≠ plainFormat ∧ format ≠ deflateFormat then .error (.unknownFormat format)
    else if bytes.length < minEnvelopeLength then .error (.truncated bytes.length)
    else do
      let body ← orError .authentication
        (lib.decrypt key (nonceOf bytes) [format] (ciphertextOf bytes r))
      if format = deflateFormat then orError .malformedPayload (inflateRaw lib body r)
      else return body

/-- The two formats. -/
def IsFormat (format : UInt8) : Prop := format = plainFormat ∨ format = deflateFormat

variable {format : UInt8}

theorem IsFormat.not_json (h : IsFormat format) : ¬ isJsonEnvelope format = true := by
  rcases h with rfl | rfl <;> decide

theorem ciphertextOf_eq {bytes : Bytes} (h : minEnvelopeLength ≤ bytes.length) (r : Runtime) :
    ciphertextOf bytes r = bytes.drop (1 + ivLength) := by
  cases r with
  | typescript => rfl
  | python => rfl
  | swift =>
    have hlength : 1 + ivLength ≤ (bytes.take (bytes.length - tagLength)).length := by
      rw [length_take]
      simp only [minEnvelopeLength, ivLength, tagLength] at h ⊢
      omega
    rw [ciphertextOf, ← drop_append_of_le_length hlength, take_append_drop]

/-- **What a reader does with a framed ciphertext.** -/
theorem open_framed (r : Runtime) (key : MeshKey) (hformat : IsFormat format) (iv : Iv) {c : Bytes}
    (hc : tagLength ≤ c.length) :
    openBytes lib r key (frame format iv c) = (do
      let body ← orError .authentication (lib.decrypt key iv [format] c)
      if format = deflateFormat then orError .malformedPayload (inflateRaw lib body r)
      else return body) := by
  have hiv := iv.2
  have hlength : minEnvelopeLength ≤ (frame format iv c).length := by
    rw [frame, length_cons, length_append]
    simp only [minEnvelopeLength, ivLength, tagLength] at hc ⊢
    omega
  have hnonce : nonceOf (frame format iv c) = iv := by
    rw [nonceOf, frame, drop_one, tail_cons]
    exact take_left' hiv
  have hrest : (frame format iv c).drop (1 + ivLength) = c := by
    rw [frame, Nat.add_comm, drop_succ_cons]
    exact drop_left' hiv
  have hopen : openBytes lib r key (frame format iv c) =
      if isJsonEnvelope format = true then openJson lib key (frame format iv c) r
      else if format ≠ plainFormat ∧ format ≠ deflateFormat then .error (.unknownFormat format)
      else if (frame format iv c).length < minEnvelopeLength then
        .error (.truncated (frame format iv c).length)
      else do
        let body ← orError .authentication (lib.decrypt key (nonceOf (frame format iv c)) [format]
          (ciphertextOf (frame format iv c) r))
        if format = deflateFormat then orError .malformedPayload (inflateRaw lib body r)
        else return body := rfl
  rw [hopen, if_neg hformat.not_json, if_neg (by rcases hformat with rfl | rfl <;> simp),
    if_neg (Nat.not_lt.mpr hlength), hnonce, ciphertextOf_eq hlength, hrest]

/-- **What a reader does with less than an envelope.** -/
theorem open_short (r : Runtime) (key : MeshKey) {bytes : Bytes}
    (hformat : ∀ format ∈ bytes.head?, IsFormat format)
    (hlength : bytes.length < minEnvelopeLength) : ∃ e, openBytes lib r key bytes = .error e := by
  cases bytes with
  | nil => exact ⟨.empty, rfl⟩
  | cons format rest =>
    have hformat := hformat format rfl
    refine ⟨.truncated (format :: rest).length, ?_⟩
    rw [openBytes, if_neg hformat.not_json, if_neg (by rcases hformat with rfl | rfl <;> simp),
      if_pos hlength]

/-! ## The nine pairs -/

/-- `PLAIN_FORMAT` for `DEFLATE_FORMAT`, and the other way. -/
def otherFormat (format : UInt8) : UInt8 :=
  if format = plainFormat then deflateFormat else plainFormat

theorem isFormat_otherFormat (format : UInt8) : IsFormat (otherFormat format) := by
  unfold otherFormat
  split_ifs
  · exact .inr rfl
  · exact .inl rfl

theorem otherFormat_ne (h : IsFormat format) : otherFormat format ≠ format := by
  rcases h with rfl | rfl <;> decide

theorem isFormat_sealedInput (w : Runtime) (plaintext : Bytes) :
    IsFormat (sealedInput lib w plaintext).1 := by
  rcases sealedInput_cases lib w plaintext with h | ⟨c, h, -⟩
  · rw [h]
    exact .inl rfl
  · rw [h]
    exact .inr rfl

section OneMessage

variable {lib} {key : MeshKey} {iv : Iv} {format : UInt8} {body : Bytes}
  (hgcm : OpensOnly lib key iv [format] body) (hformat : IsFormat format) (r : Runtime)
include hgcm hformat

omit hformat in
theorem open_forged {format' : UInt8} (hformat' : IsFormat format') {c : Bytes}
    (hc : tagLength ≤ c.length)
    (hne : ¬ (format' = format ∧ c = lib.encrypt key iv [format] body)) :
    openBytes lib r key (frame format' iv c) = .error .authentication := by
  have hnone : lib.decrypt key iv [format'] c = none := by
    cases hp : lib.decrypt key iv [format'] c with
    | none => rfl
    | some p =>
      obtain ⟨hadditional, hbytes, -⟩ := (hgcm _ _ _).mp hp
      exact absurd ⟨head_eq_of_cons_eq hadditional, hbytes⟩ hne
  rw [open_framed lib r key hformat' iv hc, hnone]
  rfl

theorem open_truncated {n : ℕ}
    (hn : n < (frame format iv (lib.encrypt key iv [format] body)).length) :
    ∃ e, openBytes lib r key ((frame format iv (lib.encrypt key iv [format] body)).take n) =
      .error e := by
  have hiv := iv.2
  rw [frame, length_cons, length_append] at hn
  by_cases hshort : n < minEnvelopeLength
  · refine open_short lib r key (fun format' h => ?_) ?_
    · cases n with
      | zero => cases h
      | succ n =>
        obtain rfl := Option.some.inj h
        exact hformat
    · rw [length_take]
      omega
  · simp only [minEnvelopeLength, ivLength, tagLength] at hshort
    obtain ⟨m, rfl⟩ : ∃ m, n = m + 13 := ⟨n - 13, by omega⟩
    -- format and nonce are still there
    have htake : (frame format iv (lib.encrypt key iv [format] body)).take (m + 13) =
        frame format iv ((lib.encrypt key iv [format] body).take m) := by
      rw [frame, take_succ_cons, take_append, hiv,
        take_of_length_le (by rw [hiv]; omega), Nat.add_sub_cancel]
      rfl
    have hshorter : ((lib.encrypt key iv [format] body).take m).length = m := by
      rw [length_take]
      omega
    rw [htake]
    refine ⟨_, open_forged hgcm r hformat ?_ ?_⟩
    · rw [hshorter]
      simp only [tagLength]
      omega
    · rintro ⟨-, hsame⟩
      have hlength := congrArg List.length hsame
      rw [hshorter] at hlength
      omega

end OneMessage

/-- **Envelopes open everywhere.**  What any implementation seals every implementation opens, to
the plaintext; and none of them opens it with the other format byte, or cut off anywhere. -/
theorem envelopes_open_everywhere (w : Runtime) (key : MeshKey) (iv : Iv) (plaintext : Bytes)
    (hgcm : OpensOnly lib key iv [(sealedInput lib w plaintext).1]
      (sealedInput lib w plaintext).2) :
    ∃ format rest, sealBytes lib w key iv plaintext = some (format :: rest) ∧ ∀ r,
      openBytes lib r key (format :: rest) = .ok plaintext ∧
      (∃ e, openBytes lib r key (otherFormat format :: rest) = .error e) ∧
      ∀ n < (format :: rest).length, ∃ e,
        openBytes lib r key ((format :: rest).take n) = .error e := by
  have hformat := isFormat_sealedInput lib w plaintext
  have htag : tagLength ≤ (lib.encrypt key iv [(sealedInput lib w plaintext).1]
      (sealedInput lib w plaintext).2).length := by
    rw [lib.length_encrypt]
    exact Nat.le_add_left 16 _
  refine ⟨_, _, sealBytes_eq lib w key iv plaintext, fun r => ⟨?_, ?_, fun n hn => ?_⟩⟩
  · have hdecrypt := (hgcm _ _ _).mpr ⟨rfl, rfl, rfl⟩
    refine (open_framed lib r key hformat iv htag).trans ?_
    rw [hdecrypt]
    rcases sealedInput_cases lib w plaintext with h | ⟨c, h, hdeflated, hsize⟩
    · rw [h]
      rfl
    · rw [h]
      show orError .malformedPayload (inflateRaw lib c r) = _
      rw [inflate_deflated lib hdeflated hsize r]
      rfl
  · refine ⟨_, open_forged hgcm r (isFormat_otherFormat _) htag ?_⟩
    rintro ⟨hsame, -⟩
    exact otherFormat_ne hformat hsame
  · exact open_truncated hgcm hformat r hn

/-! ### One message -/

/-- A stored block of raw DEFLATE: the last one, its length twice, and the bytes as they are. -/
def storedBlock (p : Bytes) : Bytes :=
  let lo := UInt8.ofNat (p.length % 256)
  let hi := UInt8.ofNat (p.length / 256)
  [1, lo, hi, 255 - lo, 255 - hi] ++ p

/-- Platforms with codecs that only store, and a cipher that has encrypted `message`. -/
def storing (message : Bytes) : Runtimes where
  encrypt _ _ _ p := p ++ List.replicate 16 0
  decrypt _ _ additional c :=
    if additional = [plainFormat] ∧ c = message ++ List.replicate 16 0 then some message else none
  Deflated p c := c = storedBlock p
  tsDeflate p := [storedBlock p]
  tsInflate c := ([c.drop 5], true)
  pyDeflate p := (storedBlock p, [])
  pyInflate c _ := some ⟨c.drop 5, true, []⟩
  swiftEncode p := [⟨storedBlock p, .ended, 0⟩]
  swiftDecode c := [⟨c.drop 5, .ended, 0⟩]
  tsParse _ := none
  tsBase64 _ := none
  pyParse _ := none
  pyBase64 _ := none
  swiftParse _ := none
  swiftBase64 _ := none
  length_encrypt _ _ _ p := by rw [length_append, length_replicate]
  ts_deflates p := by rw [flatten_cons, flatten_nil, append_nil]
  py_deflates p := append_nil _
  swift_deflates p := ⟨storedBlock p, .last _ _, rfl⟩
  ts_inflates p c h := by
    subst h
    exact ⟨append_nil p, rfl⟩
  py_inflates p c limit h _ := by
    subst h
    rfl
  swift_inflates p c h := by
    subst h
    exact .last p []

/-- Three bytes, sealed by Python. -/
theorem three_bytes_open_everywhere :
    ∃ format rest, sealBytes (storing [1, 2, 3]) .python ⟨List.replicate 32 0, by decide⟩
        ⟨List.replicate 12 0, by decide⟩ [1, 2, 3] = some (format :: rest) ∧
      ∀ r, openBytes (storing [1, 2, 3]) r ⟨List.replicate 32 0, by decide⟩ (format :: rest) =
        .ok [1, 2, 3] := by
  have hinput : sealedInput (storing [1, 2, 3]) .python [1, 2, 3] = (plainFormat, [1, 2, 3]) := by
    decide
  have hgcm : OpensOnly (storing [1, 2, 3]) (List.replicate 32 0) (List.replicate 12 0)
      [(sealedInput (storing [1, 2, 3]) .python [1, 2, 3]).1]
      (sealedInput (storing [1, 2, 3]) .python [1, 2, 3]).2 := by
    rw [hinput]
    intro additional c p
    show (if _ then some _ else none) = some p ↔ _
    split_ifs with h
    · constructor
      · intro hp
        exact ⟨h.1, h.2, (Option.some.inj hp).symm⟩
      · rintro ⟨-, -, rfl⟩
        rfl
    · constructor
      · intro hp
        cases hp
      · rintro ⟨hadditional, hc, -⟩
        exact absurd ⟨hadditional, hc⟩ h
  obtain ⟨format, rest, hsealed, hopens⟩ := envelopes_open_everywhere (storing [1, 2, 3]) .python
    ⟨List.replicate 32 0, by decide⟩ ⟨List.replicate 12 0, by decide⟩ [1, 2, 3] hgcm
  exact ⟨format, rest, hsealed, fun r => (hopens r).1⟩

end Interocitor.Envelopes
