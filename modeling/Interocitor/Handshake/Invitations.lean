import Interocitor.Core.Encoding
import Interocitor.Handshake.Channel
import Mathlib.Data.List.TakeWhile

/-!
# `handshake/qr.ts`: invitations

A device that wants to pair shows an invitation, as a QR code or as a link.  It is an object with a
few texts and perhaps a profile of features.  `snapshotHandshakeQRPayload` takes any value, checks
what it needs and keeps only the declared properties.  The invitation is then written as JSON, as
UTF-8 and as URL-safe base64, and for a link appended to the URL of the application as a fragment,
in place of any fragment it has.  The other device goes all the way back and checks what it gets.

Nothing of it is lossy.  Every string survives JSON, with surrogates outside pairs escaped; the text
that goes through UTF-8 has no such surrogates any more; and the characters of base64 are those that
the pattern for the fragment takes.

* `invitations_round_trip`: the whole way.
-/

namespace Interocitor.Handshake

open CodeUnits OrderedRecord JsonText JsonReader List Option

/-! ## Payloads -/

/-- The properties of an invitation. -/
inductive PayloadField where
  | intent
  | handshakeId
  | generatorPub
  | adapterConfig
  | capabilities
  deriving DecidableEq

/-- The name of the property. -/
def PayloadField.key : PayloadField → Text
  | .intent => [105, 110, 116, 101, 110, 116]
  | .handshakeId => [104, 97, 110, 100, 115, 104, 97, 107, 101, 73, 100]
  | .generatorPub => [103, 101, 110, 101, 114, 97, 116, 111, 114, 80, 117, 98]
  | .adapterConfig => [97, 100, 97, 112, 116, 101, 114, 67, 111, 110, 102, 105, 103]
  | .capabilities => [99, 97, 112, 97, 98, 105, 108, 105, 116, 105, 101, 115]

/-- `share`, `join`. -/
def HandshakeIntent.text : HandshakeIntent → Text
  | .share => [115, 104, 97, 114, 101]
  | .join => [106, 111, 105, 110]

/-- What `snapshotHandshakeQRPayload` throws: `Invalid handshake QR payload`, `Invalid handshake
intent`, `Invalid handshake id`, or what is wrong with the profile. -/
inductive PayloadError where
  | invalidPayload
  | invalidIntent
  | invalidId
  | capability (e : CapabilityError)
  deriving DecidableEq

/-- `HandshakeQRPayload`, checked. -/
structure HandshakeQRPayload where
  intent : HandshakeIntent
  handshakeId : Text
  generatorPub : Text
  adapterConfig : Option Text
  capabilities : Option PairingCapabilities
  valid : isValidHandshakeId handshakeId = true

/-- `assertHandshakeIntent`. -/
def checkIntent : JsValue → Except PayloadError HandshakeIntent
  | .string t =>
    if t = HandshakeIntent.share.text then .ok .share
    else if t = HandshakeIntent.join.text then .ok .join
    else .error .invalidIntent
  | _ => .error .invalidIntent

/-- `assertValidHandshakeId`. -/
def checkId : JsValue → Except PayloadError { id : Text // isValidHandshakeId id = true }
  | .string t => if h : isValidHandshakeId t = true then .ok ⟨t, h⟩ else .error .invalidId
  | _ => .error .invalidId

/-- A string. -/
def checkString : JsValue → Except PayloadError Text
  | .string t => .ok t
  | _ => .error .invalidPayload

/-- What a check makes of a property that need not be there. -/
def checkOptional {α : Type} (check : JsValue → Except PayloadError α) :
    JsValue → Except PayloadError (Option α)
  | .undefined => .ok none
  | v => (check v).map some

/-- `snapshotHandshakeQRPayload`. -/
def snapshotHandshakeQRPayload (value : JsValue) : Except PayloadError HandshakeQRPayload :=
  if !isObject value || isArray value then .error .invalidPayload
  else do
    let get := fun field : PayloadField => property field.key value
    let intent ← checkIntent (get .intent)
    let id ← checkId (get .handshakeId)
    let generatorPub ← checkString (get .generatorPub)
    let adapterConfig ← checkOptional checkString (get .adapterConfig)
    let capabilities ← checkOptional
      (fun v => (snapshotPairingCapabilities v).mapError .capability) (get .capabilities)
    return ⟨intent, id.1, generatorPub, adapterConfig, capabilities, id.2⟩

/-- A checked profile as an object. -/
def PairingCapabilities.toValue (c : PairingCapabilities) : JsValue :=
  .object ((ProfileField.supported.key, idsValue c.supported.ids) ::
    (c.required.map fun ids => (ProfileField.required.key, idsValue ids.ids)).toList)

/-- The properties of a checked invitation. -/
def HandshakeQRPayload.fields (p : HandshakeQRPayload) : List (Text × JsValue) :=
  [(PayloadField.intent.key, .string p.intent.text),
    (PayloadField.handshakeId.key, .string p.handshakeId),
    (PayloadField.generatorPub.key, .string p.generatorPub)] ++
    (p.adapterConfig.map fun t => (PayloadField.adapterConfig.key, .string t)).toList ++
    (p.capabilities.map fun c => (PayloadField.capabilities.key, c.toValue)).toList

/-- A checked invitation as an object. -/
def HandshakeQRPayload.toValue (p : HandshakeQRPayload) : JsValue := .object p.fields

/-! ## What was checked passes the check -/

theorem snapshotPairingCapabilities_toValue (c : PairingCapabilities) :
    snapshotPairingCapabilities c.toValue = .ok c := by
  obtain ⟨supported, required⟩ := c
  have hsupported := snapshotIds_idsValue .supported supported
  cases required with
  | none =>
    have hget : property ProfileField.supported.key
        (PairingCapabilities.toValue ⟨supported, none⟩) = idsValue supported.ids := rfl
    have hmissing : property ProfileField.required.key
        (PairingCapabilities.toValue ⟨supported, none⟩) = .undefined := rfl
    rw [snapshotPairingCapabilities, if_neg (by simp [PairingCapabilities.toValue, isObject,
      isArray]), hget, hsupported, hmissing]
    rfl
  | some ids =>
    have hget : property ProfileField.supported.key
        (PairingCapabilities.toValue ⟨supported, some ids⟩) = idsValue supported.ids := rfl
    have hthere : property ProfileField.required.key
        (PairingCapabilities.toValue ⟨supported, some ids⟩) = idsValue ids.ids := rfl
    have hrequired := snapshotIds_idsValue .required ids
    rw [snapshotPairingCapabilities, if_neg (by simp [PairingCapabilities.toValue, isObject,
      isArray]), hget, hsupported, hthere]
    dsimp only [bind, Except.bind]
    rw [if_neg (by simp [idsValue, isUndefined]), hrequired]
    rfl

theorem checkIntent_text (intent : HandshakeIntent) :
    checkIntent (.string intent.text) = .ok intent := by
  cases intent <;> rfl

theorem checkId_valid {id : Text} (h : isValidHandshakeId id = true) :
    checkId (.string id) = .ok ⟨id, h⟩ := by
  rw [checkId, dif_pos h]

theorem checkOptional_getD {α : Type} (check : JsValue → Except PayloadError α) (o : Option α)
    (toValue : α → JsValue) (hdefined : ∀ a, toValue a ≠ .undefined)
    (hcheck : ∀ a, check (toValue a) = .ok a) :
    checkOptional check ((o.map toValue).getD .undefined) = .ok o := by
  cases o with
  | none => rfl
  | some a =>
    have hsome : checkOptional check (toValue a) = (check (toValue a)).map some := by
      cases hv : toValue a with
      | undefined => exact absurd hv (hdefined a)
      | _ => rfl
    rw [map_some, getD_some, hsome, hcheck]
    rfl

/-- **The check accepts what it returned**, and returns the same. -/
theorem snapshot_toValue (p : HandshakeQRPayload) :
    snapshotHandshakeQRPayload p.toValue = .ok p := by
  obtain ⟨intent, id, generatorPub, adapterConfig, capabilities, hvalid⟩ := p
  have hconfig := checkOptional_getD checkString adapterConfig JsValue.string
    (fun _ => by simp) fun _ => rfl
  have hcapabilities := checkOptional_getD
    (fun v => (snapshotPairingCapabilities v).mapError .capability) capabilities
    PairingCapabilities.toValue (fun _ => by simp [PairingCapabilities.toValue]) fun c => by
      rw [snapshotPairingCapabilities_toValue]
      rfl
  generalize hp : (⟨intent, id, generatorPub, adapterConfig, capabilities, hvalid⟩ :
    HandshakeQRPayload) = p
  have hintent : property PayloadField.intent.key p.toValue = .string intent.text := by
    subst hp
    rfl
  have hid : property PayloadField.handshakeId.key p.toValue = .string id := by
    subst hp
    rfl
  have hpub : property PayloadField.generatorPub.key p.toValue = .string generatorPub := by
    subst hp
    rfl
  have hadapter : property PayloadField.adapterConfig.key p.toValue =
      (adapterConfig.map JsValue.string).getD .undefined := by
    subst hp
    cases adapterConfig <;> cases capabilities <;> rfl
  have hprofile : property PayloadField.capabilities.key p.toValue =
      (capabilities.map PairingCapabilities.toValue).getD .undefined := by
    subst hp
    cases adapterConfig <;> cases capabilities <;> rfl
  have hobject : (!isObject p.toValue || isArray p.toValue) = false := rfl
  rw [snapshotHandshakeQRPayload, hobject, if_neg Bool.false_ne_true]
  dsimp only
  rw [hintent, hid, hpub, hadapter, hprofile, checkIntent_text, checkId_valid hvalid, hconfig,
    hcapabilities]
  subst hp
  rfl

/-! ## JSON -/

section Json

variable {P : Printers}

theorem exists_jsonWritten_idsValue (ids : List Text) :
    ∃ s, ∀ n, JsonWritten P (n + 2) s (idsValue ids) := by
  refine ⟨91 :: joined ((ids.map fun id => (quote id, JsValue.string id)).map Prod.fst) ++ [93],
    fun n => ?_⟩
  have hvalues : (ids.map fun id => (quote id, JsValue.string id)).map Prod.snd =
      ids.map .string := by
    rw [List.map_map]
    rfl
  rw [idsValue, ← hvalues]
  refine jsonWritten_array (n := n + 1) fun p hp => ?_
  obtain ⟨id, -, rfl⟩ := mem_map.mp hp
  exact jsonWritten_string n id

theorem exists_jsonWritten_capabilities (c : PairingCapabilities) :
    ∃ s, ∀ n, JsonWritten P (n + 3) s c.toValue := by
  obtain ⟨supported, required⟩ := c
  have hkeys : (((ProfileField.supported.key, idsValue supported.ids) ::
      (required.map fun ids => (ProfileField.required.key, idsValue ids.ids)).toList).map
        Prod.fst).Nodup := by
    cases required <;> simp [ProfileField.key]
  obtain ⟨t, -, ht⟩ := exists_jsonWritten_object (P := P) (k := 2) hkeys fun f hf => by
    rcases mem_cons.mp hf with rfl | hf
    · exact exists_jsonWritten_idsValue supported.ids
    · obtain ⟨ids, -, rfl⟩ := map_eq_some_iff.mp (Option.mem_toList.mp hf)
      exact exists_jsonWritten_idsValue ids.ids
  exact ⟨_, ht⟩

theorem exists_jsonWritten_invitation (p : HandshakeQRPayload) :
    ∃ t, 3 < t.length ∧ ∀ n, JsonWritten P (n + 4) (123 :: t) p.toValue := by
  have hstring : ∀ t : Text, ∃ s, ∀ n, JsonWritten P (n + 3) s (.string t) := fun t =>
    ⟨_, fun n => jsonWritten_string (n + 2) t⟩
  have hfew : 3 ≤ p.fields.length := by
    rw [HandshakeQRPayload.fields, append_assoc, length_append]
    exact Nat.le_add_right 3 _
  have hkeys : (p.fields.map Prod.fst).Nodup := by
    rw [HandshakeQRPayload.fields]
    cases p.adapterConfig <;> cases p.capabilities <;> simp [PayloadField.key]
  obtain ⟨t, hlong, ht⟩ := exists_jsonWritten_object (P := P) (k := 3) hkeys fun f hf => by
    simp only [HandshakeQRPayload.fields, mem_append, mem_cons, not_mem_nil,
      or_false, Option.mem_toList, map_eq_some_iff] at hf
    rcases hf with ((rfl | rfl | rfl) | ⟨t, -, rfl⟩) | ⟨c, -, rfl⟩
    · exact hstring _
    · exact hstring _
    · exact hstring _
    · exact hstring t
    · exact exists_jsonWritten_capabilities c
  exact ⟨t, lt_of_le_of_lt hfew hlong, ht⟩

end Json

/-! ## Invitations as text -/

/-- What `encodeQRPayload` and `decodeQRPayload` throw: what the decoding of base64 throws, what
`JSON.parse` throws, or `Invalid handshake QR payload`. -/
inductive CodecError where
  | base64
  | syntaxError
  | invalidPayload
  deriving DecidableEq

/-- A runtime, as far as an invitation depends on it. -/
structure QRRuntime where
  printers : Printers
  base64 : NativeBase64

section Codec

variable (R : QRRuntime)

/-- `encodeQRPayload`. -/
def encodeQRPayload (payload : JsValue) : Except CodecError Text := do
  let stablePayload ← (snapshotHandshakeQRPayload payload).mapError fun _ => .invalidPayload
  let json := (stringify R.printers stablePayload.toValue).getD []
  return bytesToBase64Url R.base64 (Utf8Text.encode json)

/-- `decodeQRPayload`. -/
def decodeQRPayload (encoded : Text) : Except CodecError HandshakeQRPayload := do
  let bytes ← (base64UrlToBytes R.base64 encoded).elim (.error .base64) .ok
  let payload ← (jsonParse (Utf8Text.decode bytes)).elim (.error .syntaxError) .ok
  (snapshotHandshakeQRPayload payload).mapError fun _ => .invalidPayload

/-- A line terminator, which `.` does not match. -/
def isLineTerminator (u : CodeUnit) : Bool := u = 10 || u = 13 || u = 0x2028 || u = 0x2029

/-- `replace(/#.*$/, "")`. -/
def dropFragment : Text → Text
  | [] => []
  | u :: t => if u = 35 ∧ t.any isLineTerminator = false then [] else u :: dropFragment t

/-- `buildPairUrl`. -/
def buildPairUrl (baseUrl : Text) (payload : JsValue) : Except CodecError Text := do
  let encoded ← encodeQRPayload R payload
  return dropFragment baseUrl ++ ([35, 104, 115, 61] ++ encoded)

/-- What `hs=([A-Za-z0-9_-]+)` captures at the start of a text. -/
def captured (t : Text) : Option Text :=
  if [104, 115, 61].isPrefixOf t then
    let encoded := (t.drop 3).takeWhile Base64.isUrlChar
    if encoded = [] then none else some encoded
  else none

/-- What `[#&]hs=([A-Za-z0-9_-]+)` captures first. -/
def capturedAfterMark : Text → Option Text
  | [] => none
  | u :: t =>
    match if u = 35 ∨ u = 38 then captured t else none with
    | some encoded => some encoded
    | none => capturedAfterMark t

/-- What `(?:^|[#&])hs=([A-Za-z0-9_-]+)` captures first. -/
def capturedFirst (hash : Text) : Option Text :=
  match captured hash with
  | some encoded => some encoded
  | none => capturedAfterMark hash

/-- `parseQRFromUrl`. -/
def parseQRFromUrl (hash : Text) : Option HandshakeQRPayload :=
  (capturedFirst hash).bind fun encoded => (decodeQRPayload R encoded).toOption

/-- The part of a URL from its last `#` on, as an application takes it from `location.hash`. -/
def fromLastHash : Text → Text
  | [] => []
  | u :: t => if u = 35 ∧ t.any (fun v => decide (v = 35)) = false then u :: t else fromLastHash t

/-! ## Round trips -/

/-- **JSON and UTF-8.**  The text of an invitation is read from its bytes. -/
theorem jsonParse_invitation (p : HandshakeQRPayload) :
    ∃ json, stringify R.printers p.toValue = some json ∧
      jsonParse (Utf8Text.decode (Utf8Text.encode json)) = some p.toValue := by
  obtain ⟨t, hlong, ht⟩ := exists_jsonWritten_invitation (P := R.printers) p
  have hwritten : JsonWritten R.printers ((123 :: t).length + 1) (123 :: t) p.toValue := by
    obtain ⟨n, hn⟩ := Nat.exists_eq_add_of_lt hlong
    have hdepth : (123 :: t).length + 1 = (n + 2) + 4 := by
      rw [length_cons]
      omega
    rw [hdepth]
    exact ht _
  refine ⟨123 :: t, hwritten.text, ?_⟩
  rw [Utf8Text.decode_encode (by decide) hwritten.wellFormed, hwritten.jsonParse]

theorem mapError_ok {ε ε' α : Type} (f : ε → ε') (a : α) :
    (Except.ok a : Except ε α).mapError f = .ok a := rfl

/-- **What was shown is read.** -/
theorem decodeQRPayload_encodeQRPayload (p : HandshakeQRPayload) :
    ∃ bytes, bytes ≠ [] ∧
      (∀ payload, snapshotHandshakeQRPayload payload = .ok p →
        encodeQRPayload R payload = .ok (Base64.encodeUrl bytes)) ∧
      decodeQRPayload R (Base64.encodeUrl bytes) = .ok p := by
  obtain ⟨json, hjson, hparse⟩ := jsonParse_invitation R p
  refine ⟨Utf8Text.encode json, ?_, fun payload hpayload => ?_, ?_⟩
  · intro hempty
    have hnothing : jsonParse (Utf8Text.decode []) = none := rfl
    rw [hempty, hnothing] at hparse
    exact absurd hparse (some_ne_none _).symm
  · rw [encodeQRPayload, hpayload, mapError_ok]
    dsimp only [bind, Except.bind]
    rw [hjson, getD_some, bytesToBase64Url_eq]
    rfl
  · rw [decodeQRPayload, ← bytesToBase64Url_eq R.base64, base64UrlToBytes_bytesToBase64Url]
    dsimp only [bind, Except.bind, elim_some]
    rw [hparse]
    dsimp only [elim_some]
    rw [snapshot_toValue, mapError_ok]

theorem capturedFirst_fragment {encoded : Text} (hne : encoded ≠ [])
    (hchars : ∀ u ∈ encoded, Base64.isUrlChar u = true) :
    capturedFirst ([35, 104, 115, 61] ++ encoded) = some encoded := by
  have htake : encoded.takeWhile Base64.isUrlChar = encoded := takeWhile_eq_self_iff.mpr hchars
  have hstart : captured ([35, 104, 115, 61] ++ encoded) = none := rfl
  have hmark : captured ([104, 115, 61] ++ encoded) = some encoded := by
    have hdrop : ([104, 115, 61] ++ encoded).drop 3 = encoded := rfl
    have hprefix : [104, 115, 61].isPrefixOf ([104, 115, 61] ++ encoded) = true := rfl
    rw [captured, if_pos hprefix, hdrop, htake, if_neg hne]
  rw [capturedFirst, hstart]
  dsimp only
  rw [cons_append, capturedAfterMark, if_pos (Or.inl rfl), hmark]

theorem fromLastHash_append (s : Text) {t : Text} (h : (35 : CodeUnit) ∉ t) :
    fromLastHash (s ++ 35 :: t) = 35 :: t := by
  induction s with
  | nil =>
    have hnone : t.any (fun v => decide (v = 35)) = false := by
      rw [List.any_eq_false]
      intro v hv hvalue
      rw [decide_eq_true_eq] at hvalue
      exact h (hvalue ▸ hv)
    rw [nil_append, fromLastHash, if_pos ⟨rfl, hnone⟩]
  | cons u s ih =>
    have hlater : (s ++ 35 :: t).any (fun v => decide (v = 35)) = true :=
      any_eq_true.mpr ⟨35, mem_append_right s mem_cons_self, rfl⟩
    rw [cons_append, fromLastHash, hlater, if_neg fun h => absurd h.2 (by decide), ih]

/-- **Pairing invitations round-trip.**  An invitation that the check accepts is encoded, and the
text is decoded to what the check returned, which is encoded to the same text.  Whatever the base of
a link is, the invitation is found after its last `#`. -/
theorem invitations_round_trip (payload : JsValue) (p : HandshakeQRPayload)
    (h : snapshotHandshakeQRPayload payload = .ok p) :
    ∃ encoded, encodeQRPayload R payload = .ok encoded ∧ decodeQRPayload R encoded = .ok p ∧
      encodeQRPayload R p.toValue = .ok encoded ∧
      ∀ baseUrl, ∃ url, buildPairUrl R baseUrl payload = .ok url ∧
        parseQRFromUrl R (fromLastHash url) = some p := by
  obtain ⟨bytes, hne, hencode, hdecode⟩ := decodeQRPayload_encodeQRPayload R p
  have hpayload := hencode payload h
  refine ⟨_, hpayload, hdecode, hencode p.toValue (snapshot_toValue p), fun baseUrl => ?_⟩
  have hchars : ∀ u ∈ Base64.encodeUrl bytes, Base64.isUrlChar u = true :=
    fun u => Base64.isUrlChar_of_mem
  have hnohash : (35 : CodeUnit) ∉ [104, 115, 61] ++ Base64.encodeUrl bytes := by
    intro hmem
    rcases mem_append.mp hmem with hmem | hmem
    · exact absurd hmem (by decide)
    · exact absurd (hchars 35 hmem) (by decide)
  refine ⟨dropFragment baseUrl ++ ([35, 104, 115, 61] ++ Base64.encodeUrl bytes), ?_, ?_⟩
  · rw [buildPairUrl, hpayload]
    rfl
  · have hlast : fromLastHash (dropFragment baseUrl ++
        ([35, 104, 115, 61] ++ Base64.encodeUrl bytes)) =
          [35, 104, 115, 61] ++ Base64.encodeUrl bytes := fromLastHash_append _ hnohash
    rw [hlast, parseQRFromUrl, capturedFirst_fragment (Base64.encodeUrl_ne_nil hne) hchars,
      bind_some, hdecode]
    rfl

end Codec

/-- A runtime whose numbers and dates do not matter. -/
def plainRuntime : QRRuntime := ⟨⟨fun _ => nullText, fun _ => nullText⟩, .none⟩

/-- An invitation with a key that ends in half a pair, a profile, and a property too many. -/
def oddInvitation : JsValue :=
  .object [(PayloadField.generatorPub.key, .string [77, 0xE9, 0xD83D]), ([120], .number .nan),
    (PayloadField.intent.key, .string HandshakeIntent.join.text),
    (PayloadField.adapterConfig.key, .undefined),
    (PayloadField.handshakeId.key, .string [97, 95, 49]),
    (PayloadField.capabilities.key,
      .object [(ProfileField.supported.key, idsValue [[98], [97], [98]])])]

/-- What the check makes of it. -/
def oddPayload : HandshakeQRPayload where
  intent := .join
  handshakeId := [97, 95, 49]
  generatorPub := [77, 0xE9, 0xD83D]
  adapterConfig := none
  capabilities := some ⟨⟨[[98], [97], [98]], by decide, by decide⟩, none⟩
  valid := by decide

theorem invitations_round_trip_odd : snapshotHandshakeQRPayload oddInvitation = .ok oddPayload ∧
    ∃ encoded, encodeQRPayload plainRuntime oddInvitation = .ok encoded ∧
      decodeQRPayload plainRuntime encoded = .ok oddPayload ∧
      encodeQRPayload plainRuntime oddPayload.toValue = .ok encoded ∧
      ∀ baseUrl, ∃ url, buildPairUrl plainRuntime baseUrl oddInvitation = .ok url ∧
        parseQRFromUrl plainRuntime (fromLastHash url) = some oddPayload :=
  ⟨rfl, invitations_round_trip plainRuntime oddInvitation oddPayload rfl⟩

end Interocitor.Handshake
