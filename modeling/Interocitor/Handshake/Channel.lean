import Interocitor.Foundation.SymbolicChannel
import Interocitor.Handshake.Capabilities

/-!
# `handshake/channel.ts`: the two sides of a handshake

One device shows an invitation, another one scans it.  The invitation does not go over the relay; it
has the public key of the device that made it, the generator, and its profile.  The scanner writes
its own public key and profile to the relay, the generator reads them, and both agree on a key.
Whoever has the credentials seals them under that key and writes them, and the other one opens them.
If one of the two profiles requires something, what is sealed is bound to a transcript of the
negotiation.

Keys and sealed messages are symbols (`Foundation.SymbolicChannel`), and so are the texts they are
written as, of which there may be several for the same bytes.  Everything else in a relay file may
be any value, and is checked as the source checks it.  What `JSON.stringify` makes of a transcript
is taken to be the transcript.  A device that has gone through the negotiation is a `Negotiated`,
which says that it has accepted the two profiles.

* `decryptCredentials_ok`: what is decrypted was sealed under the key and with the transcript.
* `profiles_of_additionalData`: two devices that have the same additional data hold the same
  profiles, if one of them holds a profile that requires something.
* `hears_hello`: a generator that reads the hello of a scanner as it was written holds the profile
  that the scanner has.
-/

namespace Interocitor

open CodeUnits OrderedRecord SymbolicChannel

namespace Handshake

/-! ## Keys and files -/

/-- `HandshakeIntent`, of the device that shows the invitation. -/
inductive HandshakeIntent where
  | share
  | join
  deriving DecidableEq

/-- Who has a key pair: the generator, a scanner, for every scan, and the relay, any number. -/
inductive Party where
  | generator
  | scanner (i : ℕ)
  | relay (i : ℕ)
  deriving DecidableEq

/-- A public key as text.  There are several texts for the same bytes. -/
structure Spki where
  party : Party
  spelling : ℕ
  deriving DecidableEq

/-- `exportECDHPublicKey`. -/
def exportECDHPublicKey (party : Party) : Spki := ⟨party, 0⟩

/-- `HandshakeCredentials`. -/
structure HandshakeCredentials where
  remotePath : Text
  passphrase : Option Text
  connectionConfig : Option Text
  deriving DecidableEq

/-- `CapabilityTranscript`. -/
structure CapabilityTranscript where
  intent : HandshakeIntent
  handshakeId : Text
  generatorPub : Spki
  scannerPub : Spki
  generatorCapabilities : NormalizedPairingCapabilities
  scannerCapabilities : NormalizedPairingCapabilities
  deriving DecidableEq

/-- What is sealed is the text of a JSON value. -/
abbrev Ciphertext := Sealed Party ℕ (Option CapabilityTranscript) JsValue

/-- What may stand in a field of a relay file: a value that has nothing to do with keys, or the text
of a public key, of a nonce, or of a sealed message. -/
inductive Field where
  | value (v : JsValue)
  | pub (p : Spki)
  | iv (nonce spelling : ℕ)
  | ct (c : Ciphertext) (spelling : ℕ)

/-- `typeof field === "string"`. -/
def Field.isString : Field → Bool
  | .value (.string _) => true
  | .value _ => false
  | _ => true

/-- The fields that are read, of either file. -/
structure RelayObject where
  pub : Field
  capabilities : Field
  v : Field
  iv : Field
  ct : Field

/-- What a read from the relay gives: an error, no text at all, a text that is no JSON or has no
fields that could be read, or an object. -/
inductive RelayFile where
  | missing
  | empty
  | malformed
  | object (o : RelayObject)

/-- What the relay has to know to write a field. -/
def Field.terms : Field → List (Term Party ℕ (Option CapabilityTranscript) JsValue)
  | .value _ => []
  | .pub p => [.pub p.party]
  | .iv _ _ => []
  | .ct c _ => [.sealed c]

@[inherit_doc Field.terms]
def RelayFile.terms : RelayFile → List (Term Party ℕ (Option CapabilityTranscript) JsValue)
  | .object o => o.pub.terms ++ o.capabilities.terms ++ o.v.terms ++ o.iv.terms ++ o.ct.terms
  | _ => []

/-- What goes wrong in a handshake. -/
inductive HandshakeError where
  | capability (e : CapabilityError)
  | invalidHandshakeId
  | requiresOwnCredentials
  | invalidScannerHello
  | malformedJson
  | invalidKey
  | unknownEnvelopeVersion
  | requiresVersion2
  | unexpectedBoundEnvelope
  | invalidEnvelope
  | decryptionFailed
  | invalidCredentials
  | writeFailed
  | timedOut

/-- `if (...) throw ...`. -/
def throwIf (p : Prop) [Decidable p] (e : HandshakeError) : Except HandshakeError Unit :=
  if p then .error e else .ok ()

/-! ## Credentials -/

/-- The names of the fields of `CredentialPayload`. -/
def remotePathKey : Text := [114, 101, 109, 111, 116, 101, 80, 97, 116, 104]

@[inherit_doc remotePathKey]
def passphraseKey : Text := [112, 97, 115, 115, 112, 104, 114, 97, 115, 101]

@[inherit_doc remotePathKey]
def connectionConfigKey : Text :=
  [99, 111, 110, 110, 101, 99, 116, 105, 111, 110, 67, 111, 110, 102, 105, 103]

/-- A field that is left out where there is nothing. -/
def optionalField (key : Text) : Option Text → List (Text × JsValue)
  | none => []
  | some t => [(key, .string t)]

/-- The `CredentialPayload` of `encryptCredentials`. -/
def credentialPayload (c : HandshakeCredentials) : JsValue :=
  .object ((remotePathKey, .string c.remotePath) ::
    (optionalField passphraseKey c.passphrase ++
      optionalField connectionConfigKey c.connectionConfig))

/-- A string or nothing. -/
def optionalString : JsValue → Except HandshakeError (Option Text)
  | .undefined => .ok none
  | .string t => .ok (some t)
  | _ => .error .invalidCredentials

/-- The end of `decryptCredentials`. -/
def parseCredentialPayload (raw : JsValue) : Except HandshakeError HandshakeCredentials :=
  match property remotePathKey raw with
  | .string remotePath => do
    let passphrase ← optionalString (property passphraseKey raw)
    let connectionConfig ← optionalString (property connectionConfigKey raw)
    return ⟨remotePath, passphrase, connectionConfig⟩
  | _ => .error .invalidCredentials

theorem parse_credentialPayload (c : HandshakeCredentials) :
    parseCredentialPayload (credentialPayload c) = .ok c := by
  obtain ⟨remotePath, passphrase, connectionConfig⟩ := c
  cases passphrase <;> cases connectionConfig <;> rfl

/-- `encryptCredentials`. -/
def encryptCredentials (wrappingKey : Sym2 Party) (creds : HandshakeCredentials)
    (additionalData : Option CapabilityTranscript) (nonce : ℕ) : RelayFile :=
  .object {
    pub := .value .undefined
    capabilities := .value .undefined
    v := .value (.number (.finite (if additionalData.isSome then 2 else 1)))
    iv := .iv nonce 0
    ct := .ct ⟨wrappingKey, nonce, additionalData, credentialPayload creds⟩ 0 }

/-- The version of an envelope. -/
def envelopeVersion : Field → Except HandshakeError ℕ
  | .value (.number (.finite q)) =>
    if q = 1 then .ok 1 else if q = 2 then .ok 2 else .error .unknownEnvelopeVersion
  | _ => .error .unknownEnvelopeVersion

/-- Base64, and AES-GCM. -/
def decryptField (wrappingKey : Sym2 Party) (additionalData : Option CapabilityTranscript) :
    Field → Field → Except HandshakeError JsValue
  | .iv nonce _, .ct c _ =>
    match c.opened wrappingKey nonce additionalData with
    | some raw => .ok raw
    | none => .error .decryptionFailed
  | _, _ => .error .decryptionFailed

/-- `decryptCredentials`. -/
def decryptCredentials (wrappingKey : Sym2 Party) (file : RelayFile)
    (additionalData : Option CapabilityTranscript) : Except HandshakeError HandshakeCredentials :=
  match file with
  | .object o => do
    let v ← envelopeVersion o.v
    throwIf (v = 1 ∧ additionalData.isSome) .requiresVersion2
    throwIf (v = 2 ∧ additionalData.isNone) .unexpectedBoundEnvelope
    throwIf (!o.iv.isString || !o.ct.isString) .invalidEnvelope
    let raw ← decryptField wrappingKey additionalData o.iv o.ct
    parseCredentialPayload raw
  | _ => .error .malformedJson

theorem decryptField_ok {wrappingKey : Sym2 Party} {additionalData : Option CapabilityTranscript}
    {iv ct : Field} {raw : JsValue} (h : decryptField wrappingKey additionalData iv ct = .ok raw) :
    ∃ c : Ciphertext, .sealed c ∈ ct.terms ∧ c.key = wrappingKey ∧
      c.additional = additionalData ∧ c.plain = raw := by
  unfold decryptField at h
  split at h
  · split at h
    · rename_i nonce _ c _ _ _ hopened
      obtain rfl := Except.ok.inj h
      obtain ⟨hkey, -, hdata, hplain⟩ := Sealed.opened_eq_some.mp hopened
      exact ⟨c, List.mem_singleton_self _, hkey, hdata, hplain⟩
    · exact absurd h (by simp)
  · exact absurd h (by simp)

/-- What is decrypted was sealed under the key, with the additional data. -/
theorem decryptCredentials_ok {wrappingKey : Sym2 Party} {file : RelayFile}
    {additionalData : Option CapabilityTranscript} {creds : HandshakeCredentials}
    (h : decryptCredentials wrappingKey file additionalData = .ok creds) :
    ∃ c : Ciphertext, .sealed c ∈ file.terms ∧ c.key = wrappingKey ∧
      c.additional = additionalData ∧ parseCredentialPayload c.plain = .ok creds := by
  unfold decryptCredentials at h
  split at h
  · rename_i o
    obtain ⟨v, -, h⟩ := of_bind_eq_ok h
    obtain ⟨_, -, h⟩ := of_bind_eq_ok h
    obtain ⟨_, -, h⟩ := of_bind_eq_ok h
    obtain ⟨_, -, h⟩ := of_bind_eq_ok h
    obtain ⟨raw, hraw, h⟩ := of_bind_eq_ok h
    obtain ⟨c, hc, hkey, hdata, rfl⟩ := decryptField_ok hraw
    exact ⟨c, List.mem_append_right _ hc, hkey, hdata, h⟩
  · exact absurd h (by simp)

/-! ## The two sides -/

/-- `isValidHandshakeId`: one to 128 letters, digits, underscores and hyphens. -/
def isValidHandshakeId (id : Text) : Bool :=
  id.length ≥ 1 && id.length ≤ 128 && id.all fun u =>
    65 ≤ u && u ≤ 90 || 97 ≤ u && u ≤ 122 || 48 ≤ u && u ≤ 57 || u = 95 || u = 45

/-- What a device that has gone through the negotiation holds: the two public keys as texts, and the
two profiles, which it has accepted. -/
structure Negotiated where
  intent : HandshakeIntent
  handshakeId : Text
  generatorPub : Spki
  scannerPub : Spki
  generatorCapabilities : NormalizedPairingCapabilities
  scannerCapabilities : NormalizedPairingCapabilities
  compatible : Compatible generatorCapabilities scannerCapabilities

namespace Negotiated

/-- `deriveWrappingKey`, of either side. -/
def wrappingKey (n : Negotiated) : Sym2 Party := s(n.generatorPub.party, n.scannerPub.party)

/-- One of the profiles requires something. -/
def Requires (n : Negotiated) : Prop :=
  n.generatorCapabilities.required.ids ≠ [] ∨ n.scannerCapabilities.required.ids ≠ []

/-- `capabilityTranscriptBytes`. -/
def additionalData (n : Negotiated) : Option CapabilityTranscript :=
  if n.generatorCapabilities.required.ids.length = 0 ∧
      n.scannerCapabilities.required.ids.length = 0 then none
  else some { n with }

/-- The two profiles. -/
def profiles (n : Negotiated) : NormalizedPairingCapabilities × NormalizedPairingCapabilities :=
  (n.generatorCapabilities, n.scannerCapabilities)

theorem additionalData_of_requires {n : Negotiated} (h : n.Requires) :
    n.additionalData = some { n with } := by
  unfold additionalData
  rw [if_neg]
  rintro ⟨hgenerator, hscanner⟩
  rcases h with h | h
  · exact h (List.length_eq_zero_iff.mp hgenerator)
  · exact h (List.length_eq_zero_iff.mp hscanner)

theorem profiles_of_additionalData {n m : Negotiated} (h : n.additionalData = m.additionalData)
    (hrequires : n.Requires ∨ m.Requires) : n.profiles = m.profiles := by
  have key : ∀ {a b : Negotiated}, a.additionalData = b.additionalData → a.Requires →
      a.profiles = b.profiles := by
    intro a b hab ha
    rw [additionalData_of_requires ha] at hab
    unfold additionalData at hab
    split_ifs at hab
    obtain ⟨-, -, -, -, hgenerator, hscanner⟩ := CapabilityTranscript.mk.inj (Option.some.inj hab)
    unfold profiles
    rw [hgenerator, hscanner]
  rcases hrequires with hn | hm
  · exact key h hn
  · exact (key h.symm hm).symm

end Negotiated

/-- A check that was passed. -/
def checkCompatible (own peer : NormalizedPairingCapabilities) :
    Except HandshakeError (PLift (Compatible own peer)) :=
  match h : assertPairingCapabilitiesCompatible own peer with
  | .ok _ => .ok ⟨assertCompatible_ok_iff.mp h⟩
  | .error e => .error (.capability e)

/-- What a profile is normalized to, if it is one. -/
def normalized (value : JsValue) : Except HandshakeError NormalizedPairingCapabilities :=
  (normalizePairingCapabilities value).mapError .capability

/-- A device on its way: it waits for the scanner, it waits for credentials, it has received them,
it has sent them (and the write may have been rejected), or the handshake has failed. -/
inductive Run where
  | waitingHello
  | waitingCredentials (n : Negotiated)
  | received (n : Negotiated) (credentials : HandshakeCredentials)
  | sent (n : Negotiated) (credentials : HandshakeCredentials) (written : Bool)
  | failed (e : HandshakeError)

/-- A call of `complete`. -/
structure GeneratorCall where
  handshakeId : Text
  capabilities : NormalizedPairingCapabilities
  -- `credentialsToShare`
  credentials : Option HandshakeCredentials
  run : Run

/-- `complete`, up to its first read. -/
def complete (intent : HandshakeIntent) (handshakeId : Text)
    (ownCredentials : Option HandshakeCredentials) (capabilities : JsValue) :
    Except HandshakeError GeneratorCall := do
  throwIf (intent = .share ∧ ownCredentials.isNone) .requiresOwnCredentials
  throwIf (!isValidHandshakeId handshakeId) .invalidHandshakeId
  let generatorCapabilities ← normalized capabilities
  let _ ← checkCompatible generatorCapabilities generatorCapabilities
  return ⟨handshakeId, generatorCapabilities, if intent = .share then ownCredentials else none,
    .waitingHello⟩

/-- `ScannerHello`. -/
structure ScannerHello where
  pub : Field
  capabilities : JsValue

/-- `raw.capabilities`, if it may be a profile. -/
def helloCapabilities : Field → Option JsValue
  | .value .undefined => some .undefined
  | .value v => if isPairingCapabilities v then some v else none
  | _ => none

/-- `parseScannerHello`. -/
def parseScannerHello (file : RelayFile) : Except HandshakeError ScannerHello :=
  match file with
  | .object o =>
    if o.pub.isString then
      match helloCapabilities o.capabilities with
      | some capabilities => .ok ⟨o.pub, capabilities⟩
      | none => .error .invalidScannerHello
    else .error .invalidScannerHello
  | _ => .error .malformedJson

/-- `importECDHPublicKey`; the text goes into the transcript as it is. -/
def importECDHPublicKey : Field → Except HandshakeError Spki
  | .pub p => .ok p
  | _ => .error .invalidKey

/-- `complete`, after it has read a scanner's hello. -/
def GeneratorCall.hears (call : GeneratorCall) (intent : HandshakeIntent) (file : RelayFile) :
    Except HandshakeError Negotiated := do
  let hello ← parseScannerHello file
  let scannerCapabilities ← normalized hello.capabilities
  let compatible ← checkCompatible call.capabilities scannerCapabilities
  let scannerPub ← importECDHPublicKey hello.pub
  return ⟨intent, call.handshakeId, exportECDHPublicKey .generator, scannerPub, call.capabilities,
    scannerCapabilities, compatible.down⟩

/-- `runScannerHandshake`, up to its first write. -/
def runScannerHandshake (intent : HandshakeIntent) (handshakeId : Text) (invited : JsValue)
    (ownCredentials : Option HandshakeCredentials) (capabilities : JsValue) (scanner : Party) :
    Except HandshakeError Negotiated := do
  throwIf (!isValidHandshakeId handshakeId) .invalidHandshakeId
  let _ ← (snapshotIfGiven (isUndefined invited) invited).mapError .capability
  throwIf (intent = .join ∧ ownCredentials.isNone) .requiresOwnCredentials
  let generatorCapabilities ← normalized invited
  let scannerCapabilities ← normalized capabilities
  let compatible ← checkCompatible scannerCapabilities generatorCapabilities
  return ⟨intent, handshakeId, exportECDHPublicKey .generator, exportECDHPublicKey scanner,
    generatorCapabilities, scannerCapabilities, compatible.down.symm⟩

/-- The hello of a scanner. -/
def scannerHello (n : Negotiated) : RelayFile :=
  .object {
    pub := .pub n.scannerPub
    capabilities := .value (pairingCapabilitiesForWire n.scannerCapabilities)
    v := .value .undefined
    iv := .value .undefined
    ct := .value .undefined }

/-- The credentials, sealed. -/
def Negotiated.envelope (n : Negotiated) (creds : HandshakeCredentials) (nonce : ℕ) : RelayFile :=
  encryptCredentials n.wrappingKey creds n.additionalData nonce

/-! ## What a negotiation is about -/

theorem terms_scannerHello (n : Negotiated) :
    (scannerHello n).terms = [.pub n.scannerPub.party] := rfl

theorem terms_envelope (n : Negotiated) (creds : HandshakeCredentials) (nonce : ℕ) :
    (n.envelope creds nonce).terms =
      [.sealed ⟨n.wrappingKey, nonce, n.additionalData, credentialPayload creds⟩] := rfl

variable {intent : HandshakeIntent} {n : Negotiated}

theorem hears_generatorPub {call : GeneratorCall} {file : RelayFile}
    (h : call.hears intent file = .ok n) : n.generatorPub.party = .generator := by
  obtain ⟨_, -, h⟩ := of_bind_eq_ok h
  obtain ⟨_, -, h⟩ := of_bind_eq_ok h
  obtain ⟨_, -, h⟩ := of_bind_eq_ok h
  obtain ⟨_, -, h⟩ := of_bind_eq_ok h
  obtain rfl := Except.ok.inj h
  rfl

theorem runScannerHandshake_pubs {handshakeId : Text} {invited capabilities : JsValue}
    {own : Option HandshakeCredentials} {scanner : Party}
    (h : runScannerHandshake intent handshakeId invited own capabilities scanner = .ok n) :
    n.generatorPub.party = .generator ∧ n.scannerPub.party = scanner := by
  obtain ⟨_, -, h⟩ := of_bind_eq_ok h
  obtain ⟨_, -, h⟩ := of_bind_eq_ok h
  obtain ⟨_, -, h⟩ := of_bind_eq_ok h
  obtain ⟨_, -, h⟩ := of_bind_eq_ok h
  obtain ⟨_, -, h⟩ := of_bind_eq_ok h
  obtain ⟨_, -, h⟩ := of_bind_eq_ok h
  obtain rfl := Except.ok.inj h
  exact ⟨rfl, rfl⟩

theorem helloCapabilities_forWire (profile : NormalizedPairingCapabilities) :
    helloCapabilities (.value (pairingCapabilitiesForWire profile)) =
      some (pairingCapabilitiesForWire profile) := by
  have hobject : ∀ fields, normalizePairingCapabilities (.object fields) = .ok profile →
      helloCapabilities (.value (.object fields)) = some (.object fields) := by
    intro fields hfields
    have hprofile : isPairingCapabilities (.object fields) = true := by
      unfold isPairingCapabilities
      rw [hfields]
      rfl
    show (if isPairingCapabilities (.object fields) = true then _ else _) = _
    rw [if_pos hprofile]
  have hnormal := normalize_forWire profile
  unfold pairingCapabilitiesForWire at hnormal ⊢
  split_ifs at hnormal ⊢
  · rfl
  · exact hobject _ hnormal
  · exact hobject _ hnormal

/-- **An honest relay.**  A generator that reads the hello of a scanner as it was written holds the
profile that the scanner has. -/
theorem hears_hello {call : GeneratorCall} {m : Negotiated}
    (h : call.hears intent (scannerHello m) = .ok n) :
    n.scannerCapabilities = m.scannerCapabilities ∧ n.scannerPub = m.scannerPub := by
  obtain ⟨hello, hhello, h⟩ := of_bind_eq_ok h
  obtain ⟨profile, hprofile, h⟩ := of_bind_eq_ok h
  obtain ⟨_, -, h⟩ := of_bind_eq_ok h
  obtain ⟨pub, hpub, h⟩ := of_bind_eq_ok h
  obtain rfl := Except.ok.inj h
  have hread : parseScannerHello (scannerHello m) =
      .ok ⟨.pub m.scannerPub, pairingCapabilitiesForWire m.scannerCapabilities⟩ := by
    have hstring : (Field.pub m.scannerPub).isString = true := rfl
    unfold parseScannerHello scannerHello
    dsimp only
    rw [if_pos hstring, helloCapabilities_forWire]
  rw [hread] at hhello
  obtain rfl := Except.ok.inj hhello
  rw [normalized, normalize_forWire] at hprofile
  exact ⟨(Except.ok.inj hprofile).symm, (Except.ok.inj hpub).symm⟩

end Handshake

end Interocitor
