import Interocitor.Handshake.Capabilities

/-!
# `web/credential-store.ts`: telling a first run from a record that cannot be read

A device keeps its mesh key in a record of the browser's storage, in the clear or in an envelope
under a key that a provider has to produce.  On a start without a key the engine asks for that
record.  If it is told that there is none, it takes the start for the first one and mints a key; on
a device that was in a mesh this forks the mesh, and what is written from then on cannot be merged.
So three layers have to keep "nothing is stored" apart from "what is stored cannot be read": the
store of the record, the store of credentials over it, and the key source over that.

The record is whatever text the storage has under the store's key.  `JSON.parse`, `String`, base64,
UTF-8 and AES-GCM are those of the browser and are arbitrary here, and so is the key provider: it
may answer or throw as it likes.  What is parsed is any value, since nothing about it is checked
but what the source checks.

* `first_run_iff`: the same for the key source, with the credentials that are returned.
-/

namespace Interocitor

open CodeUnits Option
open Handshake (property isObject)

namespace Web

/-! ## The browser -/

/-- A `Uint8Array`. -/
abbrev Bytes := List UInt8

/-- What the stores use of the browser.  `none` is an exception. -/
structure Platform (Key : Type) where
  /-- `JSON.parse`. -/
  parse : Text → Option JsValue
  /-- `String(value)`, which throws for an object without a usable `toString`. -/
  toText : JsValue → Option Text
  /-- `atob`. -/
  atob : Text → Option Bytes
  /-- `TextEncoder`. -/
  encode : Text → Bytes
  /-- `TextDecoder`, which replaces what is not UTF-8. -/
  decode : Bytes → Text
  /-- `crypto.subtle.decrypt` with AES-GCM: key, `iv`, `additionalData`, ciphertext. -/
  decrypt : Key → Bytes → Option Bytes → Bytes → Option Bytes

/-- `Storage.getItem`, where there is a storage. -/
abbrev BrowserStorage := Option (Text → Option Text)

/-- What the storage has under a key. -/
def BrowserStorage.record (storage : BrowserStorage) (key : Text) : Option Text :=
  storage.bind fun getItem => getItem key

/-- `Boolean(value)`. -/
def isTruthy : JsValue → Bool
  | .undefined => false
  | .null => false
  | .bool b => b
  | .number .nan => false
  | .number .negZero => false
  | .number (.finite q) => decide (q ≠ 0)
  | .number _ => true
  | .string s => decide (s ≠ [])
  | _ => true

/-- `value === text`. -/
def isText (text : Text) : JsValue → Bool
  | .string s => decide (s = text)
  | _ => false

/-- `value === n`. -/
def isNumber (n : ℚ) : JsValue → Bool
  | .number (.finite q) => decide (q = n)
  | _ => false

/-- `value ?? default`. -/
def coalesce (value default : JsValue) : JsValue :=
  match value with
  | .undefined => default
  | .null => default
  | v => v

/-! ## Records of credentials -/

/-- `StoredCredentials`. -/
structure StoredCredentials where
  portableKey : Text
  deviceId : Text
  meshId : Option Text
  deriving DecidableEq

/-- `"portableKey"`. -/
def portableKeyName : Text := [112, 111, 114, 116, 97, 98, 108, 101, 75, 101, 121]

/-- `"deviceId"`. -/
def deviceIdName : Text := [100, 101, 118, 105, 99, 101, 73, 100]

/-- `"meshId"`. -/
def meshIdName : Text := [109, 101, 115, 104, 73, 100]

/-- The `meshId` that is spread into the credentials. -/
def meshIdOf : JsValue → Option Text
  | .string m => if m = [] then none else some m
  | _ => none

/-- `normalizeStoredCredentials`. -/
def normalizeStoredCredentials (value : JsValue) : Option StoredCredentials :=
  if isTruthy value = false ∨ isObject value = false then none
  else
    match property portableKeyName value, property deviceIdName value with
    | .string portableKey, .string deviceId =>
      some ⟨portableKey, deviceId, meshIdOf (property meshIdName value)⟩
    | _, _ => none

/-- A value is the record of some credentials. -/
structure Records (value : JsValue) (c : StoredCredentials) : Prop where
  portableKey : property portableKeyName value = .string c.portableKey
  deviceId : property deviceIdName value = .string c.deviceId
  meshId : meshIdOf (property meshIdName value) = c.meshId

/-- A value is an object with a text for a portable key that is as `Q` says, and a text for a device
id. -/
def CredentialsIn (Q : Text → Prop) (value : JsValue) : Prop :=
  ∃ portableKey deviceId, Q portableKey ∧ property portableKeyName value = .string portableKey ∧
    property deviceIdName value = .string deviceId

theorem object_of_property {key : Text} {value : JsValue} {t : Text}
    (h : property key value = .string t) : isTruthy value = true ∧ isObject value = true := by
  cases value with
  | object fields => exact ⟨rfl, rfl⟩
  | undefined => simp [property] at h
  | null => simp [property] at h
  | bool b => simp [property] at h
  | number n => simp [property] at h
  | string s => simp [property] at h
  | date time => simp [property] at h
  | array items => simp [property] at h

theorem normalize_eq_some_iff {value : JsValue} {c : StoredCredentials} :
    normalizeStoredCredentials value = some c ↔ Records value c := by
  constructor
  · intro h
    unfold normalizeStoredCredentials at h
    split at h
    · cases h
    · split at h
      · rename_i portableKey deviceId hkey hdevice
        obtain rfl := some.inj h
        exact ⟨hkey, hdevice, rfl⟩
      · cases h
  · intro h
    obtain ⟨htruthy, hobject⟩ := object_of_property h.portableKey
    rw [normalizeStoredCredentials, if_neg (by simp [htruthy, hobject]), h.portableKey, h.deviceId]
    dsimp only
    rw [h.meshId]

theorem normalize_lost_iff (Q : Text → Prop) (value : JsValue) :
    (∀ c ∈ normalizeStoredCredentials value, ¬ Q c.portableKey) ↔ ¬ CredentialsIn Q value := by
  constructor
  · rintro h ⟨portableKey, deviceId, hQ, hkey, hdevice⟩
    have hrecords : Records value ⟨portableKey, deviceId, meshIdOf (property meshIdName value)⟩ :=
      ⟨hkey, hdevice, rfl⟩
    exact h _ (normalize_eq_some_iff.mpr hrecords) hQ
  · intro h c hc hQ
    have hrecords := normalize_eq_some_iff.mp hc
    exact h ⟨c.portableKey, c.deviceId, hQ, hrecords.portableKey, hrecords.deviceId⟩

/-! ## Errors -/

/-- The messages of `CredentialUnreadableError`. -/
inductive Unreadable where
  /-- `Credential envelope for … decrypted to invalid JSON`. -/
  | invalidJson
  /-- `v1 credential envelope for … failed to decrypt`. -/
  | legacyFailedToDecrypt
  /-- `Credential envelope for … uses unknown KDF …`. -/
  | unknownKdf (name : Text)
  /-- `Credential envelope for … needs a deriving key provider, but … cannot derive`. -/
  | cannotDerive (keyId : Text)
  /-- `Credential envelope for … failed its authenticity check`. -/
  | failedAuthenticityCheck
  deriving DecidableEq

/-- What a `load` throws. -/
inductive LoadError (E : Type) where
  /-- `CredentialUnavailableError`, with its cause. -/
  | unavailable (cause : E)
  /-- `CredentialUnreadableError`. -/
  | unreadable (why : Unreadable)
  /-- An error of the provider, thrown on. -/
  | provider (e : E)
  /-- An exception of the browser. -/
  | thrown

/-- An exception of something that is tried, as the error that is thrown for it. -/
def orThrow {E α : Type} (e : LoadError E) : Option α → Except (LoadError E) α
  | some a => .ok a
  | none => .error e

theorem orThrow_ok_iff {E α : Type} {e : LoadError E} {o : Option α} {a : α} :
    orThrow e o = .ok a ↔ o = some a := by
  cases o <;> simp [orThrow]

theorem bind_ok_iff {ε α β : Type} {x : Except ε α} {f : α → Except ε β} {y : β} :
    (x >>= f) = .ok y ↔ ∃ a, x = .ok a ∧ f a = .ok y := by
  constructor
  · exact Handshake.of_bind_eq_ok
  · rintro ⟨a, rfl, h⟩
    exact h

/-! ## The plain store -/

section Stores

variable {Key E : Type} (b : Platform Key)

/-- The key of `BrowserStorageCredentialStore`: `"interocitor-creds:"` and the name. -/
def plainRecordKey (dbName : Text) : Text :=
  [105, 110, 116, 101, 114, 111, 99, 105, 116, 111, 114, 45, 99, 114, 101, 100, 115, 58] ++ dbName

/-- `BrowserStorageCredentialStore.load`. -/
def BrowserStorageCredentialStore.load (dbName : Text) (storage : BrowserStorage) :
    Except (LoadError E) (Option StoredCredentials) :=
  match storage with
  | none => .ok none
  | some getItem =>
    match getItem (plainRecordKey dbName) with
    | none => .ok none
    | some raw =>
      if raw = [] then .ok none
      else
        match b.parse raw with
        | none => .ok none
        | some value => .ok (normalizeStoredCredentials value)

/-! ## The store of the envelope -/

/-- `"alg"`. -/
def algName : Text := [97, 108, 103]

/-- `"AES-GCM"`. -/
def aesGcm : Text := [65, 69, 83, 45, 71, 67, 77]

/-- `"v"`. -/
def vName : Text := [118]

/-- `"kdf"`. -/
def kdfName : Text := [107, 100, 102]

/-- `"name"`. -/
def nameName : Text := [110, 97, 109, 101]

/-- `"HKDF-SHA-256"`. -/
def hkdfSha256 : Text := [72, 75, 68, 70, 45, 83, 72, 65, 45, 50, 53, 54]

/-- `"salt"`. -/
def saltName : Text := [115, 97, 108, 116]

/-- `"keyId"`. -/
def keyIdName : Text := [107, 101, 121, 73, 100]

/-- `"custom"`. -/
def customKeyId : Text := [99, 117, 115, 116, 111, 109]

/-- `"iv"`. -/
def ivName : Text := [105, 118]

/-- `"ciphertext"`. -/
def ciphertextName : Text := [99, 105, 112, 104, 101, 114, 116, 101, 120, 116]

/-- `"interocitor.credential.envelope.v2|"`. -/
def aadStart : Text :=
  [105, 110, 116, 101, 114, 111, 99, 105, 116, 111, 114, 46, 99, 114, 101, 100, 101, 110, 116, 105,
    97, 108, 46, 101, 110, 118, 101, 108, 111, 112, 101, 46, 118, 50, 124]

/-- The key of `BrowserCredentialEnvelopeStore`: `"interocitor-creds-envelope:"` and the name. -/
def envelopeRecordKey (dbName : Text) : Text :=
  [105, 110, 116, 101, 114, 111, 99, 105, 116, 111, 114, 45, 99, 114, 101, 100, 115, 45, 101, 110,
    118, 101, 108, 111, 112, 101, 58] ++ dbName

/-- An envelope of a kind that the store knows. -/
def knownEnvelope (envelope : JsValue) : Prop :=
  isText aesGcm (property algName envelope) = true ∧
    (isNumber 1 (property vName envelope) = true ∨ isNumber 2 (property vName envelope) = true)

instance (envelope : JsValue) : Decidable (knownEnvelope envelope) :=
  inferInstanceAs (Decidable (_ ∧ _))

/-- `BrowserCredentialEnvelopeStore.load`. -/
def BrowserCredentialEnvelopeStore.load (dbName : Text) (storage : BrowserStorage) :
    Except (LoadError E) (Option JsValue) :=
  match storage with
  | none => .ok none
  | some getItem =>
    match getItem (envelopeRecordKey dbName) with
    | none => .ok none
    | some raw =>
      if raw = [] then .ok none
      else
        match b.parse raw with
        | none => .error .thrown
        | some envelope =>
          if isText aesGcm (property algName envelope) = false then .ok none
          else if isNumber 1 (property vName envelope) = true ∨
              isNumber 2 (property vName envelope) = true then .ok (some envelope)
          else .ok none

/-! ## Keys -/

/-- The purpose of a request. -/
inductive KeyPurpose where
  | encrypt
  | decrypt
  deriving DecidableEq

/-- `CredentialEnvelopeKeyRequest`. -/
structure KeyRequest where
  purpose : KeyPurpose
  dbName : Text
  salt : Bytes
  keyId : JsValue

/-- `CredentialEnvelopeKeyProvider`: it answers or throws. -/
structure KeyProvider (Key E : Type) where
  envelopeKeyId : Option Text
  getKey : KeyRequest → Except E Key
  deriveKey : Option (KeyRequest → Except E Key)
  isCredentialAccessError : E → Bool

variable (provider : KeyProvider Key E) (dbName : Text)

/-- `keyId`. -/
def keyId : Text := provider.envelopeKeyId.getD customKeyId

/-- The method that `requireKey` calls. -/
def keyMethod (derive : Bool) : KeyRequest → Except E Key :=
  if derive then provider.deriveKey.getD provider.getKey else provider.getKey

/-- `requireKey`. -/
def requireKey (request : KeyRequest) (derive : Bool) : Except (LoadError E) Key :=
  match keyMethod provider derive request with
  | .ok key => .ok key
  | .error e =>
    if provider.isCredentialAccessError e then .error (.provider e) else .error (.unavailable e)

theorem requireKey_ok_iff {request : KeyRequest} {derive : Bool} {key : Key} :
    requireKey provider request derive = .ok key ↔
      keyMethod provider derive request = .ok key := by
  unfold requireKey
  cases keyMethod provider derive request with
  | ok k => simp
  | error e =>
    dsimp only
    split <;> simp

/-! ## Opening an envelope -/

/-- `decodeBase64`. -/
def decodeBase64 (value : JsValue) : Option Bytes := (b.toText value).bind b.atob

/-- The bytes of a salt, which may be missing. -/
def saltBytes (saltText : JsValue) : Option Bytes :=
  if isTruthy saltText then decodeBase64 b saltText else some []

/-- `aad`. -/
def aad (keyId saltText : JsValue) : Option Bytes := do
  let k ← b.toText keyId
  let s ← b.toText saltText
  return b.encode (aadStart ++ dbName ++ [124] ++ k ++ [124] ++ s)

/-- `crypto.subtle.decrypt` of the fields of an envelope, without additional data. -/
def openLegacy (key : Key) (envelope : JsValue) : Option Bytes := do
  let iv ← decodeBase64 b (property ivName envelope)
  let ciphertext ← decodeBase64 b (property ciphertextName envelope)
  b.decrypt key iv none ciphertext

/-- `crypto.subtle.decrypt` of the fields of an envelope, with the additional data. -/
def openBound (key : Key) (envelope keyId saltText : JsValue) : Option Bytes := do
  let iv ← decodeBase64 b (property ivName envelope)
  let additionalData ← aad b dbName keyId saltText
  let ciphertext ← decodeBase64 b (property ciphertextName envelope)
  b.decrypt key iv (some additionalData) ciphertext

/-- The request of `decryptV1`. -/
def legacyRequest : KeyRequest := ⟨.decrypt, dbName, [], .string (keyId provider)⟩

/-- `decryptV1`. -/
def decryptV1 (envelope : JsValue) : Except (LoadError E) Bytes := do
  let key ← requireKey provider (legacyRequest provider dbName) false
  orThrow (.unreadable .legacyFailedToDecrypt) (openLegacy b key envelope)

/-- `envelope.kdf?.salt ?? ""`. -/
def saltTextOf (envelope : JsValue) : JsValue :=
  coalesce (property saltName (property kdfName envelope)) (.string [])

/-- `envelope.keyId ?? "custom"`. -/
def keyIdOf (envelope : JsValue) : JsValue :=
  coalesce (property keyIdName envelope) (.string customKeyId)

/-- The error for a KDF that is not known; building its message may throw. -/
def unknownKdf (name : JsValue) : LoadError E :=
  match b.toText name with
  | some text => .unreadable (.unknownKdf text)
  | none => .thrown

/-- `decryptV2`. -/
def decryptV2 (envelope : JsValue) : Except (LoadError E) Bytes :=
  let kdf := property kdfName envelope
  let derive := isTruthy kdf
  if derive = true ∧ isText hkdfSha256 (property nameName kdf) = false then
    .error (unknownKdf b (property nameName kdf))
  else if derive = true ∧ provider.deriveKey.isNone = true then
    .error (.unreadable (.cannotDerive (keyId provider)))
  else do
    let salt ← orThrow .thrown (saltBytes b (saltTextOf envelope))
    let key ← requireKey provider ⟨.decrypt, dbName, salt, keyIdOf envelope⟩ derive
    orThrow (.unreadable .failedAuthenticityCheck)
      (openBound b dbName key envelope (keyIdOf envelope) (saltTextOf envelope))

/-- The version decides how an envelope is decrypted. -/
def decryptEnvelope (envelope : JsValue) : Except (LoadError E) Bytes :=
  if isNumber 1 (property vName envelope) = true then decryptV1 b provider dbName envelope
  else decryptV2 b provider dbName envelope

/-- `EnvelopedCredentialStore.load`, over a `BrowserCredentialEnvelopeStore`. -/
def EnvelopedCredentialStore.load (storage : BrowserStorage) :
    Except (LoadError E) (Option StoredCredentials) := do
  match ← BrowserCredentialEnvelopeStore.load b dbName storage with
  | none => .ok none
  | some envelope =>
    let plaintext ← decryptEnvelope b provider dbName envelope
    let value ← orThrow (.unreadable .invalidJson) (b.parse (b.decode plaintext))
    return normalizeStoredCredentials value

/-- **An envelope and what is in it.**  The provider has a key for it, and under that key its
fields decrypt to the plaintext. -/
inductive Opens (envelope : JsValue) (plaintext : Bytes) : Prop
  | legacy (key : Key) (version : isNumber 1 (property vName envelope) = true)
      (granted : provider.getKey (legacyRequest provider dbName) = .ok key)
      (opened : openLegacy b key envelope = some plaintext)
  | plain (key : Key) (salt : Bytes) (version : isNumber 1 (property vName envelope) = false)
      (kdf : isTruthy (property kdfName envelope) = false)
      (salted : saltBytes b (saltTextOf envelope) = some salt)
      (granted : provider.getKey ⟨.decrypt, dbName, salt, keyIdOf envelope⟩ = .ok key)
      (opened : openBound b dbName key envelope (keyIdOf envelope) (saltTextOf envelope) =
        some plaintext)
  | derived (key : Key) (salt : Bytes) (deriveKey : KeyRequest → Except E Key)
      (version : isNumber 1 (property vName envelope) = false)
      (kdf : isTruthy (property kdfName envelope) = true)
      (name : isText hkdfSha256 (property nameName (property kdfName envelope)) = true)
      (method : provider.deriveKey = some deriveKey)
      (salted : saltBytes b (saltTextOf envelope) = some salt)
      (granted : deriveKey ⟨.decrypt, dbName, salt, keyIdOf envelope⟩ = .ok key)
      (opened : openBound b dbName key envelope (keyIdOf envelope) (saltTextOf envelope) =
        some plaintext)

variable {envelope : JsValue} {plaintext : Bytes}

theorem decryptV1_ok_iff :
    decryptV1 b provider dbName envelope = .ok plaintext ↔
      ∃ key, provider.getKey (legacyRequest provider dbName) = .ok key ∧
        openLegacy b key envelope = some plaintext := by
  simp only [decryptV1, bind_ok_iff, requireKey_ok_iff, orThrow_ok_iff, keyMethod,
    Bool.false_eq_true, if_false]

theorem decryptV2_ok_iff :
    decryptV2 b provider dbName envelope = .ok plaintext ↔
      (isTruthy (property kdfName envelope) = true →
        isText hkdfSha256 (property nameName (property kdfName envelope)) = true ∧
          provider.deriveKey.isSome = true) ∧
      ∃ salt, saltBytes b (saltTextOf envelope) = some salt ∧
        ∃ key, keyMethod provider (isTruthy (property kdfName envelope))
            ⟨.decrypt, dbName, salt, keyIdOf envelope⟩ = .ok key ∧
          openBound b dbName key envelope (keyIdOf envelope) (saltTextOf envelope) =
            some plaintext := by
  unfold decryptV2
  dsimp only
  split_ifs with hname hderive
  · constructor
    · intro h
      cases h
    · rintro ⟨h, -⟩
      rw [(h hname.1).1] at hname
      exact absurd hname.2 (by simp)
  · constructor
    · intro h
      cases h
    · rintro ⟨h, -⟩
      have hsome := (h hderive.1).2
      rw [isNone_iff_eq_none.mp hderive.2] at hsome
      exact absurd hsome (by simp)
  · simp only [bind_ok_iff, requireKey_ok_iff, orThrow_ok_iff]
    constructor
    · intro h
      refine ⟨fun hkdf => ⟨?_, ?_⟩, h⟩
      · cases htext : isText hkdfSha256 (property nameName (property kdfName envelope)) with
        | true => rfl
        | false => exact absurd ⟨hkdf, htext⟩ hname
      · rw [← not_isNone, Bool.not_eq_true']
        cases hnone : provider.deriveKey.isNone with
        | false => rfl
        | true => exact absurd ⟨hkdf, hnone⟩ hderive
    · rintro ⟨-, h⟩
      exact h

theorem decryptEnvelope_ok_iff :
    decryptEnvelope b provider dbName envelope = .ok plaintext ↔
      Opens b provider dbName envelope plaintext := by
  unfold decryptEnvelope
  cases hversion : isNumber 1 (property vName envelope) with
  | true =>
    rw [if_pos rfl, decryptV1_ok_iff]
    constructor
    · rintro ⟨key, hkey, hopen⟩
      exact .legacy key hversion hkey hopen
    · intro h
      cases h with
      | legacy key _ hkey hopen => exact ⟨key, hkey, hopen⟩
      | plain key salt hnot => exact absurd (hversion.symm.trans hnot) (by simp)
      | derived key salt deriveKey hnot => exact absurd (hversion.symm.trans hnot) (by simp)
  | false =>
    rw [if_neg (by simp), decryptV2_ok_iff]
    constructor
    · rintro ⟨hkdf, salt, hsalt, key, hkey, hopen⟩
      cases htruthy : isTruthy (property kdfName envelope) with
      | false =>
        rw [htruthy, keyMethod, if_neg (by simp)] at hkey
        exact .plain key salt hversion htruthy hsalt hkey hopen
      | true =>
        obtain ⟨hname, hsome⟩ := hkdf htruthy
        obtain ⟨deriveKey, hderive⟩ := isSome_iff_exists.mp hsome
        rw [htruthy, keyMethod, if_pos rfl, hderive, getD_some] at hkey
        exact .derived key salt deriveKey hversion htruthy hname hderive hsalt hkey hopen
    · intro h
      cases h with
      | legacy key hone => exact absurd (hversion.symm.trans hone) (by simp)
      | plain key salt _ htruthy hsalt hkey hopen =>
        refine ⟨fun hkdf => absurd (htruthy.symm.trans hkdf) (by simp), salt, hsalt, key, ?_, hopen⟩
        rw [htruthy, keyMethod, if_neg (by simp)]
        exact hkey
      | derived key salt deriveKey _ htruthy hname hderive hsalt hkey hopen =>
        refine ⟨fun _ => ⟨hname, by rw [hderive]; rfl⟩, salt, hsalt, key, ?_, hopen⟩
        rw [htruthy, keyMethod, if_pos rfl, hderive, getD_some]
        exact hkey

/-! ## Which records are kept apart from a missing one -/

/-- A `load` came back without a key that is as `Q` says. -/
def Lost (Q : Text → Prop) (result : Except (LoadError E) (Option StoredCredentials)) : Prop :=
  ∃ credentials, result = .ok credentials ∧ ∀ c ∈ credentials, ¬ Q c.portableKey

theorem lost_error {Q : Text → Prop} {e : LoadError E} :
    ¬ Lost Q (.error e : Except (LoadError E) (Option StoredCredentials)) := by
  rintro ⟨credentials, h, -⟩
  cases h

theorem lost_ok_iff {Q : Text → Prop} {credentials : Option StoredCredentials} :
    Lost Q (.ok credentials : Except (LoadError E) (Option StoredCredentials)) ↔
      ∀ c ∈ credentials, ¬ Q c.portableKey := by
  constructor
  · rintro ⟨credentials', h, hlost⟩
    obtain rfl := Except.ok.inj h
    exact hlost
  · exact fun h => ⟨credentials, rfl, h⟩

theorem lost_true_iff {result : Except (LoadError E) (Option StoredCredentials)} :
    Lost (fun _ => True) result ↔ result = .ok none := by
  constructor
  · rintro ⟨credentials, rfl, h⟩
    cases credentials with
    | none => rfl
    | some c => exact absurd trivial (h c rfl)
  · rintro rfl
    exact ⟨none, rfl, by simp⟩

/-- **A plain record that can be read.**  It is the text of an object with a portable key and a
device id. -/
def PlainReadable (Q : Text → Prop) (raw : Text) : Prop :=
  raw ≠ [] ∧ ∃ value, b.parse raw = some value ∧ CredentialsIn Q value

/-- **An enveloped record that can be read, or is known not to be.**  If it is the text of a value
at all, this is an envelope of a known kind; and if that opens to the text of a value, this is a
record of credentials. -/
def EnvelopeReadable (Q : Text → Prop) (raw : Text) : Prop :=
  raw ≠ [] ∧ ∀ envelope, b.parse raw = some envelope → knownEnvelope envelope ∧
    ∀ plaintext, Opens b provider dbName envelope plaintext →
      ∀ value, b.parse (b.decode plaintext) = some value → CredentialsIn Q value

/-- **The plain store.** -/
theorem plain_absent_iff (Q : Text → Prop) (storage : BrowserStorage) :
    (Lost Q (BrowserStorageCredentialStore.load (E := E) b dbName storage) →
        storage.record (plainRecordKey dbName) = none) ↔
      ∀ raw, storage.record (plainRecordKey dbName) = some raw → PlainReadable b Q raw := by
  unfold BrowserStorageCredentialStore.load
  cases storage with
  | none => simp [BrowserStorage.record]
  | some getItem =>
    cases hget : getItem (plainRecordKey dbName) with
    | none => simp [BrowserStorage.record, hget]
    | some raw =>
      have hrecord : BrowserStorage.record (some getItem) (plainRecordKey dbName) = some raw := hget
      simp only [hrecord, hget, reduceCtorEq, imp_false, some.injEq, forall_eq']
      by_cases hraw : raw = []
      · rw [if_pos hraw, lost_ok_iff]
        simp [PlainReadable, hraw]
      · rw [if_neg hraw]
        cases hparse : b.parse raw with
        | none =>
          rw [lost_ok_iff]
          simp [PlainReadable, hparse]
        | some value =>
          rw [lost_ok_iff, normalize_lost_iff, not_not]
          simp [PlainReadable, hraw, hparse]

theorem envelopeStore_load_some {getItem : Text → Option Text} {raw : Text}
    (hget : getItem (envelopeRecordKey dbName) = some raw) (hraw : raw ≠ [])
    (hparse : b.parse raw = some envelope) :
    BrowserCredentialEnvelopeStore.load (E := E) b dbName (some getItem) =
      .ok (if knownEnvelope envelope then some envelope else none) := by
  simp only [BrowserCredentialEnvelopeStore.load, hget, if_neg hraw, hparse]
  cases halg : isText aesGcm (property algName envelope) with
  | false => simp [knownEnvelope, halg]
  | true =>
    by_cases hversion : isNumber 1 (property vName envelope) = true ∨
        isNumber 2 (property vName envelope) = true
    · simp [knownEnvelope, halg, hversion]
    · simp [knownEnvelope, halg, hversion]

/-- The store of credentials over an envelope that has been found. -/
theorem enveloped_lost_iff (Q : Text → Prop) (envelope : JsValue) :
    Lost Q (do
      let plaintext ← decryptEnvelope b provider dbName envelope
      let value ← orThrow (.unreadable .invalidJson) (b.parse (b.decode plaintext))
      return normalizeStoredCredentials value) ↔
      ∃ plaintext, Opens b provider dbName envelope plaintext ∧
        ∃ value, b.parse (b.decode plaintext) = some value ∧ ¬ CredentialsIn Q value := by
  constructor
  · rintro ⟨credentials, h, hlost⟩
    obtain ⟨plaintext, hplaintext, h⟩ := bind_ok_iff.mp h
    obtain ⟨value, hvalue, h⟩ := bind_ok_iff.mp h
    obtain rfl := Except.ok.inj h
    exact ⟨plaintext, (decryptEnvelope_ok_iff b provider dbName).mp hplaintext, value,
      orThrow_ok_iff.mp hvalue, (normalize_lost_iff Q value).mp hlost⟩
  · rintro ⟨plaintext, hopens, value, hvalue, hnot⟩
    refine ⟨normalizeStoredCredentials value, ?_, (normalize_lost_iff Q value).mpr hnot⟩
    rw [bind_ok_iff]
    refine ⟨plaintext, (decryptEnvelope_ok_iff b provider dbName).mpr hopens, ?_⟩
    rw [bind_ok_iff]
    exact ⟨value, orThrow_ok_iff.mpr hvalue, rfl⟩

/-- **The enveloped store.** -/
theorem enveloped_absent_iff (Q : Text → Prop) (storage : BrowserStorage) :
    (Lost Q (EnvelopedCredentialStore.load b provider dbName storage) →
        storage.record (envelopeRecordKey dbName) = none) ↔
      ∀ raw, storage.record (envelopeRecordKey dbName) = some raw →
        EnvelopeReadable b provider dbName Q raw := by
  unfold EnvelopedCredentialStore.load
  cases storage with
  | none => simp [BrowserStorage.record]
  | some getItem =>
    cases hget : getItem (envelopeRecordKey dbName) with
    | none => simp [BrowserStorage.record, hget]
    | some raw =>
      have hrecord : BrowserStorage.record (some getItem) (envelopeRecordKey dbName) = some raw :=
        hget
      simp only [hrecord, reduceCtorEq, imp_false, some.injEq, forall_eq']
      by_cases hraw : raw = []
      · have hload : BrowserCredentialEnvelopeStore.load (E := E) b dbName (some getItem) =
            .ok none := by
          simp [BrowserCredentialEnvelopeStore.load, hget, hraw]
        rw [hload]
        constructor
        · intro hnot
          exact absurd (lost_ok_iff.mpr (by simp)) hnot
        · intro hreadable
          exact absurd hraw hreadable.1
      · cases hparse : b.parse raw with
        | none =>
          have hload : BrowserCredentialEnvelopeStore.load (E := E) b dbName (some getItem) =
              .error .thrown := by
            simp [BrowserCredentialEnvelopeStore.load, hget, hraw, hparse]
          rw [hload]
          constructor
          · exact fun _ => ⟨hraw, by simp [hparse]⟩
          · exact fun _ => lost_error
        | some envelope =>
          rw [envelopeStore_load_some b dbName hget hraw hparse]
          simp only [EnvelopeReadable, hraw, ne_eq, not_false_eq_true, true_and, hparse,
            some.injEq, forall_eq']
          by_cases hknown : knownEnvelope envelope
          · rw [if_pos hknown]
            refine (not_congr (enveloped_lost_iff b provider dbName Q envelope)).trans ?_
            simp only [hknown, true_and]
            push Not
            rfl
          · rw [if_neg hknown]
            constructor
            · intro hnot
              exact absurd (lost_ok_iff.mpr (by simp)) hnot
            · intro hreadable
              exact absurd hreadable.1 hknown

/-! ## What is returned -/

/-- The credentials of a plain record. -/
def PlainStored (storage : BrowserStorage) (c : StoredCredentials) : Prop :=
  ∃ raw value, storage.record (plainRecordKey dbName) = some raw ∧ b.parse raw = some value ∧
    Records value c

/-- The credentials of an enveloped record. -/
def EnvelopeStored (storage : BrowserStorage) (c : StoredCredentials) : Prop :=
  ∃ raw envelope plaintext value, storage.record (envelopeRecordKey dbName) = some raw ∧
    b.parse raw = some envelope ∧ Opens b provider dbName envelope plaintext ∧
    b.parse (b.decode plaintext) = some value ∧ Records value c

variable {storage : BrowserStorage}

theorem plain_returns {c : StoredCredentials}
    (h : BrowserStorageCredentialStore.load (E := E) b dbName storage = .ok (some c)) :
    PlainStored b dbName storage c := by
  unfold BrowserStorageCredentialStore.load at h
  split at h
  · cases h
  · rename_i getItem
    split at h
    · cases h
    · rename_i raw hget
      split_ifs at h
      · cases h
      · split at h
        · cases h
        · rename_i value hparse
          exact ⟨raw, value, hget, hparse, normalize_eq_some_iff.mp (Except.ok.inj h)⟩

theorem envelopeStore_returns
    (h : BrowserCredentialEnvelopeStore.load (E := E) b dbName storage = .ok (some envelope)) :
    ∃ raw, storage.record (envelopeRecordKey dbName) = some raw ∧
      b.parse raw = some envelope := by
  unfold BrowserCredentialEnvelopeStore.load at h
  split at h
  · cases h
  · rename_i getItem
    split at h
    · cases h
    · rename_i raw hget
      split_ifs at h
      · cases h
      · split at h
        · cases h
        · rename_i value hparse
          split_ifs at h
          · cases h
          · obtain rfl := some.inj (Except.ok.inj h)
            exact ⟨raw, hget, hparse⟩
          · cases h

theorem enveloped_returns {c : StoredCredentials}
    (h : EnvelopedCredentialStore.load b provider dbName storage = .ok (some c)) :
    EnvelopeStored b provider dbName storage c := by
  unfold EnvelopedCredentialStore.load at h
  obtain ⟨found, hfound, h⟩ := bind_ok_iff.mp h
  cases found with
  | none => cases h
  | some envelope =>
    obtain ⟨raw, hraw, hparse⟩ := envelopeStore_returns b dbName hfound
    obtain ⟨plaintext, hplaintext, h⟩ := bind_ok_iff.mp h
    obtain ⟨value, hvalue, h⟩ := bind_ok_iff.mp h
    exact ⟨raw, envelope, plaintext, value, hraw, hparse,
      (decryptEnvelope_ok_iff b provider dbName).mp hplaintext, orThrow_ok_iff.mp hvalue,
      normalize_eq_some_iff.mp (Except.ok.inj h)⟩

end Stores

/-! ## The key source -/

/-- `MeshCredentialStatus`, of a source that does not throw. -/
inductive CredentialStatus where
  | present
  | absent
  deriving DecidableEq

/-- `MeshCredentialLoadResult`. -/
structure MeshCredentialLoadResult where
  status : CredentialStatus
  credentials : Option StoredCredentials

/-- `MeshKeyMaterial`; the `key` of this source is always `null`. -/
structure MeshKeyMaterial where
  encrypted : Bool
  portableKey : Option Text
  credentialStatus : CredentialStatus

/-- `readCredentialState`.  None of the stores above has the hook `loadCredentialState`. -/
def readCredentialState {ε : Type} (store : Option (Except ε (Option StoredCredentials))) :
    Except ε MeshCredentialLoadResult :=
  match store with
  | none => .ok ⟨.absent, none⟩
  | some load => do
    match ← load with
    | none => return ⟨.absent, none⟩
    | some credentials =>
      if credentials.portableKey = [] then return ⟨.absent, none⟩
      else return ⟨.present, some credentials⟩

/-- `stored?.portableKey`, if it is not empty. -/
def storedKey (stored : Option StoredCredentials) : Option Text :=
  stored.bind fun c => if c.portableKey = [] then none else some c.portableKey

theorem storedKey_eq_none_iff {stored : Option StoredCredentials} :
    storedKey stored = none ↔ ∀ c ∈ stored, ¬ c.portableKey ≠ [] := by
  cases stored with
  | none => simp [storedKey]
  | some c => simp [storedKey]

theorem readCredentialState_ok (E : Type) (credentials : Option StoredCredentials) :
    ∃ state, readCredentialState (some (.ok credentials : Except E _)) = .ok state ∧
      storedKey state.credentials = storedKey credentials := by
  cases credentials with
  | none => exact ⟨⟨.absent, none⟩, rfl, rfl⟩
  | some c =>
    by_cases hkey : c.portableKey = []
    · refine ⟨⟨.absent, none⟩, ?_, ?_⟩
      · show (if c.portableKey = [] then _ else _) = _
        rw [if_pos hkey]
        rfl
      · simp [storedKey, hkey]
    · refine ⟨⟨.present, some c⟩, ?_, rfl⟩
      show (if c.portableKey = [] then _ else _) = _
      rw [if_neg hkey]
      rfl

/-- `PortablePassphraseKeySource`. -/
structure PortablePassphraseKeySource where
  portableKey : Option Text
  generateIfMissing : Bool

namespace PortablePassphraseKeySource

variable {ε : Type} (source : PortablePassphraseKeySource)

/-- The key that the source has been given or has loaded, if it is not empty. -/
def ownKey : Option Text := source.portableKey.filter fun k => decide (k ≠ [])

/-- The end of `load`, for what the store holds. -/
def fromStored (stored : Option StoredCredentials) :
    MeshKeyMaterial × PortablePassphraseKeySource :=
  match storedKey stored with
  | some k => (⟨true, some k, .present⟩, { source with portableKey := some k })
  | none => (⟨source.generateIfMissing, none, .absent⟩, source)

/-- `load`: the material, and the source afterwards. -/
def load (store : Option (Except ε (Option StoredCredentials))) :
    Except ε (MeshKeyMaterial × PortablePassphraseKeySource) :=
  match source.ownKey with
  | some k => .ok (⟨true, some k, .present⟩, source)
  | none => do
    let state ← readCredentialState store
    return source.fromStored state.credentials

/-- The source reports that there are no credentials. -/
def ReportsAbsent (store : Option (Except ε (Option StoredCredentials))) : Prop :=
  ∃ material source', source.load store = .ok (material, source') ∧
    material.credentialStatus = .absent

theorem fromStored_absent_iff (stored : Option StoredCredentials) :
    (source.fromStored stored).1.credentialStatus = .absent ↔ storedKey stored = none := by
  unfold fromStored
  cases storedKey stored <;> simp

theorem reportsAbsent_iff {E : Type}
    (result : Except (LoadError E) (Option StoredCredentials)) :
    source.ReportsAbsent (some result) ↔
      source.ownKey = none ∧ Lost (fun k => k ≠ []) result := by
  unfold ReportsAbsent load
  cases source.ownKey with
  | some k => simp
  | none =>
    cases result with
    | error e =>
      simp only [true_and, lost_error, iff_false]
      rintro ⟨material, source', h, -⟩
      cases h
    | ok credentials =>
      obtain ⟨state, hstate, hkey⟩ := readCredentialState_ok (LoadError E) credentials
      rw [lost_ok_iff, ← storedKey_eq_none_iff, ← hkey, ← source.fromStored_absent_iff]
      dsimp only
      rw [hstate]
      constructor
      · rintro ⟨material, source', h, habsent⟩
        have hpair : source.fromStored state.credentials = (material, source') := Except.ok.inj h
        rw [hpair]
        exact ⟨rfl, habsent⟩
      · rintro ⟨-, habsent⟩
        exact ⟨_, _, rfl, habsent⟩

end PortablePassphraseKeySource

/-! ## The contract -/

section Contract

variable {Key E : Type} (b : Platform Key) (provider : KeyProvider Key E) (dbName : Text)

/-- **A stored credential is not mistaken for a first run**, as far as a `load` over a record goes:
`null` says that there is no record, and whatever else is returned is what the record holds. -/
def KeepsApart (record : Option Text) (stored : StoredCredentials → Prop)
    (result : Except (LoadError E) (Option StoredCredentials)) : Prop :=
  (result = .ok none → record = none) ∧ ∀ c, result = .ok (some c) → stored c

/-- **Which records are not mistaken for a first run.**  Both stores, and the key source over each
of them, report absence only where nothing is stored, if and only if the record is one of those
that they can read to the end, or raise for. -/
theorem first_run_iff (storage : BrowserStorage) (source : PortablePassphraseKeySource) :
    (KeepsApart (storage.record (plainRecordKey dbName)) (PlainStored b dbName storage)
        (BrowserStorageCredentialStore.load (E := E) b dbName storage) ↔
      ∀ raw, storage.record (plainRecordKey dbName) = some raw →
        PlainReadable b (fun _ => True) raw) ∧
    (KeepsApart (storage.record (envelopeRecordKey dbName))
        (EnvelopeStored b provider dbName storage)
        (EnvelopedCredentialStore.load b provider dbName storage) ↔
      ∀ raw, storage.record (envelopeRecordKey dbName) = some raw →
        EnvelopeReadable b provider dbName (fun _ => True) raw) ∧
    ((source.ReportsAbsent (some (BrowserStorageCredentialStore.load (E := E) b dbName storage)) →
        storage.record (plainRecordKey dbName) = none) ↔
      source.ownKey ≠ none ∨ ∀ raw, storage.record (plainRecordKey dbName) = some raw →
        PlainReadable b (fun k => k ≠ []) raw) ∧
    ((source.ReportsAbsent (some (EnvelopedCredentialStore.load b provider dbName storage)) →
        storage.record (envelopeRecordKey dbName) = none) ↔
      source.ownKey ≠ none ∨ ∀ raw, storage.record (envelopeRecordKey dbName) = some raw →
        EnvelopeReadable b provider dbName (fun k => k ≠ []) raw) := by
  refine ⟨?_, ?_, ?_, ?_⟩
  · rw [← plain_absent_iff (E := E), lost_true_iff]
    exact ⟨fun h => h.1, fun h => ⟨h, fun c => plain_returns b dbName⟩⟩
  · rw [← enveloped_absent_iff, lost_true_iff]
    exact ⟨fun h => h.1, fun h => ⟨h, fun c => enveloped_returns b provider dbName⟩⟩
  · rw [source.reportsAbsent_iff, ← plain_absent_iff (E := E)]
    tauto
  · rw [source.reportsAbsent_iff, ← enveloped_absent_iff]
    tauto

end Contract

/-! ### Two records -/

/-- `{`: a record that was cut off. -/
def truncatedRecord : Text := [123]

/-- An envelope of version 3, as text. -/
def laterEnvelope : Text :=
  [123, 34, 97, 108, 103, 34, 58, 34, 65, 69, 83, 45, 71, 67, 77, 34, 44, 34, 118, 34, 58, 51, 125]

/-- A browser, on these two records: the first is no JSON, the second is an object. -/
def twoRecords : Platform Unit where
  parse t := if t = laterEnvelope then
    some (.object [(algName, .string aesGcm), (vName, .number (.finite 3))]) else none
  toText _ := none
  atob _ := none
  encode _ := []
  decode _ := []
  decrypt _ _ _ _ := none

/-- A provider that always has a key. -/
def staticProvider : KeyProvider Unit Unit where
  envelopeKeyId := none
  getKey _ := .ok ()
  deriveKey := none
  isCredentialAccessError _ := false

/-- The key source of a device that has just been started. -/
def freshSource : PortablePassphraseKeySource := ⟨none, true⟩

/-- A record that was cut off and an envelope of a later version are both taken for a first run, by
the stores and by the key source over them. -/
theorem unreadable_records_mint_a_key :
    ¬ KeepsApart (E := Unit) (some truncatedRecord)
        (PlainStored twoRecords [] (some fun _ => some truncatedRecord))
        (BrowserStorageCredentialStore.load twoRecords [] (some fun _ => some truncatedRecord)) ∧
      ¬ KeepsApart (some laterEnvelope)
        (EnvelopeStored twoRecords staticProvider [] (some fun _ => some laterEnvelope))
        (EnvelopedCredentialStore.load twoRecords staticProvider []
          (some fun _ => some laterEnvelope)) ∧
      freshSource.ReportsAbsent (some (BrowserStorageCredentialStore.load (E := Unit) twoRecords []
        (some fun _ => some truncatedRecord))) ∧
      freshSource.ReportsAbsent (some (EnvelopedCredentialStore.load twoRecords staticProvider []
        (some fun _ => some laterEnvelope))) := by
  have hplain : BrowserStorageCredentialStore.load (E := Unit) twoRecords []
      (some fun _ => some truncatedRecord) = .ok none := rfl
  have henvelope : EnvelopedCredentialStore.load twoRecords staticProvider []
      (some fun _ => some laterEnvelope) = .ok none := by
    have hknown : ¬ knownEnvelope
        (.object [(algName, .string aesGcm), (vName, .number (.finite 3))]) := by
      decide
    have hload : BrowserCredentialEnvelopeStore.load (E := Unit) twoRecords []
        (some fun _ => some laterEnvelope) = .ok none := by
      have hget : (fun _ => some laterEnvelope : Text → Option Text) (envelopeRecordKey []) =
          some laterEnvelope := rfl
      rw [envelopeStore_load_some twoRecords [] hget (by decide) rfl, if_neg hknown]
    unfold EnvelopedCredentialStore.load
    rw [hload]
    rfl
  rw [hplain, henvelope]
  refine ⟨?_, ?_, ?_, ?_⟩
  · rintro ⟨h, -⟩
    cases h rfl
  · rintro ⟨h, -⟩
    cases h rfl
  · exact ⟨⟨true, none, .absent⟩, freshSource, rfl, rfl⟩
  · exact ⟨⟨true, none, .absent⟩, freshSource, rfl, rfl⟩

end Web

end Interocitor
