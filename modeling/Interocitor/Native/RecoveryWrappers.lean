import Interocitor.Native.PortableKeys
import Interocitor.Native.StoredFrames
import Interocitor.Handshake.Capabilities

/-!
# Recovery wrappers, in TypeScript and Python

The credentials of a mesh can be left on the remote, encrypted under a phrase that a person keeps.
The phrase is normalized and stretched to a root; an HMAC of the root is the locator under which the
wrapper is found, and HKDF makes the key from the root and a salt.  The locator and the text of the
salt are authenticated with the credentials.  Core and the Python client both create wrappers and
both open them, so whoever restores a device may have left the wrapper with the other one.

The two normalize in different orders: core trims and then replaces each run of white space by one
space, Python replaces and then trims.  `strip_collapse` says that this is the same.  Neither of
them encodes a surrogate outside a pair, which is a unit of a phrase as any other before: both put
U+FFFD in its place.  Two phrases with different normal forms can so have the same bytes, and open
the same wrappers.

A phrase can have many wrappers.  Each of them opens with it, whichever of them was asked for, so
whoever can write to the remote can put an older one in the place of a newer one.

Text is UTF-16 in both halves of the model: a character of a Python string beyond U+FFFF is the
pair of its surrogates.

* `recovery_wrappers`: both.
-/

namespace Interocitor.Recovery

open CodeUnits OrderedRecord JsonText JsonReader List Option
open PortableKeys (strip)
open Handshake (property)
open StoredFrames.Python (PyValue pyBuilder)

/-! ## Runs -/

section Runs

variable {α : Type} (p : α → Bool) (space : α)

/-- Replace every run of what satisfies `p` by one `space`; `inRun` says that the last one goes
on. -/
def collapseFrom : Bool → List α → List α
  | _, [] => []
  | inRun, a :: l =>
    if p a then (if inRun then [] else [space]) ++ collapseFrom true l
    else a :: collapseFrom false l

/-- Replace every run of what satisfies `p` by one `space`. -/
def collapse (l : List α) : List α := collapseFrom p space false l

variable {p space}

theorem collapseFrom_pos {a : α} (ha : p a = true) (inRun : Bool) (l : List α) :
    collapseFrom p space inRun (a :: l) =
      (if inRun then [] else [space]) ++ collapseFrom p space true l := by
  rw [collapseFrom, if_pos ha]

theorem collapseFrom_neg {a : α} (ha : p a = false) (inRun : Bool) (l : List α) :
    collapseFrom p space inRun (a :: l) = a :: collapseFrom p space false l := by
  rw [collapseFrom, ha, if_neg Bool.false_ne_true]

theorem dropWhile_collapseFrom (hspace : p space = true) (inRun : Bool) (l : List α) :
    (collapseFrom p space inRun l).dropWhile p = collapse p space (l.dropWhile p) := by
  induction l generalizing inRun with
  | nil => rfl
  | cons a l ih =>
    cases ha : p a with
    | true =>
      rw [collapseFrom_pos ha, dropWhile_cons_of_pos ha]
      cases inRun with
      | true => exact ih true
      | false =>
        show (space :: collapseFrom p space true l).dropWhile p = _
        rw [dropWhile_cons_of_pos hspace, ih]
    | false =>
      have hnot : ¬ p a = true := by rw [ha]; exact Bool.false_ne_true
      rw [collapseFrom_neg ha, dropWhile_cons_of_neg hnot, dropWhile_cons_of_neg hnot,
        collapse, collapseFrom_neg ha]

theorem rdropWhile_cons (a : α) (l : List α) : (a :: l).rdropWhile p =
    if l.rdropWhile p = [] then (if p a then [] else [a]) else a :: l.rdropWhile p := by
  have hcons : ∀ r : List α, r.reverse = [] ↔ r = [] := fun r => reverse_eq_nil_iff
  rw [List.rdropWhile, reverse_cons, dropWhile_append, List.rdropWhile]
  cases hl : l.reverse.dropWhile p with
  | nil =>
    rw [isEmpty_nil, if_pos rfl, if_pos reverse_nil]
    cases ha : p a with
    | true => rw [dropWhile_cons_of_pos ha, if_pos rfl]; rfl
    | false =>
      have hnot : ¬ p a = true := by rw [ha]; exact Bool.false_ne_true
      rw [dropWhile_cons_of_neg hnot, if_neg Bool.false_ne_true]
      rfl
  | cons b r =>
    rw [isEmpty_cons, if_neg Bool.false_ne_true,
      if_neg (by rw [hcons]; exact cons_ne_nil b r), reverse_append]
    rfl

theorem forall_collapseFrom (hspace : p space = true) (inRun : Bool) (l : List α) :
    (∀ x ∈ collapseFrom p space inRun l, p x = true) ↔ ∀ x ∈ l, p x = true := by
  induction l generalizing inRun with
  | nil => rfl
  | cons a l ih =>
    rw [collapseFrom, forall_mem_cons]
    cases ha : p a with
    | true =>
      rw [if_pos rfl, forall_mem_append, ih]
      cases inRun with
      | true => simp
      | false => simp [hspace]
    | false =>
      rw [if_neg Bool.false_ne_true, forall_mem_cons, ha]
      simp

theorem rdropWhile_collapseFrom (hspace : p space = true) (inRun : Bool) (l : List α) :
    (collapseFrom p space inRun l).rdropWhile p = collapseFrom p space inRun (l.rdropWhile p) := by
  induction l generalizing inRun with
  | nil => rfl
  | cons a l ih =>
    have hempty : ∀ b, (collapseFrom p space b l).rdropWhile p = [] ↔ l.rdropWhile p = [] := by
      intro b
      rw [rdropWhile_eq_nil_iff, rdropWhile_eq_nil_iff, forall_collapseFrom hspace]
    by_cases hl : l.rdropWhile p = []
    · -- nothing of the rest stays
      rw [rdropWhile_cons, if_pos hl]
      cases ha : p a with
      | true =>
        rw [collapseFrom_pos ha, if_pos rfl]
        cases inRun with
        | true => exact (hempty true).mpr hl
        | false =>
          show (space :: collapseFrom p space true l).rdropWhile p = []
          rw [rdropWhile_cons, if_pos ((hempty true).mpr hl), if_pos hspace]
      | false =>
        rw [collapseFrom_neg ha, if_neg Bool.false_ne_true, collapseFrom_neg ha, rdropWhile_cons,
          if_pos ((hempty false).mpr hl), ha, if_neg Bool.false_ne_true]
        rfl
    · rw [rdropWhile_cons, if_neg hl]
      cases ha : p a with
      | true =>
        rw [collapseFrom_pos ha, collapseFrom_pos ha]
        cases inRun with
        | true => exact ih true
        | false =>
          show (space :: collapseFrom p space true l).rdropWhile p = _
          rw [rdropWhile_cons, if_neg (mt (hempty true).mp hl), ih]
          rfl
      | false =>
        rw [collapseFrom_neg ha, collapseFrom_neg ha, rdropWhile_cons,
          if_neg (mt (hempty false).mp hl), ih]

/-- **Trimming and collapsing commute.** -/
theorem strip_collapse (hspace : p space = true) (l : List α) :
    strip p (collapse p space l) = collapse p space (strip p l) := by
  rw [strip, collapse, dropWhile_collapseFrom hspace, collapse, rdropWhile_collapseFrom hspace]
  rfl

end Runs

/-! ## What the platforms provide -/

/-- A byte string. -/
abbrev Bytes := List UInt8

/-- **The platforms.**  The cryptography and Unicode are the same for both languages; core may have
base64 of its runtime. -/
structure Platforms where
  /-- The normal form NFKD. -/
  nfkd : Text → Text
  /-- PBKDF2-HMAC-SHA-256, to 256 bits, of a password, a salt and a number of iterations. -/
  pbkdf2 : Bytes → Bytes → ℕ → Bytes
  /-- HMAC-SHA-256 of a key and data. -/
  hmac : Bytes → Bytes → Bytes
  /-- HKDF-SHA-256, to 256 bits, of key material, a salt and a purpose. -/
  hkdf : Bytes → Bytes → Bytes → Bytes
  /-- AES-GCM; key, nonce, additional data and text are the arguments, and the tag is at the end of
  the ciphertext. -/
  encrypt : Bytes → Bytes → Bytes → Bytes → Bytes
  decrypt : Bytes → Bytes → Bytes → Bytes → Option Bytes
  base64 : NativeBase64
  printers : Printers
  length_hmac : ∀ key data, (hmac key data).length = 32

/-- What the two throw, by their texts; `couldNotUnlock` is whatever fails once the locator
matches. -/
inductive RecoveryError where
  | phraseMustNotBeEmpty
  | invalidWrapper
  | credentialsRequired
  | doesNotMatchThisWrapper
  | containsInvalidCredentials
  | couldNotUnlock
  | unicodeEncodeError
  deriving DecidableEq

/-- `RECOVERY_ROOT_SALT`. -/
def recoveryRootSalt : Bytes :=
  [105, 110, 116, 101, 114, 111, 99, 105, 116, 111, 114, 46, 114, 101, 99, 111, 118, 101, 114, 121,
    46, 114, 111, 111, 116, 46, 118, 49]

/-- `LOCATOR_INFO`. -/
def locatorInfo : Bytes :=
  [105, 110, 116, 101, 114, 111, 99, 105, 116, 111, 114, 46, 114, 101, 99, 111, 118, 101, 114, 121,
    46, 108, 111, 99, 97, 116, 111, 114, 46, 118, 49]

/-- `KEK_INFO`. -/
def kekInfo : Bytes :=
  [105, 110, 116, 101, 114, 111, 99, 105, 116, 111, 114, 46, 114, 101, 99, 111, 118, 101, 114, 121,
    46, 107, 101, 107, 46, 118, 49]

/-- `ROOT_ITERATIONS`. -/
def rootIterations : ℕ := 600000

/-- `interocitor.recovery.wrapper.v1|`. -/
def wrapperPrefix : Text :=
  [105, 110, 116, 101, 114, 111, 99, 105, 116, 111, 114, 46, 114, 101, 99, 111, 118, 101, 114, 121,
    46, 119, 114, 97, 112, 112, 101, 114, 46, 118, 49, 124]

/-- `AES-GCM`. -/
def algName : Text := [65, 69, 83, 45, 71, 67, 77]

/-- `PBKDF2-HMAC-SHA-256`. -/
def rootKdfName : Text :=
  [80, 66, 75, 68, 70, 50, 45, 72, 77, 65, 67, 45, 83, 72, 65, 45, 50, 53, 54]

/-- `HKDF-SHA-256`. -/
def kekKdfName : Text := [72, 75, 68, 70, 45, 83, 72, 65, 45, 50, 53, 54]

/-! ## Credentials -/

/-- `RecoveredMeshCredentials`. -/
structure RecoveredMeshCredentials where
  remotePath : Text
  portableKey : Text
  meshId : Option Text
  deriving DecidableEq

/-- The properties of the credentials, with the name that the dataclass has for each. -/
inductive CredentialField where
  | remotePath
  | portableKey
  | meshId

/-- The name on the wire. -/
def CredentialField.key : CredentialField → Text
  | .remotePath => [114, 101, 109, 111, 116, 101, 80, 97, 116, 104]
  | .portableKey => [112, 111, 114, 116, 97, 98, 108, 101, 75, 101, 121]
  | .meshId => [109, 101, 115, 104, 73, 100]

/-- The name in the dataclass. -/
def CredentialField.attribute : CredentialField → Text
  | .remotePath => [114, 101, 109, 111, 116, 101, 95, 112, 97, 116, 104]
  | .portableKey => [112, 111, 114, 116, 97, 98, 108, 101, 95, 107, 101, 121]
  | .meshId => [109, 101, 115, 104, 95, 105, 100]

/-- A text, unless it is empty. -/
def unlessEmpty (t : Text) : Option Text := if t.isEmpty then none else some t

/-- The credentials, where an empty `meshId` is none. -/
def RecoveredMeshCredentials.present (c : RecoveredMeshCredentials) : RecoveredMeshCredentials :=
  { c with meshId := c.meshId.bind unlessEmpty }

/-- The properties that are written. -/
def RecoveredMeshCredentials.properties (c : RecoveredMeshCredentials) : List (Text × Text) :=
  [(CredentialField.remotePath.key, c.remotePath),
    (CredentialField.portableKey.key, c.portableKey)] ++
    ((c.meshId.bind unlessEmpty).map fun t => (CredentialField.meshId.key, t)).toList

/-! ## Wrappers -/

/-- `RecoveryWrapper`, with the members of `kdf` among the others. -/
structure RecoveryWrapper where
  v : ℤ
  alg : Text
  rootName : Text
  iterations : ℤ
  kekName : Text
  salt : Text
  locator : Text
  iv : Text
  ciphertext : Text
  createdAt : Text
  deriving DecidableEq

/-- `LOCATOR_RE`. -/
def isLocator (t : Text) : Bool := t.length = 43 && t.all Base64.isUrlChar

/-- What a device draws and reads from its clock. -/
structure Fresh where
  salt : { b : Bytes // b.length = 16 }
  iv : { b : Bytes // b.length = 12 }
  createdAt : Text

/-- A wrapper of the first version. -/
def wrapperOf (locator salt iv ciphertext createdAt : Text) : RecoveryWrapper :=
  ⟨1, algName, rootKdfName, rootIterations, kekKdfName, salt, locator, iv, ciphertext, createdAt⟩

/-- What is authenticated with the credentials. -/
def aadText (locator salt : Text) : Text := wrapperPrefix ++ (locator ++ 124 :: salt)

section Programs

variable (lib : Platforms)

/-- The root of a normalized phrase. -/
def rootOf (normalized : Text) : Except RecoveryError Bytes :=
  if normalized.isEmpty then .error .phraseMustNotBeEmpty
  else .ok (lib.pbkdf2 (Utf8Text.encode normalized) recoveryRootSalt rootIterations)

/-! ### TypeScript -/

/-- `normalizePhrase`: `normalize`, `trim` and `replaceAll(/\s+/g, " ")`. -/
def normalizePhrase (phrase : Text) : Text := collapse isSpace 32 (strip isSpace (lib.nfkd phrase))

/-- `assertWrapper`. -/
def assertWrapper (w : RecoveryWrapper) : Bool :=
  w.v = 1 && w.alg = algName && w.rootName = rootKdfName && w.iterations = rootIterations &&
    w.kekName = kekKdfName && isLocator w.locator

/-- `deriveRecoveryRoot`. -/
def deriveRecoveryRoot (phrase : Text) : Except RecoveryError Bytes :=
  rootOf lib (normalizePhrase lib phrase)

/-- `deriveLocator`. -/
def deriveLocator (root : Bytes) : Text := bytesToBase64Url lib.base64 (lib.hmac root locatorInfo)

/-- `deriveKek`. -/
def deriveKek (root salt : Bytes) : Bytes := lib.hkdf root salt kekInfo

/-- `wrapperAad`. -/
def wrapperAad (locator salt : Text) : Bytes := Utf8Text.encode (aadText locator salt)

/-- The credentials as an object. -/
def RecoveredMeshCredentials.toValue (c : RecoveredMeshCredentials) : JsValue :=
  .object (c.properties.map fun p => (p.1, .string p.2))

/-- `createRecoveryWrapper`. -/
def createRecoveryWrapper (phrase : Text) (credentials : RecoveredMeshCredentials)
    (fresh : Fresh) : Except RecoveryError RecoveryWrapper :=
  if credentials.remotePath.isEmpty || credentials.portableKey.isEmpty then
    .error .credentialsRequired
  else do
    let root ← deriveRecoveryRoot lib phrase
    let locator := deriveLocator lib root
    let saltText := bytesToBase64Url lib.base64 fresh.salt
    let kek := deriveKek lib root fresh.salt
    let plaintext := (stringify lib.printers credentials.toValue).getD []
    let ciphertext := lib.encrypt kek fresh.iv (wrapperAad locator saltText)
      (Utf8Text.encode plaintext)
    return wrapperOf locator saltText (bytesToBase64Url lib.base64 fresh.iv)
      (bytesToBase64Url lib.base64 ciphertext) fresh.createdAt

/-- A string that is not empty. -/
def presentText : JsValue → Option Text
  | .string t => unlessEmpty t
  | _ => none

/-- The credentials in what was decrypted. -/
def credentialsOf (value : JsValue) : Except RecoveryError RecoveredMeshCredentials :=
  match property CredentialField.remotePath.key value,
    property CredentialField.portableKey.key value with
  | .string remotePath, .string portableKey =>
    .ok ⟨remotePath, portableKey, presentText (property CredentialField.meshId.key value)⟩
  | _, _ => .error .containsInvalidCredentials

/-- What `unwrapRecoveryWrapper` decrypts. -/
def decryptWrapper (root : Bytes) (w : RecoveryWrapper) : Option Bytes := do
  let iv ← base64UrlToBytes lib.base64 w.iv
  let salt ← base64UrlToBytes lib.base64 w.salt
  let ciphertext ← base64UrlToBytes lib.base64 w.ciphertext
  lib.decrypt (deriveKek lib root salt) iv (wrapperAad w.locator w.salt) ciphertext

/-- What `unwrapRecoveryWrapper` makes of a plaintext. -/
def recoverFrom (plaintext : Bytes) : Except RecoveryError RecoveredMeshCredentials :=
  match jsonParse (Utf8Text.decode plaintext) with
  | none => .error .couldNotUnlock
  | some value => credentialsOf value

/-- `unwrapRecoveryWrapper`. -/
def unwrapRecoveryWrapper (phrase : Text) (w : RecoveryWrapper) :
    Except RecoveryError RecoveredMeshCredentials :=
  if !assertWrapper w then .error .invalidWrapper
  else do
    let root ← deriveRecoveryRoot lib phrase
    if deriveLocator lib root ≠ w.locator then .error .doesNotMatchThisWrapper
    else
      match decryptWrapper lib root w with
      | none => .error .couldNotUnlock
      | some plaintext => recoverFrom plaintext

/-! ### Python -/

namespace Python

/-- `_ECMASCRIPT_WHITESPACE_RE`, one character of it. -/
def isWhitespaceRe (u : CodeUnit) : Bool :=
  decide (0x9 ≤ u.val ∧ u.val ≤ 0xD) || decide (u.val = 0x20) || decide (u.val = 0xA0) ||
    decide (u.val = 0x1680) || decide (0x2000 ≤ u.val ∧ u.val ≤ 0x200A) ||
    decide (u.val = 0x2028) || decide (u.val = 0x2029) || decide (u.val = 0x202F) ||
    decide (u.val = 0x205F) || decide (u.val = 0x3000) || decide (u.val = 0xFEFF)

/-- `_ECMASCRIPT_WHITESPACE_CHARS`. -/
def isWhitespaceChar (u : CodeUnit) : Bool :=
  decide (u.val ∈ [0x9, 0xA, 0xB, 0xC, 0xD, 0x20, 0xA0, 0x1680, 0x2000, 0x2001, 0x2002, 0x2003,
    0x2004, 0x2005, 0x2006, 0x2007, 0x2008, 0x2009, 0x200A, 0x2028, 0x2029, 0x202F, 0x205F, 0x3000,
    0xFEFF])

/-- `normalize_recovery_phrase`. -/
def normalizeRecoveryPhrase (phrase : Text) : Text :=
  strip isWhitespaceChar (collapse isWhitespaceRe 32 (lib.nfkd phrase))

/-- `canonical_portable_key`.  A surrogate outside a pair is not in the alphabet. -/
def canonicalPortableKey (key : Text) : Option Text :=
  if isWellFormed key then
    match PortableKeys.Python.canonicalPortableKey ((Utf8Text.points key).map Char.ofNat) with
    | .ok normalized => some (normalized.flatMap fun c => Utf8Text.units c.toNat)
    | .error _ => none
  else none

/-- `_to_base64url`. -/
def toBase64Url (value : Bytes) : Text := bytesToBase64Url .none value

/-- `_from_base64url`: `b64decode` with `validate=True` takes nothing but the alphabet. -/
def fromBase64Url (value : Text) : Option Bytes :=
  let padded := value ++ List.replicate ((4 - value.length % 4) % 4) 61
  if padded.any Base64.isSpace then none
  else Base64.atob (replaceUnit 95 47 (replaceUnit 45 43 padded))

/-- `_derive_recovery_root`; `text_encode` is the encoder of the web. -/
def deriveRecoveryRoot (phrase : Text) : Except RecoveryError Bytes :=
  rootOf lib (normalizeRecoveryPhrase lib phrase)

/-- `_derive_locator`. -/
def deriveLocator (root : Bytes) : Text := toBase64Url (lib.hmac root locatorInfo)

/-- `_derive_kek`. -/
def deriveKek (root salt : Bytes) : Bytes := lib.hkdf root salt kekInfo

/-- `encode("utf-8")`. -/
def encodeUtf8 (t : Text) : Except RecoveryError Bytes :=
  if isWellFormed t then .ok (Utf8Text.encode t) else .error .unicodeEncodeError

/-- `decode("utf-8", errors="replace")`. -/
def decodeUtf8 (bytes : Bytes) : Text :=
  (Utf8Text.run .start (bytes.map UInt8.toNat)).flatMap fun point =>
    Utf8Text.units (point.getD Utf8Text.replacement)

/-- `_wrapper_aad`. -/
def wrapperAad (locator salt : Text) : Except RecoveryError Bytes :=
  encodeUtf8 (aadText locator salt)

/-- A string that is not empty. -/
def presentText : PyValue → Option Text
  | .str t => unlessEmpty t
  | _ => none

/-- What `RecoveredMeshCredentials.from_dict` makes of the three values. -/
def fromValues (meshId : PyValue) : PyValue → PyValue →
    Except RecoveryError RecoveredMeshCredentials
  | .str remotePath, .str portableKey =>
    match canonicalPortableKey portableKey with
    | none => .error .containsInvalidCredentials
    | some portableKey => .ok ⟨remotePath, portableKey, presentText meshId⟩
  | _, _ => .error .containsInvalidCredentials

/-- `RecoveredMeshCredentials.from_dict`. -/
def fromDict : PyValue → Except RecoveryError RecoveredMeshCredentials
  | .dict members =>
    let get := fun field : CredentialField =>
      ((find field.key members).or (find field.attribute members)).getD .none
    fromValues (get .meshId) (get .remotePath) (get .portableKey)
  | _ => .error .containsInvalidCredentials

/-- `_coerce_credentials`, of an object of the dataclass. -/
def coerceCredentials (c : RecoveredMeshCredentials) :
    Except RecoveryError RecoveredMeshCredentials :=
  fromDict (.dict (c.properties.map fun p => (p.1, .str p.2)))

/-- `json_stringify` of a dictionary of strings: `json.dumps`, and `_well_formed_json_text`. -/
def jsonStringify (members : List (Text × Text)) : Text :=
  escapeSurrogates ((Json.object (members.map fun p => (p.1, .string p.2)) :
    Json Text Empty).render plainQuote (fun x => x.elim) fun name => name)

/-- `_coerce_wrapper`: `RecoveryWrapper.from_dict` and `RecoveryKdf.from_dict`. -/
def coerceWrapper (w : RecoveryWrapper) : Bool :=
  w.v = 1 && w.alg = algName && isLocator w.locator &&
    (w.rootName = rootKdfName && w.iterations = rootIterations && w.kekName = kekKdfName)

/-- `create_recovery_wrapper`. -/
def createRecoveryWrapper (phrase : Text) (credentials : RecoveredMeshCredentials)
    (fresh : Fresh) : Except RecoveryError RecoveryWrapper := do
  let recovered ← coerceCredentials credentials
  if recovered.remotePath.isEmpty || recovered.portableKey.isEmpty then
    .error .credentialsRequired
  else do
    let root ← deriveRecoveryRoot lib phrase
    let locator := deriveLocator lib root
    let saltText := toBase64Url fresh.salt
    let plaintext ← encodeUtf8 (jsonStringify recovered.properties)
    let additional ← wrapperAad locator saltText
    let ciphertext := lib.encrypt (deriveKek lib root fresh.salt) fresh.iv additional plaintext
    return wrapperOf locator saltText (toBase64Url fresh.iv) (toBase64Url ciphertext)
      fresh.createdAt

/-- What `unwrap_recovery_wrapper` decrypts. -/
def decryptWrapper (root : Bytes) (w : RecoveryWrapper) : Option Bytes := do
  let salt ← fromBase64Url w.salt
  let iv ← fromBase64Url w.iv
  let ciphertext ← fromBase64Url w.ciphertext
  let additional ← (wrapperAad w.locator w.salt).toOption
  lib.decrypt (deriveKek lib root salt) iv additional ciphertext

/-- What `unwrap_recovery_wrapper` makes of a plaintext; `json.loads` with `parse_constant` takes no
words beside those of JSON. -/
def recoverFrom (plaintext : Bytes) : Except RecoveryError RecoveredMeshCredentials :=
  match read { pyBuilder with words := [] } (decodeUtf8 plaintext) with
  | none => .error .couldNotUnlock
  | some value => fromDict value

/-- `unwrap_recovery_wrapper`. -/
def unwrapRecoveryWrapper (phrase : Text) (w : RecoveryWrapper) :
    Except RecoveryError RecoveredMeshCredentials :=
  if !coerceWrapper w then .error .invalidWrapper
  else do
    let root ← deriveRecoveryRoot lib phrase
    if deriveLocator lib root ≠ w.locator then .error .doesNotMatchThisWrapper
    else
      match decryptWrapper lib root w with
      | none => .error .couldNotUnlock
      | some plaintext => recoverFrom plaintext

end Python

/-! ### Either of them -/

/-- The two implementations. -/
inductive Language where
  | typescript
  | python

/-- A wrapper made by an implementation. -/
def create : Language → Text → RecoveredMeshCredentials → Fresh →
    Except RecoveryError RecoveryWrapper
  | .typescript => createRecoveryWrapper lib
  | .python => Python.createRecoveryWrapper lib

/-- A wrapper opened by an implementation. -/
def unwrap : Language → Text → RecoveryWrapper → Except RecoveryError RecoveredMeshCredentials
  | .typescript => unwrapRecoveryWrapper lib
  | .python => Python.unwrapRecoveryWrapper lib

/-! ## Phrases -/

theorem isWhitespaceRe_eq : Python.isWhitespaceRe = isSpace := by
  funext u
  rw [Python.isWhitespaceRe, isSpace, Bool.eq_iff_iff]
  simp only [Bool.or_eq_true, decide_eq_true_eq, mem_cons, not_mem_nil, or_false]
  omega

theorem isWhitespaceChar_eq : Python.isWhitespaceChar = isSpace := rfl

/-- **One normal form.** -/
theorem normalizeRecoveryPhrase_eq (phrase : Text) :
    Python.normalizeRecoveryPhrase lib phrase = normalizePhrase lib phrase := by
  rw [Python.normalizeRecoveryPhrase, isWhitespaceRe_eq, isWhitespaceChar_eq,
    strip_collapse (by decide), normalizePhrase]

/-- Two phrases are alike if their normal forms are encoded alike: they are the same, but for
surrogates outside a pair, each of which is encoded as U+FFFD. -/
def Alike (p q : Text) : Prop :=
  Utf8Text.points (normalizePhrase lib p) = Utf8Text.points (normalizePhrase lib q)

/-- The root of a phrase. -/
def phraseRoot (phrase : Text) : Bytes :=
  lib.pbkdf2 (Utf8Text.encode (normalizePhrase lib phrase)) recoveryRootSalt rootIterations

/-- The locator of a phrase. -/
def phraseLocator (phrase : Text) : Text :=
  Base64.encodeUrl (lib.hmac (phraseRoot lib phrase) locatorInfo)

variable {lib}

theorem points_eq_nil_iff {t : Text} : Utf8Text.points t = [] ↔ t = [] := by
  refine ⟨fun h => ?_, fun h => by rw [h]; rfl⟩
  have hnil : Utf8Text.points t = Utf8Text.points [] := h
  exact Utf8Text.eq_of_points_eq (fun u hu => absurd hu not_mem_nil) hnil

variable {q : Text}

theorem Alike.normalize_ne_nil {p : Text} (h : Alike lib p q) (hq : normalizePhrase lib q ≠ []) :
    normalizePhrase lib p ≠ [] := by
  intro hp
  refine hq (points_eq_nil_iff.mp ?_)
  rw [← h, hp]
  rfl

theorem Alike.root_eq {p : Text} (h : Alike lib p q) : phraseRoot lib p = phraseRoot lib q := by
  rw [phraseRoot, phraseRoot, Utf8Text.encode_eq_encode_iff.mpr h]

theorem rootOf_eq_ok_iff {phrase : Text} {root : Bytes} :
    rootOf lib (normalizePhrase lib phrase) = .ok root ↔
      normalizePhrase lib phrase ≠ [] ∧ root = phraseRoot lib phrase := by
  rw [rootOf, ← phraseRoot]
  cases hphrase : normalizePhrase lib phrase with
  | nil => exact ⟨fun h => absurd h (by simp), fun h => absurd rfl h.1⟩
  | cons u t =>
    rw [isEmpty_cons, if_neg Bool.false_ne_true]
    exact ⟨fun h => ⟨cons_ne_nil u t, (Except.ok.inj h).symm⟩, fun h => by rw [h.2]⟩

theorem python_deriveRecoveryRoot (phrase : Text) :
    Python.deriveRecoveryRoot lib phrase = deriveRecoveryRoot lib phrase := by
  rw [Python.deriveRecoveryRoot, normalizeRecoveryPhrase_eq, deriveRecoveryRoot]

theorem deriveLocator_phraseRoot (phrase : Text) :
    deriveLocator lib (phraseRoot lib phrase) = phraseLocator lib phrase := by
  rw [deriveLocator, bytesToBase64Url_eq, phraseLocator]

theorem python_deriveLocator (phrase : Text) :
    Python.deriveLocator lib (phraseRoot lib phrase) = phraseLocator lib phrase := by
  rw [Python.deriveLocator, Python.toBase64Url, bytesToBase64Url_eq, phraseLocator]

theorem isLocator_phraseLocator (phrase : Text) : isLocator (phraseLocator lib phrase) = true := by
  have hlength : (phraseLocator lib phrase).length = 43 := by
    rw [phraseLocator, Base64.length_encodeUrl, lib.length_hmac]
  rw [isLocator, Bool.and_eq_true_iff, decide_eq_true_eq]
  exact ⟨hlength, all_eq_true.mpr fun u => Base64.isUrlChar_of_mem⟩

/-! ## What is authenticated -/

theorem lt_of_isUrlChar {u : CodeUnit} (h : Base64.isUrlChar u = true) : u.val < 0x80 := by
  simp only [Base64.isUrlChar, Bool.or_eq_true, Bool.and_eq_true, decide_eq_true_eq,
    Fin.le_def] at h
  rcases h with (((h | h) | h) | rfl) | rfl
  · exact lt_of_le_of_lt h.2 (by decide)
  · exact lt_of_le_of_lt h.2 (by decide)
  · exact lt_of_le_of_lt h.2 (by decide)
  · decide
  · decide

theorem plain_wrapperPrefix : ∀ u ∈ wrapperPrefix, isSurrogate u = false := by
  have hall : wrapperPrefix.all (fun u => !isSurrogate u) = true := by decide +kernel
  intro u hu
  rw [← Bool.not_eq_true']
  exact all_eq_true.mp hall u hu

theorem wrapperAad_inj {locator salt locator' salt' : Text} (hlocator : isLocator locator = true)
    (hlocator' : isLocator locator' = true) (hsalt : ∀ u ∈ salt, Base64.isUrlChar u = true)
    (h : wrapperAad locator' salt' = wrapperAad locator salt) :
    locator' = locator ∧ salt' = salt := by
  have hplain : ∀ {t : Text}, (∀ u ∈ t, Base64.isUrlChar u = true) →
      ∀ u ∈ t, isSurrogate u = false := fun ht u hu => isSurrogate_of_lt (lt_of_isUrlChar (ht u hu))
  have hpoints : ∀ {l : Text}, isLocator l = true → ∀ s, Utf8Text.points (aadText l s) =
      wrapperPrefix.map Fin.val ++ (l.map Fin.val ++ 124 :: Utf8Text.points s) := by
    intro l hl s
    rw [isLocator, Bool.and_eq_true_iff] at hl
    rw [aadText, Utf8Text.points_append plain_wrapperPrefix,
      Utf8Text.points_append (hplain (all_eq_true.mp hl.2)), Utf8Text.points_cons (by decide)]
    rfl
  have hlength : ∀ {l : Text}, isLocator l = true → (l.map Fin.val).length = 43 := by
    intro l hl
    rw [isLocator, Bool.and_eq_true_iff, decide_eq_true_eq] at hl
    rw [length_map, hl.1]
  rw [wrapperAad, wrapperAad, Utf8Text.encode_eq_encode_iff, hpoints hlocator, hpoints hlocator',
    append_cancel_left_eq] at h
  obtain ⟨hl, hs⟩ := append_inj h ((hlength hlocator').trans (hlength hlocator).symm)
  exact ⟨map_injective_iff.mpr Fin.val_injective hl,
    Utf8Text.eq_of_points_eq (fun u hu => lt_of_isUrlChar (hsalt u hu)) (List.cons.inj hs).2⟩

theorem python_wrapperAad {locator salt : Text} (hlocator : isLocator locator = true)
    (hsalt : ∀ u ∈ salt, Base64.isUrlChar u = true) :
    Python.wrapperAad locator salt = .ok (wrapperAad locator salt) := by
  rw [isLocator, Bool.and_eq_true_iff] at hlocator
  have hformed : isWellFormed (aadText locator salt) = true := by
    refine isWellFormed_of_plain fun u hu => ?_
    rw [aadText, mem_append, mem_append, mem_cons] at hu
    rcases hu with hu | hu | rfl | hu
    · exact plain_wrapperPrefix u hu
    · exact isSurrogate_of_lt (lt_of_isUrlChar (all_eq_true.mp hlocator.2 u hu))
    · decide
    · exact isSurrogate_of_lt (lt_of_isUrlChar (hsalt u hu))
  rw [Python.wrapperAad, Python.encodeUtf8, if_pos hformed, wrapperAad]

/-! ## Plaintexts -/

/-- The text of the credentials. -/
def credentialsText (c : RecoveredMeshCredentials) : Text :=
  123 :: joined (c.properties.map fun f => quote f.1 ++ 58 :: quote f.2) ++ [125]

/-- Credentials that both implementations take. -/
structure Recoverable (c : RecoveredMeshCredentials) : Prop where
  path : c.remotePath ≠ []
  key : Python.canonicalPortableKey c.portableKey = some c.portableKey

variable {c : RecoveredMeshCredentials}

theorem Recoverable.key_ne_nil (h : Recoverable c) : c.portableKey ≠ [] := by
  intro hnil
  have hkey := h.key
  have hnone : Python.canonicalPortableKey [] = none := by decide
  rw [hnil, hnone] at hkey
  cases hkey

theorem properties_present (c : RecoveredMeshCredentials) :
    c.present.properties = c.properties := by
  obtain ⟨path, key, _ | _ | ⟨u, t⟩⟩ := c <;> rfl

theorem stringify_toValue (c : RecoveredMeshCredentials) :
    stringify lib.printers c.toValue = some (credentialsText c) := by
  have hfields : ∀ l : List (Text × Text), fieldTexts lib.printers
      (l.map fun p => (p.1, .string p.2)) = l.map fun f => quote f.1 ++ 58 :: quote f.2 := by
    intro l
    induction l with
    | nil => rfl
    | cons p l ih => rw [map_cons, fieldTexts, stringify, ih, map_cons]
  rw [RecoveredMeshCredentials.toValue, stringify, hfields, credentialsText]

/-- **`json.dumps` and the pass over it write what `JSON.stringify` writes.** -/
theorem jsonStringify_properties (c : RecoveredMeshCredentials) :
    Python.jsonStringify c.properties = credentialsText c := by
  have hmembers : ∀ l : List (Text × Text), Json.renderMembers quote (fun x : Empty => x.elim)
      (fun name => name) (l.map fun p => (p.1, Json.string p.2)) =
        l.map fun f => quote f.1 ++ 58 :: quote f.2 := by
    intro l
    induction l with
    | nil => rfl
    | cons p l ih => rw [map_cons, Json.renderMembers, Json.render, ih, map_cons]
  rw [Python.jsonStringify, Json.escapeSurrogates_render _ (fun x => x.elim), Json.render, hmembers,
    credentialsText]

theorem isWellFormed_credentialsText (c : RecoveredMeshCredentials) :
    isWellFormed (credentialsText c) = true := by
  refine Utf8Text.isWellFormed_append (Utf8Text.isWellFormed_cons (by decide)
    (Utf8Text.isWellFormed_joined fun t ht => ?_)) (by decide)
  obtain ⟨f, -, rfl⟩ := mem_map.mp ht
  exact Utf8Text.isWellFormed_append (Utf8Text.isWellFormed_quote _)
    (Utf8Text.isWellFormed_cons (by decide) (Utf8Text.isWellFormed_quote _))

theorem nodup_properties {V : Type} (c : RecoveredMeshCredentials) (f : Text → V) :
    ((c.properties.map fun p => (p.1, f p.2)).map Prod.fst).Nodup := by
  obtain ⟨path, key, _ | _ | ⟨u, t⟩⟩ := c <;>
    simp [RecoveredMeshCredentials.properties, CredentialField.key, unlessEmpty]

theorem credentialsOf_toValue (c : RecoveredMeshCredentials) :
    credentialsOf c.toValue = .ok c.present := by
  obtain ⟨path, key, _ | _ | ⟨u, t⟩⟩ := c <;> rfl

theorem recoverFrom_credentials (c : RecoveredMeshCredentials) :
    recoverFrom (Utf8Text.encode (credentialsText c)) = .ok c.present := by
  have hdecode : Utf8Text.decode (Utf8Text.encode (credentialsText c)) = credentialsText c :=
    Utf8Text.decode_encode (u := 123) (by decide) (isWellFormed_credentialsText c)
  have hobject : jsBuilder.object (c.properties.map fun p => (p.1, jsBuilder.string p.2)) =
      c.toValue := congrArg JsValue.object (entries_setAll_empty (nodup_properties c _))
  have hparse : jsonParse (credentialsText c) = some c.toValue := by
    rw [jsonParse, credentialsText, read_strings, hobject]
  rw [recoverFrom, hdecode, hparse]
  exact credentialsOf_toValue c

theorem fromDict_properties (h : Recoverable c) :
    Python.fromDict (.dict (c.properties.map fun p => (p.1, .str p.2))) = .ok c.present := by
  have hkey := h.key
  obtain ⟨path, key, _ | _ | ⟨u, t⟩⟩ := c
  · show Python.fromValues .none (.str path) (.str key) = _
    rw [Python.fromValues, hkey]
    rfl
  · show Python.fromValues .none (.str path) (.str key) = _
    rw [Python.fromValues, hkey]
    rfl
  · show Python.fromValues (.str (u :: t)) (.str path) (.str key) = _
    rw [Python.fromValues, hkey]
    rfl

theorem python_recoverFrom_credentials (h : Recoverable c) :
    Python.recoverFrom (Utf8Text.encode (credentialsText c)) = .ok c.present := by
  have hdecode : Python.decodeUtf8 (Utf8Text.encode (credentialsText c)) = credentialsText c := by
    rw [Python.decodeUtf8, Utf8Text.run_encode, flatMap_map]
    exact Utf8Text.units_points (isWellFormed_credentialsText c)
  have hobject : pyBuilder.object (c.properties.map fun p => (p.1, pyBuilder.string p.2)) =
      .dict (c.properties.map fun p => (p.1, .str p.2)) :=
    congrArg PyValue.dict (entries_setAll_empty (nodup_properties c _))
  have hparse : read { pyBuilder with words := [] } (credentialsText c) =
      some (.dict (c.properties.map fun p => (p.1, .str p.2))) := by
    rw [credentialsText, read_strings]
    exact congrArg some hobject
  rw [Python.recoverFrom, hdecode, hparse]
  exact fromDict_properties h

/-! ## Created wrappers -/

/-- A wrapper that was created: by which implementation, with which phrase, for which
credentials, and with which random values. -/
structure Creation where
  language : Language
  phrase : Text
  credentials : RecoveredMeshCredentials
  fresh : Fresh

/-- What AES-GCM is applied to. -/
structure Message where
  key : Bytes
  iv : Bytes
  additional : Bytes
  plaintext : Bytes
  deriving DecidableEq

variable (lib)

/-- What the creation of a wrapper encrypts. -/
def Creation.message (x : Creation) : Message where
  key := lib.hkdf (phraseRoot lib x.phrase) x.fresh.salt kekInfo
  iv := x.fresh.iv
  additional := wrapperAad (phraseLocator lib x.phrase) (Base64.encodeUrl x.fresh.salt)
  plaintext := Utf8Text.encode (credentialsText x.credentials)

/-- What a message is encrypted to. -/
def Message.sealed (m : Message) : Bytes := lib.encrypt m.key m.iv m.additional m.plaintext

/-- The wrapper that is created. -/
def Creation.wrapper (x : Creation) : RecoveryWrapper :=
  wrapperOf (phraseLocator lib x.phrase) (Base64.encodeUrl x.fresh.salt)
    (Base64.encodeUrl x.fresh.iv) (Base64.encodeUrl ((x.message lib).sealed lib))
    x.fresh.createdAt

/-- A phrase that is not empty, and credentials that both implementations take. -/
structure Creation.Valid (x : Creation) : Prop where
  phrase : normalizePhrase lib x.phrase ≠ []
  credentials : Recoverable x.credentials

variable {lib}

theorem isUrlChar_encodeUrl (bytes : Bytes) :
    ∀ u ∈ Base64.encodeUrl bytes, Base64.isUrlChar u = true := fun _ => Base64.isUrlChar_of_mem

/-- **A wrapper is created**, the same by both. -/
theorem create_eq {x : Creation} (h : x.Valid lib) :
    create lib x.language x.phrase x.credentials x.fresh = .ok (x.wrapper lib) := by
  have hroot := rootOf_eq_ok_iff.mpr ⟨h.phrase, rfl⟩
  have hgiven : (x.credentials.remotePath.isEmpty ||
      x.credentials.portableKey.isEmpty) = false := by
    rw [Bool.or_eq_false_iff, isEmpty_eq_false_iff, isEmpty_eq_false_iff]
    exact ⟨h.credentials.path, h.credentials.key_ne_nil⟩
  cases hl : x.language with
  | typescript =>
    rw [create, createRecoveryWrapper, hgiven, if_neg Bool.false_ne_true, deriveRecoveryRoot, hroot]
    dsimp only [bind, Except.bind]
    rw [stringify_toValue, getD_some, deriveLocator, bytesToBase64Url_eq,
      bytesToBase64Url_eq, bytesToBase64Url_eq, bytesToBase64Url_eq]
    rfl
  | python =>
    have haad := python_wrapperAad (@isLocator_phraseLocator lib x.phrase)
      (isUrlChar_encodeUrl x.fresh.salt)
    have htext : Python.encodeUtf8 (credentialsText x.credentials) =
        .ok (Utf8Text.encode (credentialsText x.credentials)) :=
      if_pos (isWellFormed_credentialsText x.credentials)
    have hroot' : Python.deriveRecoveryRoot lib x.phrase = .ok (phraseRoot lib x.phrase) := by
      rw [python_deriveRecoveryRoot, deriveRecoveryRoot, hroot]
    have hlocator := @python_deriveLocator lib x.phrase
    have hpresent : (x.credentials.present.remotePath.isEmpty ||
        x.credentials.present.portableKey.isEmpty) = false := hgiven
    rw [create, Python.createRecoveryWrapper, Python.coerceCredentials,
      fromDict_properties h.credentials]
    dsimp only [bind, Except.bind]
    rw [hpresent, if_neg Bool.false_ne_true, hroot']
    dsimp only
    rw [properties_present, jsonStringify_properties, htext]
    dsimp only
    rw [hlocator, Python.toBase64Url, bytesToBase64Url_eq, haad]
    dsimp only
    rw [Python.toBase64Url, bytesToBase64Url_eq, Python.toBase64Url, bytesToBase64Url_eq]
    rfl

/-! ## Opening -/

theorem coerceWrapper_eq (w : RecoveryWrapper) : Python.coerceWrapper w = assertWrapper w := by
  rw [Python.coerceWrapper, assertWrapper, Bool.eq_iff_iff]
  simp only [Bool.and_eq_true]
  tauto

theorem assertWrapper_wrapper (x : Creation) : assertWrapper (x.wrapper lib) = true := by
  have hlocator := @isLocator_phraseLocator lib x.phrase
  rw [assertWrapper, Creation.wrapper]
  dsimp only [wrapperOf]
  simp [hlocator]

/-- What an implementation decodes. -/
def decodeUrl (lib : Platforms) : Language → Text → Option Bytes
  | .typescript => base64UrlToBytes lib.base64
  | .python => Python.fromBase64Url

theorem python_fromBase64Url_eq {text : Text} (h : text.any Base64.isSpace = false) :
    Python.fromBase64Url text = base64UrlToBytes .none text := by
  have hpadding : ∀ n, (List.replicate n (61 : CodeUnit)).any Base64.isSpace = false := by
    intro n
    rw [List.any_eq_false]
    intro u hu
    rw [eq_of_mem_replicate hu]
    decide
  have hreplace : ∀ n, replaceUnit 95 47 (replaceUnit 45 43 (text ++ List.replicate n 61)) =
      replaceUnit 95 47 (replaceUnit 45 43 text) ++ List.replicate n 61 := by
    intro n
    rw [replaceUnit, replaceUnit, map_append, map_append, map_replicate, map_replicate]
    rfl
  have hlength : (replaceUnit 95 47 (replaceUnit 45 43 text)).length = text.length := by
    rw [replaceUnit, replaceUnit, length_map, length_map]
  rw [Python.fromBase64Url, any_append, h, hpadding, Bool.or_false,
    if_neg Bool.false_ne_true, hreplace, base64UrlToBytes]
  dsimp only [NativeBase64.none]
  rw [hlength]

theorem decodeUrl_encodeUrl (r : Language) (bytes : Bytes) :
    decodeUrl lib r (Base64.encodeUrl bytes) = some bytes := by
  cases r with
  | typescript =>
    rw [← bytesToBase64Url_eq lib.base64]
    exact base64UrlToBytes_bytesToBase64Url lib.base64 bytes
  | python =>
    have hspace : (Base64.encodeUrl bytes).any Base64.isSpace = false := by
      rw [List.any_eq_false]
      intro u hu hspace
      have hchar := isUrlChar_encodeUrl bytes u hu
      simp only [Base64.isSpace, Bool.or_eq_true, decide_eq_true_eq] at hspace
      rcases hspace with (((rfl | rfl) | rfl) | rfl) | rfl <;> exact absurd hchar (by decide)
    rw [decodeUrl, python_fromBase64Url_eq hspace, ← bytesToBase64Url_eq .none]
    exact base64UrlToBytes_bytesToBase64Url .none bytes

/-- What an implementation decrypts. -/
def decrypted (lib : Platforms) : Language → Bytes → RecoveryWrapper → Option Bytes
  | .typescript => decryptWrapper lib
  | .python => Python.decryptWrapper lib

/-- What an implementation makes of a plaintext. -/
def recovered : Language → Bytes → Except RecoveryError RecoveredMeshCredentials
  | .typescript => recoverFrom
  | .python => Python.recoverFrom

theorem recovered_credentials (h : Recoverable c) (r : Language) :
    recovered r (Utf8Text.encode (credentialsText c)) = .ok c.present := by
  cases r with
  | typescript => exact recoverFrom_credentials c
  | python => exact python_recoverFrom_credentials h

/-- The locator of an implementation. -/
def locatorOf (lib : Platforms) : Language → Bytes → Text
  | .typescript => deriveLocator lib
  | .python => Python.deriveLocator lib

theorem locatorOf_phraseRoot (r : Language) (phrase : Text) :
    locatorOf lib r (phraseRoot lib phrase) = phraseLocator lib phrase := by
  cases r with
  | typescript => exact deriveLocator_phraseRoot phrase
  | python => exact python_deriveLocator phrase

theorem unwrap_eq (r : Language) (q : Text) (w : RecoveryWrapper) : unwrap lib r q w =
    if !assertWrapper w then .error .invalidWrapper
    else (deriveRecoveryRoot lib q).bind fun root =>
      if locatorOf lib r root ≠ w.locator then .error .doesNotMatchThisWrapper
      else (decrypted lib r root w).elim (.error .couldNotUnlock) (recovered r) := by
  cases r with
  | typescript =>
    rw [unwrap, unwrapRecoveryWrapper]
    congr 1
    dsimp only [bind]
    congr 1
    funext root
    congr 1
    show _ = Option.elim (decryptWrapper lib root w) _ _
    cases decryptWrapper lib root w <;> rfl
  | python =>
    rw [unwrap, Python.unwrapRecoveryWrapper, coerceWrapper_eq, python_deriveRecoveryRoot]
    congr 1
    dsimp only [bind]
    congr 1
    funext root
    congr 1
    show _ = Option.elim (Python.decryptWrapper lib root w) _ _
    cases Python.decryptWrapper lib root w <;> rfl

variable {w : RecoveryWrapper} {r : Language}

/-- **When a wrapper opens**: it passes the check, has the locator of the phrase, and what it
decrypts to is read. -/
theorem unwrap_eq_ok_iff :
    unwrap lib r q w = .ok c ↔
      assertWrapper w = true ∧ normalizePhrase lib q ≠ [] ∧ phraseLocator lib q = w.locator ∧
      ∃ plaintext, decrypted lib r (phraseRoot lib q) w = some plaintext ∧
        recovered r plaintext = .ok c := by
  rw [unwrap_eq]
  constructor
  · intro h
    cases hassert : assertWrapper w with
    | false =>
      rw [hassert, Bool.not_false, if_pos rfl] at h
      cases h
    | true =>
      rw [hassert, Bool.not_true, if_neg Bool.false_ne_true] at h
      obtain ⟨root, hroot, h⟩ := Handshake.of_bind_eq_ok h
      obtain ⟨hphrase, rfl⟩ := rootOf_eq_ok_iff.mp hroot
      rw [locatorOf_phraseRoot] at h
      by_cases hlocator : phraseLocator lib q = w.locator
      · rw [if_neg (not_not.mpr hlocator)] at h
        cases hdecrypted : decrypted lib r (phraseRoot lib q) w with
        | none =>
          rw [hdecrypted] at h
          cases h
        | some plaintext =>
          rw [hdecrypted] at h
          exact ⟨rfl, hphrase, hlocator, plaintext, rfl, h⟩
      · rw [if_pos hlocator] at h
        cases h
  · rintro ⟨hassert, hphrase, hlocator, plaintext, hdecrypted, hrecovered⟩
    have hroot : deriveRecoveryRoot lib q = .ok (phraseRoot lib q) :=
      rootOf_eq_ok_iff.mpr ⟨hphrase, rfl⟩
    rw [hassert, Bool.not_true, if_neg Bool.false_ne_true, hroot]
    show (if locatorOf lib r (phraseRoot lib q) ≠ w.locator then _ else _) = _
    rw [locatorOf_phraseRoot, if_neg (not_not.mpr hlocator), hdecrypted]
    exact hrecovered

theorem of_decrypted {root p : Bytes} (h : decrypted lib r root w = some p) :
    ∃ salt iv ciphertext, decodeUrl lib r w.salt = some salt ∧ decodeUrl lib r w.iv = some iv ∧
      decodeUrl lib r w.ciphertext = some ciphertext ∧
      lib.decrypt (lib.hkdf root salt kekInfo) iv (wrapperAad w.locator w.salt) ciphertext =
        some p := by
  cases r with
  | typescript =>
    obtain ⟨iv, hiv, h⟩ := bind_eq_some_iff.mp h
    obtain ⟨salt, hsalt, h⟩ := bind_eq_some_iff.mp h
    obtain ⟨ciphertext, hciphertext, h⟩ := bind_eq_some_iff.mp h
    exact ⟨salt, iv, ciphertext, hsalt, hiv, hciphertext, h⟩
  | python =>
    obtain ⟨salt, hsalt, h⟩ := bind_eq_some_iff.mp h
    obtain ⟨iv, hiv, h⟩ := bind_eq_some_iff.mp h
    obtain ⟨ciphertext, hciphertext, h⟩ := bind_eq_some_iff.mp h
    obtain ⟨additional, hadditional, h⟩ := bind_eq_some_iff.mp h
    rw [Python.wrapperAad, Python.encodeUtf8] at hadditional
    split_ifs at hadditional
    · obtain rfl := some.inj hadditional
      exact ⟨salt, iv, ciphertext, hsalt, hiv, hciphertext, h⟩
    · cases hadditional

theorem decrypted_wrapper (r : Language) (x : Creation) : decrypted lib r (phraseRoot lib x.phrase)
    (x.wrapper lib) = lib.decrypt (x.message lib).key (x.message lib).iv (x.message lib).additional
      ((x.message lib).sealed lib) := by
  have hsalt : decodeUrl lib r (x.wrapper lib).salt = some x.fresh.salt.val :=
    decodeUrl_encodeUrl r _
  have hiv : decodeUrl lib r (x.wrapper lib).iv = some x.fresh.iv.val := decodeUrl_encodeUrl r _
  have hciphertext : decodeUrl lib r (x.wrapper lib).ciphertext =
      some ((x.message lib).sealed lib) := decodeUrl_encodeUrl r _
  cases r with
  | typescript =>
    rw [decodeUrl] at hsalt hiv hciphertext
    rw [decrypted, decryptWrapper, hsalt, hiv, hciphertext]
    rfl
  | python =>
    rw [decodeUrl] at hsalt hiv hciphertext
    have haad := python_wrapperAad (@isLocator_phraseLocator lib x.phrase)
      (isUrlChar_encodeUrl x.fresh.salt)
    have hadditional : Python.wrapperAad (x.wrapper lib).locator (x.wrapper lib).salt =
      .ok (x.message lib).additional := haad
    rw [decrypted, Python.decryptWrapper, hsalt, hiv, hciphertext, hadditional]
    rfl

/-! ## What opens -/

variable (lib)

/-- **What is assumed of the cryptography.**  Among the phrases in play there are no collisions of
PBKDF2 and of the HMAC, and AES-GCM decrypts what was encrypted when a wrapper was created and
nothing else. -/
structure Trusted (phrases : List Text) (made : List Creation) : Prop where
  made_phrase : ∀ x ∈ made, x.phrase ∈ phrases
  pbkdf2_inj : ∀ p ∈ phrases, ∀ q ∈ phrases, phraseRoot lib p = phraseRoot lib q →
    Utf8Text.encode (normalizePhrase lib p) = Utf8Text.encode (normalizePhrase lib q)
  hmac_inj : ∀ p ∈ phrases, ∀ q ∈ phrases,
    lib.hmac (phraseRoot lib p) locatorInfo = lib.hmac (phraseRoot lib q) locatorInfo →
      phraseRoot lib p = phraseRoot lib q
  gcm : ∀ key iv additional c p, lib.decrypt key iv additional c = some p ↔
    ∃ x ∈ made, x.message lib = ⟨key, iv, additional, p⟩ ∧ c = (x.message lib).sealed lib

variable {lib} {phrases : List Text} {made : List Creation}

theorem encodeUrl_inj {a b : Bytes} (h : Base64.encodeUrl a = Base64.encodeUrl b) : a = b := by
  have ha := base64UrlToBytes_bytesToBase64Url .none a
  rw [bytesToBase64Url_eq, h, ← bytesToBase64Url_eq .none, base64UrlToBytes_bytesToBase64Url] at ha
  exact (some.inj ha).symm

theorem Trusted.alike (h : Trusted lib phrases made) {p : Text} (hp : p ∈ phrases)
    (hq : q ∈ phrases) (hlocator : phraseLocator lib p = phraseLocator lib q) : Alike lib p q :=
  Utf8Text.encode_eq_encode_iff.mp
    (h.pbkdf2_inj p hp q hq (h.hmac_inj p hp q hq (encodeUrl_inj hlocator)))

/-- **A created wrapper opens** with every spelling of its phrase. -/
theorem created_opens (h : Trusted lib phrases made) {x : Creation} (hx : x ∈ made)
    (hvalid : x.Valid lib) (hq : Alike lib q x.phrase) (r : Language) :
    unwrap lib r q (x.wrapper lib) = .ok x.credentials.present := by
  have hroot := hq.root_eq
  refine unwrap_eq_ok_iff.mpr ⟨assertWrapper_wrapper x, hq.normalize_ne_nil hvalid.phrase, ?_,
    Utf8Text.encode (credentialsText x.credentials), ?_, recovered_credentials hvalid.credentials r⟩
  · rw [phraseLocator, hroot]
    rfl
  · rw [hroot, decrypted_wrapper]
    exact (h.gcm _ _ _ _ _).mpr ⟨x, hx, rfl, rfl⟩

/-- **What opens was created**, with a spelling of the phrase. -/
theorem opened_created (h : Trusted lib phrases made) (hvalid : ∀ x ∈ made, x.Valid lib)
    (hq : q ∈ phrases) (hopened : unwrap lib r q w = .ok c) :
    ∃ x ∈ made, Alike lib q x.phrase ∧ c = x.credentials.present ∧
      w.locator = (x.wrapper lib).locator ∧ w.salt = (x.wrapper lib).salt ∧
      decodeUrl lib r w.iv = some x.fresh.iv.val ∧
      decodeUrl lib r w.ciphertext = some ((x.message lib).sealed lib) := by
  obtain ⟨hassert, -, hlocator, plaintext, hdecrypted, hrecovered⟩ := unwrap_eq_ok_iff.mp hopened
  obtain ⟨salt, iv, ciphertext, -, hiv, hciphertext, hdecrypt⟩ := of_decrypted hdecrypted
  obtain ⟨x, hx, hmessage, rfl⟩ := (h.gcm _ _ _ _ _).mp hdecrypt
  have hisLocator : isLocator w.locator = true := by
    rw [← hlocator]
    exact isLocator_phraseLocator q
  obtain ⟨hl, hs⟩ := wrapperAad_inj (isLocator_phraseLocator x.phrase) hisLocator
    (isUrlChar_encodeUrl _) (congrArg Message.additional hmessage).symm
  have hplaintext : Utf8Text.encode (credentialsText x.credentials) = plaintext :=
    congrArg Message.plaintext hmessage
  rw [← hplaintext, recovered_credentials (hvalid x hx).credentials] at hrecovered
  have hivs : x.fresh.iv.val = iv := congrArg Message.iv hmessage
  refine ⟨x, hx, h.alike hq (h.made_phrase x hx) (hlocator.trans hl),
    (Except.ok.inj hrecovered).symm, hl, hs, ?_, hciphertext⟩
  rw [hiv, hivs]

/-- What the tag of a wrapper covers is the same for a reader: the texts of the locator and the
salt, and the bytes of the nonce and the ciphertext. -/
def SameSealed (lib : Platforms) (r : Language) (w w' : RecoveryWrapper) : Prop :=
  w.locator = w'.locator ∧ w.salt = w'.salt ∧ decodeUrl lib r w.iv = decodeUrl lib r w'.iv ∧
    decodeUrl lib r w.ciphertext = decodeUrl lib r w'.ciphertext

/-- **Recovery wrappers.**  Either implementation opens what either created with every phrase that
is alike, to the credentials, and with no other.  Whatever a wrapper is changed to, it opens only
as a wrapper that was created with a phrase that is alike. -/
theorem recovery_wrappers (h : Trusted lib phrases made) (hvalid : ∀ x ∈ made, x.Valid lib)
    {x : Creation} (hx : x ∈ made) {q : Text} (hq : q ∈ phrases) (r : Language) :
    ∃ w, create lib x.language x.phrase x.credentials x.fresh = .ok w ∧
      (Alike lib q x.phrase → unwrap lib r q w = .ok x.credentials.present) ∧
      (¬ Alike lib q x.phrase → ∀ c, unwrap lib r q w ≠ .ok c) ∧
      ∀ locator salt iv ciphertext c,
        unwrap lib r q { w with locator, salt, iv, ciphertext } = .ok c →
        ∃ y ∈ made, ∃ w', create lib y.language y.phrase y.credentials y.fresh = .ok w' ∧
          Alike lib q y.phrase ∧ SameSealed lib r { w with locator, salt, iv, ciphertext } w' ∧
          c = y.credentials.present := by
  refine ⟨x.wrapper lib, create_eq (hvalid x hx), fun halike => created_opens h hx (hvalid x hx)
    halike r, fun hnot c hopened => ?_, fun locator salt iv ciphertext c hopened => ?_⟩
  · -- the wrapper it opens as has its locator
    obtain ⟨y, hy, halike, -, hlocator, -⟩ := opened_created h hvalid hq hopened
    exact hnot (Eq.trans halike (h.alike (h.made_phrase x hx) (h.made_phrase y hy) hlocator).symm)
  · obtain ⟨y, hy, halike, hcredentials, hlocator, hsalt, hiv, hciphertext⟩ :=
      opened_created h hvalid hq hopened
    refine ⟨y, hy, y.wrapper lib, create_eq (hvalid y hy), halike, ⟨hlocator, hsalt, ?_, ?_⟩,
      hcredentials⟩
    · exact hiv.trans (decodeUrl_encodeUrl r _).symm
    · exact hciphertext.trans (decodeUrl_encodeUrl r _).symm

end Programs

/-! ### Two wrappers of one phrase -/

/-- Platforms that decompose one letter, and whose cipher opens a list of messages. -/
def opening (made : List Message) : Platforms where
  nfkd t := t.flatMap fun u => if u = 0xE9 then [0x65, 0x301] else [u]
  pbkdf2 password _ _ := password
  hmac key _ := (key ++ List.replicate 32 0).take 32
  hkdf material salt _ := material ++ salt
  encrypt _ _ _ plaintext := plaintext ++ List.replicate 16 0
  decrypt key iv additional c := (made.find? fun m => decide (m.key = key) && decide (m.iv = iv) &&
    decide (m.additional = additional) && decide (c = m.plaintext ++ List.replicate 16 0)).map
      Message.plaintext
  base64 := .none
  printers := ⟨fun _ => nullText, fun _ => nullText⟩
  length_hmac key data := by
    rw [length_take, length_append, length_replicate]
    omega

/-- Platforms for a list of creations. -/
def openingAll (made : List Creation) : Platforms :=
  opening (made.map (Creation.message (opening [])))

theorem gcm_openingAll (made : List Creation) (key iv additional c p : Bytes) :
    (openingAll made).decrypt key iv additional c = some p ↔
      ∃ x ∈ made, x.message (openingAll made) = ⟨key, iv, additional, p⟩ ∧
        c = (x.message (openingAll made)).sealed (openingAll made) := by
  show ((made.map (Creation.message (opening []))).find? _).map Message.plaintext = some p ↔ _
  rw [map_eq_some_iff]
  constructor
  · rintro ⟨m, hm, rfl⟩
    have hfound := List.find?_some hm
    simp only [Bool.and_eq_true, decide_eq_true_eq] at hfound
    obtain ⟨⟨⟨rfl, rfl⟩, rfl⟩, hc⟩ := hfound
    obtain ⟨x, hx, rfl⟩ := mem_map.mp (mem_of_find?_eq_some hm)
    exact ⟨x, hx, rfl, hc⟩
  · rintro ⟨x, hx, hmessage, rfl⟩
    have hkey := congrArg Message.key hmessage
    have hiv := congrArg Message.iv hmessage
    have hadditional := congrArg Message.additional hmessage
    have hplaintext := congrArg Message.plaintext hmessage
    cases hfound : (made.map (Creation.message (opening []))).find? fun m =>
        decide (m.key = key) && decide (m.iv = iv) && decide (m.additional = additional) &&
          decide ((x.message (openingAll made)).sealed (openingAll made) =
            m.plaintext ++ List.replicate 16 0) with
    | none =>
      have hnot := List.find?_eq_none.mp hfound _ (mem_map_of_mem hx)
      simp only [Bool.and_eq_true, decide_eq_true_eq] at hnot
      exact absurd ⟨⟨⟨hkey, hiv⟩, hadditional⟩, rfl⟩ hnot
    | some m =>
      have hm := List.find?_some hfound
      simp only [Bool.and_eq_true, decide_eq_true_eq] at hm
      refine ⟨m, rfl, ?_⟩
      have hsame := append_cancel_right hm.2
      rw [← hsame]
      exact hplaintext

/-- A key in base58: a two, and ones. -/
def someKey : Text := 50 :: List.replicate 43 49

/-- A wrapper made by core for half a pair as the phrase. -/
def older : Creation :=
  ⟨.typescript, [0xD800], ⟨[97], someKey, some []⟩,
    ⟨⟨List.replicate 16 0, by decide⟩, ⟨List.replicate 12 0, by decide⟩, []⟩⟩

/-- A wrapper made by Python for the same phrase. -/
def newer : Creation :=
  ⟨.python, [0xD800], ⟨[98], someKey, none⟩,
    ⟨⟨List.replicate 16 1, by decide⟩, ⟨List.replicate 12 1, by decide⟩, []⟩⟩

/-- A wrapper made by Python for the phrase "thé  noir", with an em space. -/
def worded : Creation :=
  ⟨.python, [0x74, 0x68, 0xE9, 0x20, 0x2003, 0x6E, 0x6F, 0x69, 0x72],
    ⟨[99], someKey, some [100]⟩,
    ⟨⟨List.replicate 16 2, by decide⟩, ⟨List.replicate 12 2, by decide⟩, []⟩⟩

/-- The phrase of it with a letter and an accent, and a line feed at the end. -/
def respelled : Text := [0x74, 0x68, 0x65, 0x301, 0x20, 0x6E, 0x6F, 0x69, 0x72, 0x0A]

/-- The wrappers made. -/
def someMade : List Creation := [older, newer, worded]

/-- The platforms for them. -/
def somePlatforms : Platforms := openingAll someMade

/-- The phrases in play. -/
def somePhrases : List Text := [[0xD800], [0xFFFD], worded.phrase, respelled]

theorem canonical_someKey : Python.canonicalPortableKey someKey = some someKey := by
  decide +kernel

theorem trusted_somePlatforms : Trusted somePlatforms somePhrases someMade where
  made_phrase := by decide
  pbkdf2_inj _ _ _ _ h := h
  hmac_inj := by decide +kernel
  gcm := gcm_openingAll _

theorem valid_some : ∀ x ∈ someMade, x.Valid somePlatforms := by
  intro x hx
  simp only [someMade, mem_cons, not_mem_nil, or_false] at hx
  rcases hx with rfl | rfl | rfl
  · exact ⟨by decide, by decide, canonical_someKey⟩
  · exact ⟨by decide, by decide, canonical_someKey⟩
  · exact ⟨by decide, by decide, canonical_someKey⟩

/-- The wrapper of Python opens in TypeScript with the other spelling, and not with U+FFFD. -/
theorem recovery_wrappers_respelled : ∃ w,
    create somePlatforms .python worded.phrase worded.credentials worded.fresh = .ok w ∧
      unwrap somePlatforms .typescript respelled w = .ok worded.credentials.present ∧
      ∀ c, unwrap somePlatforms .typescript [0xFFFD] w ≠ .ok c := by
  have hworded : worded ∈ someMade := by simp [someMade]
  obtain ⟨w, hcreate, hopens, -⟩ := recovery_wrappers trusted_somePlatforms valid_some hworded
    (show respelled ∈ somePhrases by decide) .typescript
  obtain ⟨w', hcreate', -, hrejects, -⟩ := recovery_wrappers trusted_somePlatforms valid_some
    hworded (show [0xFFFD] ∈ somePhrases by decide) .typescript
  obtain rfl := Except.ok.inj (hcreate.symm.trans hcreate')
  exact ⟨w, hcreate, hopens (by rw [Alike]; decide), hrejects (by rw [Alike]; decide)⟩

/-- **More opens than the same phrase and the same wrapper.**  The phrase U+FFFD has another normal
form, and opens the wrapper; and the older wrapper, changed to the values of the newer, opens. -/
theorem not_recovery_wrappers :
    normalizePhrase somePlatforms [0xFFFD] ≠ normalizePhrase somePlatforms older.phrase ∧
      create somePlatforms .typescript older.phrase older.credentials older.fresh =
        .ok (older.wrapper somePlatforms) ∧
      unwrap somePlatforms .python [0xFFFD] (older.wrapper somePlatforms) =
        .ok older.credentials.present ∧
      (newer.wrapper somePlatforms).salt ≠ (older.wrapper somePlatforms).salt ∧
      unwrap somePlatforms .typescript older.phrase { older.wrapper somePlatforms with
        salt := (newer.wrapper somePlatforms).salt, iv := (newer.wrapper somePlatforms).iv,
        ciphertext := (newer.wrapper somePlatforms).ciphertext } =
          .ok newer.credentials.present := by
  have holder : older ∈ someMade := mem_cons_self
  have hnewer : newer ∈ someMade := mem_cons_of_mem _ mem_cons_self
  refine ⟨by decide, create_eq (valid_some older holder),
    created_opens trusted_somePlatforms holder (valid_some older holder) rfl .python,
    by decide, ?_⟩
  exact created_opens trusted_somePlatforms hnewer (valid_some newer hnewer) rfl .typescript

end Interocitor.Recovery
