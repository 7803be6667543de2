import Interocitor.Native.Envelopes
import Interocitor.Native.StoredFrames

/-!
# Durable files: `stored-file.ts`, the file methods of `sync-engine.ts`, and `memory.ts`

Beside its rows an application stores files.  A file is addressed by a path; on an encrypted mesh
the remote sees a keyed hash in its place, and what it stores is one envelope: a frame with a header
that describes the file, and the bytes.  The bytes may have been sealed under a key of their own
before, and then a guard that is derived from that key goes with the request, by which the remote
refuses to overwrite or delete the file for anybody else.

The remote is the memory adapter, the reference for the others.  An operation makes one call that
changes it, and opens the bytes of one call; so operations are taken one at a time.  What Web Crypto
computes is a parameter: `FileCrypto`.  Access errors, and that the engine may have no adapter, are
left out.
-/

namespace Interocitor

open CodeUnits OrderedRecord

namespace Files

open Envelopes (Runtimes EnvelopeError orError sealBytes openBytes)
open StoredFrames (HeaderValue StoredFileHeader FrameError encodeStoredFrame decodeStoredFrame
  sizeName digestName contentTypeName taintName)
open Handshake (property)

/-- A byte string. -/
abbrev Bytes := List UInt8

/-- A key of 256 bits. -/
abbrev Key := Envelopes.MeshKey

/-- What Web Crypto computes: AES-GCM and the codecs, SHA-256 in hex, HKDF of a secret for a
purpose, and HMAC in hex. -/
structure FileCrypto where
  lib : Runtimes
  sha256Hex : Bytes → Text
  deriveHmacKey : Bytes → Bytes → Bytes
  hmacHex : Bytes → Text → Text

/-- What the methods throw. -/
inductive FileError where
  | noRemotePath
  | emptyPath
  | emptyTaint
  | notFound (path : Text)
  | sealed (path : Text)
  | compression
  | envelope (e : EnvelopeError)
  | frame (e : FrameError)
  -- `getFile` of a sealed file
  | tainted
  | keyRequired
  | integrity (expected actual : Text)
  deriving DecidableEq

/-! ## Names -/

/-- `"/files/"`. -/
def filesPart : Text := [47, 102, 105, 108, 101, 115, 47]

/-- `PATH_INFO`. -/
def pathInfo : Bytes :=
  [105, 110, 116, 101, 114, 111, 99, 105, 116, 111, 114, 47, 100, 117, 114, 97, 98, 108, 101, 45,
    102, 105, 108, 101, 45, 112, 97, 116, 104, 47, 118, 49]

/-- `GUARD_INFO`. -/
def guardInfo : Bytes :=
  [105, 110, 116, 101, 114, 111, 99, 105, 116, 111, 114, 47, 100, 117, 114, 97, 98, 108, 101, 45,
    102, 105, 108, 101, 45, 103, 117, 97, 114, 100, 47, 118, 49]

/-- The parts of a path that are not empty. -/
def pathParts (path : Text) : List Text := (path.splitOn 47).filter fun part => !part.isEmpty

/-- `cleanFilePath`. -/
def cleanFilePath (path : Text) : Except FileError Text :=
  let clean := List.intercalate [47] (pathParts path)
  if clean.isEmpty then .error .emptyPath else .ok clean

/-- `path.replace(/\/$/, "")`. -/
def dropSlash (path : Text) : Text := if path.getLast? = some 47 then path.dropLast else path

/-- An engine, as far as files go: the root of its mesh, the mesh key if it is encrypted, and the
device. -/
structure FilesEngine where
  remotePath : Text
  meshKey : Option Key
  deviceId : Text

variable (crypto : FileCrypto)

/-- `deriveFilePathKey`. -/
def deriveFilePathKey (meshKey : Key) : Bytes := crypto.deriveHmacKey meshKey pathInfo

/-- `hideFilePath`. -/
def hideFilePath (pathKey : Bytes) (path : Text) : Except FileError Text :=
  (cleanFilePath path).map (crypto.hmacHex pathKey)

/-- `deriveFileGuard`. -/
def deriveFileGuard (sealKey : Key) (objectName : Text) : Text :=
  crypto.hmacHex (crypto.deriveHmacKey sealKey guardInfo) objectName

/-- `storedFilePath`. -/
def storedFilePath (engine : FilesEngine) (path : Text) : Except FileError Text := do
  if engine.remotePath.isEmpty then .error .noRemotePath
  let clean ← cleanFilePath path
  let name ← match engine.meshKey with
    | some meshKey => hideFilePath crypto (deriveFilePathKey crypto meshKey) clean
    | none => .ok clean
  .ok (dropSlash engine.remotePath ++ filesPart ++ name)

/-- `filePath.split("/").pop()`. -/
def lastPart (path : Text) : Text := ((path.splitOn 47).getLast?).getD path

/-- `fileGuard`. -/
def fileGuard (sealKey : Key) (filePath : Text) : Text :=
  deriveFileGuard crypto sealKey (lastPart filePath)

/-! ## What is stored -/

/-- `FileSeal`. -/
structure FileSeal where
  taint : Text
  key : Key
  deriving DecidableEq

/-- The nonces that a `putFile` draws. -/
structure Nonces where
  mesh : Envelopes.Iv
  sealed : Envelopes.Iv

/-- A header as an object. -/
def headerObject (header : StoredFileHeader) : List (Text × Option HeaderValue) :=
  header.members.map fun p => (p.1, some p.2)

/-- The header of `encodeStoredFile`. -/
def fileHeader (data : Bytes) (contentType : Option Text) (fileSeal : Option FileSeal) :
    StoredFileHeader where
  size := data.length
  digest := crypto.sha256Hex data
  contentType := contentType.filter fun t => !t.isEmpty
  taint := fileSeal.map FileSeal.taint

/-- `encryptBytes`. -/
def encryptBytes (key : Key) (iv : Envelopes.Iv) (data : Bytes) : Except FileError Bytes :=
  match sealBytes crypto.lib .typescript key iv data with
  | some sealed => .ok sealed
  | none => .error .compression

/-- `decryptBytes`. -/
def decryptBytes (key : Key) (data : Bytes) : Except FileError Bytes :=
  (openBytes crypto.lib .typescript key data).mapError .envelope

/-- `encodeStoredFile`, with `sealStoredFrame`. -/
def encodeStoredFile (engine : FilesEngine) (data : Bytes) (contentType : Option Text)
    (fileSeal : Option FileSeal) (nonces : Nonces) :
    Except FileError (Bytes × StoredFileHeader) := do
  let header := fileHeader crypto data contentType fileSeal
  let body ← match fileSeal with
    | some s => encryptBytes crypto s.key nonces.sealed data
    | none => .ok data
  let frame := encodeStoredFrame (headerObject header) body
  let stored ← match engine.meshKey with
    | some meshKey => encryptBytes crypto meshKey nonces.mesh frame
    | none => .ok frame
  .ok (stored, header)

/-- `decodeStoredFile`, with `openStoredFrame`: the header as it was read, and the body. -/
def decodeStoredFile (engine : FilesEngine) (stored : Bytes) :
    Except FileError (JsValue × Bytes) := do
  let frame ← match engine.meshKey with
    | some meshKey => decryptBytes crypto meshKey stored
    | none => .ok stored
  let (header, body) ← (decodeStoredFrame frame).mapError .frame
  .ok (.object header, body)

/-! ## The memory adapter -/

/-- `StoredFileMetadata`, as far as the adapter fills it in. -/
structure StoredFileMetadata where
  name : Text
  path : Text
  size : ℕ
  modifiedTime : Text
  uploadedAt : Option Text
  uploadedByDeviceId : Option Text
  storedSize : Option ℕ
  lastAccessedAt : Option Text
  useCount : Option ℕ
  deriving DecidableEq

/-- `MemoryAdapter`: its maps.  A file is its bytes and the time it was written. -/
structure MemoryAdapter where
  files : Record Text (Bytes × Text)
  storedFileMetadata : Record Text StoredFileMetadata
  sealGuards : Record Text Text

namespace MemoryAdapter

variable (m : MemoryAdapter)

/-- `requireSealGuard`. -/
def requireSealGuard (path : Text) (presented : Option Text) : Except FileError Unit :=
  match m.sealGuards.get path with
  | some expected =>
    if !expected.isEmpty && decide (presented ≠ some expected) then .error (.sealed path)
    else .ok ()
  | none => .ok ()

/-- `putStoredFile`, at a time. -/
def putStoredFile (now path : Text) (data : Bytes) (deviceId : Text) (guard : Option Text) :
    Except FileError (MemoryAdapter × StoredFileMetadata) := do
  m.requireSealGuard path guard
  let name := lastPart path
  let metadata : StoredFileMetadata :=
    { name := if name.isEmpty then path else name
      path := path
      size := data.length
      modifiedTime := now
      uploadedAt := some now
      uploadedByDeviceId := some deviceId
      storedSize := some data.length
      lastAccessedAt := none
      useCount := some 0 }
  .ok ({ files := m.files.set path (data, now)
         storedFileMetadata := m.storedFileMetadata.set path metadata
         sealGuards := match guard.filter fun g => !g.isEmpty with
           | some g => m.sealGuards.set path g
           | none => m.sealGuards.erase path }, metadata)

/-- `getStoredFile`: the bytes, and one more use. -/
def getStoredFile (now path : Text) : Except FileError (MemoryAdapter × Bytes) :=
  match m.files.get path with
  | none => .error (.notFound path)
  | some (data, _) =>
    match m.storedFileMetadata.get path with
    | none => .ok (m, data)
    | some metadata =>
      let next : StoredFileMetadata :=
        { metadata with
          lastAccessedAt := some now
          useCount := some (metadata.useCount.getD 0 + 1) }
      .ok ({ m with storedFileMetadata := m.storedFileMetadata.set path next }, data)

/-- `deleteStoredFile`. -/
def deleteStoredFile (path : Text) (guard : Option Text) : Except FileError MemoryAdapter := do
  m.requireSealGuard path guard
  .ok { files := m.files.erase path
        storedFileMetadata := m.storedFileMetadata.erase path
        sealGuards := m.sealGuards.erase path }

/-- `getStoredFileMetadata`, falling back to `getFileMetadata`. -/
def getStoredFileMetadata (path : Text) : Option StoredFileMetadata :=
  match m.storedFileMetadata.get path with
  | some metadata => some metadata
  | none =>
    (m.files.get path).map fun file =>
      let name := lastPart path
      { name := if name.isEmpty then path else name
        path := path
        size := file.1.length
        modifiedTime := file.2
        uploadedAt := none
        uploadedByDeviceId := none
        storedSize := some file.1.length
        lastAccessedAt := none
        useCount := none }

end MemoryAdapter

/-! ## The file methods -/

/-- What `describeStoredFile` returns: the adapter's metadata, and what the header says. -/
structure DescribedFile where
  metadata : StoredFileMetadata
  plaintextSize : JsValue
  contentType : JsValue
  taint : JsValue
  digest : JsValue

/-- `describeStoredFile`. -/
def describeStoredFile (metadata : StoredFileMetadata) (header : JsValue) : DescribedFile where
  metadata := { metadata with storedSize := some (metadata.storedSize.getD metadata.size) }
  plaintextSize := property sizeName header
  contentType := property contentTypeName header
  taint := property taintName header
  digest := property digestName header

/-- The header of a `putFile` as an object that is described. -/
def headerValue (header : StoredFileHeader) : JsValue :=
  .object (header.members.map fun p =>
    (p.1, StoredFrames.valueOf (fun n => .number (.finite n)) .string p.2))

/-- A text that is only white space: `!text.trim()`. -/
def isBlank (t : Text) : Bool := t.all isSpace

/-- `putFile`. -/
def putFile (engine : FilesEngine) (now : Text) (m : MemoryAdapter) (path : Text) (data : Bytes)
    (contentType : Option Text) (fileSeal : Option FileSeal) (nonces : Nonces) :
    Except FileError (MemoryAdapter × DescribedFile) := do
  if fileSeal.any fun s => isBlank s.taint then .error .emptyTaint
  let filePath ← storedFilePath crypto engine path
  let (stored, header) ← encodeStoredFile crypto engine data contentType fileSeal nonces
  let (m', metadata) ← m.putStoredFile now filePath stored engine.deviceId
    (fileSeal.map fun s => fileGuard crypto s.key filePath)
  .ok (m', describeStoredFile metadata (headerValue header))

/-- What is falsy. -/
def truthy : JsValue → Bool
  | .undefined => false
  | .null => false
  | .bool b => b
  | .number .nan => false
  | .number .negZero => false
  | .number (.finite q) => decide (q ≠ 0)
  | .string t => !t.isEmpty
  | _ => true

/-- `SealedFile`: what `open` closes over. -/
structure SealedFile where
  described : DescribedFile
  taint : JsValue
  body : Bytes
  expectedDigest : Option Text

/-- `SealedFile.open`. -/
def SealedFile.openWith (file : SealedFile) (key : Option Key) : Except FileError Bytes := do
  let plaintext ← match truthy file.taint, key with
    | true, none => .error .keyRequired
    | true, some key => decryptBytes crypto key file.body
    | false, _ => .ok file.body
  match file.expectedDigest.filter fun t => !t.isEmpty with
  | none => .ok plaintext
  | some expected =>
    if crypto.sha256Hex plaintext = expected then .ok plaintext
    else .error (.integrity expected (crypto.sha256Hex plaintext))

/-- The metadata of `openFile` where the adapter has none. -/
def fallbackMetadata (now path : Text) (stored : Bytes) : StoredFileMetadata where
  name := lastPart path
  path := path
  size := stored.length
  modifiedTime := now
  uploadedAt := none
  uploadedByDeviceId := none
  storedSize := some stored.length
  lastAccessedAt := none
  useCount := none

/-- `openFile`: the adapter afterwards, and the file or an error. -/
def openFile (engine : FilesEngine) (now : Text) (m : MemoryAdapter) (path : Text)
    (expectedDigest : Option Text) : MemoryAdapter × Except FileError SealedFile :=
  match storedFilePath crypto engine path with
  | .error e => (m, .error e)
  | .ok filePath =>
    match m.getStoredFile now filePath with
    | .error e => (m, .error e)
    | .ok (m', stored) =>
      let metadata := (m.getStoredFileMetadata filePath).getD (fallbackMetadata now filePath stored)
      (m', (decodeStoredFile crypto engine stored).map fun r =>
        { described := describeStoredFile metadata r.1
          taint := property taintName r.1
          body := r.2
          expectedDigest := expectedDigest })

/-- `getFile`. -/
def getFile (engine : FilesEngine) (now : Text) (m : MemoryAdapter) (path : Text)
    (expectedDigest : Option Text) : MemoryAdapter × Except FileError Bytes :=
  let (m', opened) := openFile crypto engine now m path expectedDigest
  (m', do
    let file ← opened
    if truthy file.taint then .error .tainted
    file.openWith crypto none)

/-- `deleteFile`. -/
def deleteFile (engine : FilesEngine) (m : MemoryAdapter) (path : Text) (key : Option Key) :
    Except FileError MemoryAdapter := do
  let filePath ← storedFilePath crypto engine path
  m.deleteStoredFile filePath (key.map fun k => fileGuard crypto k filePath)

/-- `getFileMetadata`: `none` if there is no such file. -/
def getFileMetadata (engine : FilesEngine) (now : Text) (m : MemoryAdapter) (path : Text) :
    MemoryAdapter × Except FileError (Option DescribedFile) :=
  match storedFilePath crypto engine path with
  | .error e => (m, .error e)
  | .ok filePath =>
    match m.getStoredFileMetadata filePath with
    | none => (m, .ok none)
    | some _ =>
      let (m', opened) := openFile crypto engine now m path none
      (m', opened.map fun file => some file.described)

end Files

end Interocitor
