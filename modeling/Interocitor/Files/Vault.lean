import Interocitor.Files.Engine

/-!
# What durable files are for: a vault of files by their paths

An application puts a file at a path and takes it from there again.  It may seal the file under a
key of its own; then only who has this key can read it, replace it or delete it.  It does not ask
which device has put a file, under which name the remote has it, and how it is framed, compressed
and encrypted there.  So what the file methods are for is a function from paths to files: `Vault`.

Where the vault refuses a request the texts of the errors differ: the vault does not know the path
at the remote.  `refusal` forgets the texts.
-/

namespace Interocitor

open CodeUnits

namespace Files

/-! ## Requests and replies -/

/-- What an application learns about a file. -/
structure About where
  plaintextSize : JsValue
  contentType : JsValue
  taint : JsValue
  digest : JsValue

/-- Of what the engine describes, the part that does not depend on the remote. -/
def DescribedFile.about (d : DescribedFile) : About :=
  { d with }

/-- What an application asks. -/
inductive FileRequest where
  | put (path : Text) (data : Bytes) (contentType : Option Text) (fileSeal : Option FileSeal)
  | get (path : Text) (expectedDigest : Option Text)
  /-- `openFile`, and `open` of what it returns. -/
  | read (path : Text) (expectedDigest : Option Text) (key : Option Key)
  | delete (path : Text) (key : Option Key)
  | metadata (path : Text)

/-- What a method returns. -/
inductive Reply where
  | described (about : About)
  | bytes (data : Bytes)
  | done
  | absent

/-- What `getFileMetadata` returns. -/
def metadataReply : Option DescribedFile → Reply
  | some file => .described file.about
  | none => .absent

/-- A request, the device that makes it, the time, and the nonces that are drawn. -/
structure Call where
  request : FileRequest
  deviceId : Text
  now : Text
  nonces : Nonces

/-- What the devices of a mesh share. -/
structure FilesMesh where
  remotePath : Text
  meshKey : Option Key

/-- The engine of a device. -/
def FilesMesh.engine (mesh : FilesMesh) (deviceId : Text) : FilesEngine :=
  ⟨mesh.remotePath, mesh.meshKey, deviceId⟩

variable (crypto : FileCrypto)

/-- One call of a file method. -/
def perform (mesh : FilesMesh) (m : MemoryAdapter) (c : Call) :
    MemoryAdapter × Except FileError Reply :=
  let engine := mesh.engine c.deviceId
  match c.request with
  | .put path data contentType fileSeal =>
    match putFile crypto engine c.now m path data contentType fileSeal c.nonces with
    | .ok (m', file) => (m', .ok (.described file.about))
    | .error e => (m, .error e)
  | .get path expectedDigest =>
    let (m', data) := getFile crypto engine c.now m path expectedDigest
    (m', data.map .bytes)
  | .read path expectedDigest key =>
    let (m', opened) := openFile crypto engine c.now m path expectedDigest
    (m', opened.bind fun file => (file.openWith crypto key).map .bytes)
  | .delete path key =>
    match deleteFile crypto engine m path key with
    | .ok m' => (m', .ok .done)
    | .error e => (m, .error e)
  | .metadata path =>
    let (m', described) := getFileMetadata crypto engine c.now m path
    (m', described.map metadataReply)

/-! ## The vault -/

/-- A file, as an application thinks of it. -/
structure VaultFile where
  data : Bytes
  contentType : Option Text
  fileSeal : Option FileSeal

/-- Files by their paths. -/
abbrev Vault := Text → Option VaultFile

/-- Why a request is refused. -/
inductive Refusal where
  | noRemotePath
  | emptyPath
  | emptyTaint
  | notFound
  /-- It would replace or delete a file that is sealed under another key. -/
  | guarded
  | tainted
  | keyRequired
  | unreadable
  | integrity (expected actual : Text)

/-- The errors without their texts. -/
def refusal : FileError → Refusal
  | .noRemotePath => .noRemotePath
  | .emptyPath => .emptyPath
  | .emptyTaint => .emptyTaint
  | .notFound _ => .notFound
  | .sealed _ => .guarded
  | .tainted => .tainted
  | .keyRequired => .keyRequired
  | .integrity expected actual => .integrity expected actual
  | .compression => .unreadable
  | .envelope _ => .unreadable
  | .frame _ => .unreadable

/-- An optional text as a JavaScript value. -/
def optionalText (t : Option Text) : JsValue := t.elim .undefined .string

namespace VaultFile

variable (f : VaultFile)

/-- What there is to know about a file. -/
def about : About where
  plaintextSize := .number (.finite f.data.length)
  contentType := optionalText (f.contentType.filter fun t => !t.isEmpty)
  taint := optionalText (f.fileSeal.map FileSeal.taint)
  digest := .string (crypto.sha256Hex f.data)

/-- Somebody who has this key may replace or delete the file. -/
def Yields (key : Option Key) : Prop := ∀ s ∈ f.fileSeal, key = some s.key

instance (key : Option Key) : Decidable (f.Yields key) :=
  inferInstanceAs (Decidable (∀ s ∈ f.fileSeal, key = some s.key))

/-- The bytes, if they have the digest that is expected. -/
def verified (expectedDigest : Option Text) : Except Refusal Reply :=
  match expectedDigest.filter fun t => !t.isEmpty with
  | none => .ok (.bytes f.data)
  | some expected =>
    if crypto.sha256Hex f.data = expected then .ok (.bytes f.data)
    else .error (.integrity expected (crypto.sha256Hex f.data))

/-- Read the file without a key. -/
def get (expectedDigest : Option Text) : Except Refusal Reply :=
  match f.fileSeal with
  | some _ => .error .tainted
  | none => f.verified crypto expectedDigest

/-- Read the file, with a key or without one. -/
def read (expectedDigest : Option Text) (key : Option Key) : Except Refusal Reply :=
  match f.fileSeal, key with
  | some s, some k =>
    if k = s.key then f.verified crypto expectedDigest else .error .unreadable
  | some _, none => .error .keyRequired
  | none, _ => f.verified crypto expectedDigest

end VaultFile

namespace Vault

variable (v : Vault)

/-- The path under which the vault has a file. -/
def locate (remotePath path : Text) : Except Refusal Text :=
  if remotePath.isEmpty then .error .noRemotePath else (cleanFilePath path).mapError refusal

/-- A request, at a path of the vault. -/
def handle (path : Text) : FileRequest → Vault × Except Refusal Reply
  | .put _ data contentType fileSeal =>
    if ∀ f ∈ v path, f.Yields (fileSeal.map FileSeal.key) then
      let f : VaultFile := ⟨data, contentType, fileSeal⟩
      (Function.update v path (some f), .ok (.described (f.about crypto)))
    else (v, .error .guarded)
  | .get _ expectedDigest =>
    (v, (v path).elim (.error .notFound) fun f => f.get crypto expectedDigest)
  | .read _ expectedDigest key =>
    (v, (v path).elim (.error .notFound) fun f => f.read crypto expectedDigest key)
  | .delete _ key =>
    if ∀ f ∈ v path, f.Yields key then (Function.update v path none, .ok .done)
    else (v, .error .guarded)
  | .metadata _ => (v, (v path).elim (.ok .absent) fun f => .ok (.described (f.about crypto)))

end Vault

/-- The path of a request. -/
def FileRequest.path : FileRequest → Text
  | .put path _ _ _ => path
  | .get path _ => path
  | .read path _ _ => path
  | .delete path _ => path
  | .metadata path => path

/-- A request that seals a file, but gives it no taint. -/
def FileRequest.isUntainted : FileRequest → Bool
  | .put _ _ _ fileSeal => fileSeal.any fun s => isBlank s.taint
  | _ => false

/-- **The vault.**  One request. -/
def vaultStep (remotePath : Text) (v : Vault) (request : FileRequest) :
    Vault × Except Refusal Reply :=
  if request.isUntainted then (v, .error .emptyTaint)
  else
    match Vault.locate remotePath request.path with
    | .error e => (v, .error e)
    | .ok path => v.handle crypto path request

end Files

end Interocitor
