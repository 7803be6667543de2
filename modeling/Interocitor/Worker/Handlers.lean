import Interocitor.Worker.Files
import Interocitor.Worker.Maintenance
import Interocitor.Worker.StoredFiles

/-!
# `worker.ts`, `ops.ts`: the handlers of IO requests

An IO request that was let through is answered by a handler.  A handler reads and writes the
tables of the host, each time by one batch of statements, and in between it waits: for the
database, a cache, the store of bodies, an audit callback.  While it waits, other requests
change the tables as they like.  So a handler is a program of `Foundation.Interaction`, whose
questions are the requests it waits for, and what it does to the tables is what its batches
do, one by one.

Which handlers write?  By `ioRequestAccess`, those of `PUT` and `DELETE`.  The others are
*reads*, and reads write as well: `opGetFile` counts the operation in `mesh_paths`, and
`handleGetStoredFile` counts the use in the row of the file that it serves.

* `Statement.exec`: what a statement does to the tables.
* `reply`: the answers to the questions, given what the world outside the tables says.
* `terminal`: the handler behind all layers, by operation and method.
* `ReadOnly`: no file or folder changes, and of the stored files at most the use of the one
  that is served.
* `terminal_reads`: a request that `ioRequestAccess` calls a read is `ReadOnly`, question by
  question and under every interference.
-/

namespace Interocitor.Worker.Io

open OrderedRecord Interaction

/-! ## Tables -/

/-- A row of `files`. -/
structure FileRow where
  content : Bytes
  size : ℕ
  modifiedTime : ℕ
  etag : Path
  deriving DecidableEq

/-- `StoredFileRow`, a row of `stored_files`. -/
structure StoredFileRow where
  bodyKey : Path
  size : ℕ
  sealGuard : Option Path
  uploadedByDeviceId : Path
  uploadedAt : ℕ
  modifiedTime : ℕ
  lastAccessedAt : Option ℕ
  useCount : ℕ
  etag : Path
  deriving DecidableEq

/-- `SET last_accessed_at=?3, use_count=use_count+1`. -/
def StoredFileRow.used (row : StoredFileRow) (now : ℕ) : StoredFileRow :=
  { row with lastAccessedAt := some now, useCount := row.useCount + 1 }

/-- `row.body_key` is not empty. -/
def StoredFileRow.hasBody (row : StoredFileRow) : Bool := decide (row.bodyKey ≠ [])

/-- The tables of a host, with the rows of all meshes. -/
structure Tables where
  files : Record Key FileRow
  folders : Record Key ℕ
  meshPaths : Record Key MeshRecord
  storedFiles : Record Key StoredFileRow

/-- The update of `meshDeltaStatements`. -/
def touched (r : MeshRecord) (delta : MetricsDelta) (now : ℕ) (touchRead touchWrite : Bool) :
    MeshRecord :=
  { r.touch delta now touchWrite with
    lastReadAt := if touchRead then some now else r.lastReadAt }

/-- The statements that change a table. -/
inductive Statement where
  | insertFolder (key : Key) (now : ℕ)
  | insertFile (key : Key) (row : FileRow)
  | putFile (key : Key) (row : FileRow)
  | insertMesh (key : Key) (now : ℕ)
  | updateMesh (key : Key) (delta : MetricsDelta) (now : ℕ) (touchRead touchWrite : Bool)
  | resetMeshes (mount : Path) (now : ℕ)
  | deleteFiles (mount path : Path)
  | deleteFolders (mount path : Path)
  | putStored (key : Key) (row : StoredFileRow)
  | useStored (key : Key) (now : ℕ)
  | deleteStored (key : Key)

/-- The rows of a table that are there. -/
def rowCount {V : Type} (r : Record Key V) (key : Key) : ℕ := if (r.get key).isSome then 1 else 0

/-- `deleted_at = ?2, updated_at = ?2` and all sums zero, for the roots of one mount. -/
def resetAll (r : Record Key MeshRecord) (mount : Path) (now : ℕ) : Record Key MeshRecord :=
  (r.keys.filter fun k => decide (k.1 = mount)).foldl (fun r key =>
    match r.get key with
    | some row => r.set key
        { row with current := ⟨0, 0, 0, 0⟩, deletedAt := some now, updatedAt := now }
    | none => r) r

/-- Change the row of a key, if there is one. -/
def updateRow {V : Type} (r : Record Key V) (key : Key) (f : V → V) : Record Key V :=
  match r.get key with
  | some row => r.set key (f row)
  | none => r

/-- The path lies at or under another, in a mount. -/
def inSubtree (mount path : Path) (key : Key) : Bool :=
  decide (key.1 = mount) && selected path key.2

namespace Statement

/-- The tables after a statement, and `meta.changes`. -/
def exec (t : Tables) : Statement → Tables × ℕ
  | insertFolder key now =>
    ({ t with folders := insertOrIgnore t.folders key now }, 1 - rowCount t.folders key)
  | insertFile key row =>
    ({ t with files := insertOrIgnore t.files key row }, 1 - rowCount t.files key)
  | putFile key row => ({ t with files := t.files.set key row }, 1)
  | insertMesh key now =>
    ({ t with meshPaths := insertOrIgnore t.meshPaths key (freshRecord now) },
      1 - rowCount t.meshPaths key)
  | updateMesh key delta now touchRead touchWrite =>
    ({ t with
        meshPaths := updateRow t.meshPaths key fun r => touched r delta now touchRead touchWrite },
      rowCount t.meshPaths key)
  | resetMeshes mount now =>
    ({ t with meshPaths := resetAll t.meshPaths mount now },
      (t.meshPaths.keys.filter fun k => decide (k.1 = mount)).length)
  | deleteFiles mount path =>
    ({ t with files := t.files.filter fun k _ => !inSubtree mount path k },
      (t.files.keys.filter (inSubtree mount path)).length)
  | deleteFolders mount path =>
    ({ t with folders := t.folders.filter fun k _ => !inSubtree mount path k },
      (t.folders.keys.filter (inSubtree mount path)).length)
  | putStored key row => ({ t with storedFiles := t.storedFiles.set key row }, 1)
  | useStored key now =>
    ({ t with storedFiles := updateRow t.storedFiles key fun row => row.used now },
      rowCount t.storedFiles key)
  | deleteStored key =>
    ({ t with storedFiles := t.storedFiles.erase key }, rowCount t.storedFiles key)

/-- A batch: the tables after it, and `meta.changes` of each statement. -/
def execAll (t : Tables) : List Statement → Tables × List ℕ
  | [] => (t, [])
  | st :: l =>
    let rest := execAll (st.exec t).1 l
    (rest.1, (st.exec t).2 :: rest.2)

end Statement

/-! ## Questions -/

/-- `CacheEntry`, and what `opGetFile` finds. -/
structure CacheEntry where
  bytes : Bytes
  size : ℕ
  etag : Path
  modifiedTime : ℕ
  deriving DecidableEq

/-- `FileEntry`. -/
structure FileEntry where
  name : Path
  path : Path
  size : ℕ
  modifiedTime : ℕ
  etag : Path
  deriving DecidableEq

/-- `ListChildrenResult`. -/
structure Listing where
  files : List FileEntry
  folders : List Path
  deriving DecidableEq

/-- What `FileBodyStore` returns. -/
structure StoredObject where
  body : Bytes
  size : ℕ
  etag : Path
  deriving DecidableEq

/-- `op` of `WorkerAuditEvent`. -/
inductive AuditOp where
  | read
  | metadata
  | write
  | list
  | delete
  | storedFileMetadata
  | storedFileRead
  | storedFileWrite
  | storedFileDelete
  deriving DecidableEq

/-- `outcome` of `WorkerAuditEvent`. -/
inductive AuditOutcome where
  | ok
  | notFound
  | rejected
  deriving DecidableEq

/-- `WorkerAuditEvent`, without the time and the identifier of the request. -/
structure AuditEvent where
  op : AuditOp
  address : Path
  path : Path
  pathType : Option PathType
  status : ℕ
  outcome : AuditOutcome
  bytes : Option ℕ
  deriving DecidableEq

/-- `FileUploadAuthorizationRequest`, without the request itself. -/
structure UploadRequest where
  address : Path
  path : Path
  uploadedByDeviceId : Path
  size : ℕ
  isSealed : Bool
  overwritesSealed : Bool
  replacedBytes : ℕ
  currentMeshStoredBytes : ℕ
  maxMeshStoredBytes : ℕ

/-- What `normalizeAuthorization` makes of an answer that it accepts. -/
structure UploadDecision where
  allowed : Bool
  reason : Option String
  status : ℕ

/-- What a handler waits for.  The last four are not awaited, and cannot fail. -/
inductive Call where
  | selectFile (key : Key)
  | selectFiles (mount path : Path)
  | selectChildren (mount path : Path)
  | selectMesh (key : Key)
  | selectStored (key : Key)
  | selectUsage (mount : Path)
  | batch (l : List Statement)
  | cacheGet (key : Key)
  | cachePut (key : Key) (entry : CacheEntry)
  | cacheDelete (key : Key)
  | listingGet (key : Key)
  | listingPut (key : Key) (listing : Listing)
  | listingDelete (key : Key)
  | bodyGet (bodyKey : Path)
  | bodyPut (bodyKey : Path) (bytes : Bytes)
  | bodyDelete (bodyKey : Path)
  | authorizeFileUpload (request : UploadRequest)
  | emitAudit (event : AuditEvent)
  | broadcast (mount path : Path)
  | now
  | newEtag

/-- The answers. -/
@[reducible] def Answer : Call → Type
  | .selectFile _ => Option FileRow
  | .selectFiles _ _ => List (Path × ℕ)
  | .selectChildren _ _ => List (Path × FileRow) × List Path
  | .selectMesh _ => Option MeshRecord
  | .selectStored _ => Option StoredFileRow
  | .selectUsage _ => ℕ × ℕ
  | .batch _ => List ℕ
  | .cacheGet _ => Option CacheEntry
  | .cachePut _ _ => Unit
  | .cacheDelete _ => Unit
  | .listingGet _ => Option Listing
  | .listingPut _ _ => Unit
  | .listingDelete _ => Unit
  | .bodyGet _ => Option StoredObject
  | .bodyPut _ _ => Unit
  | .bodyDelete _ => Unit
  | .authorizeFileUpload _ => UploadDecision
  | .emitAudit _ => Unit
  | .broadcast _ _ => Unit
  | .now => ℕ
  | .newEtag => Path

/-- An answer, or a failure. -/
@[reducible] def Reply (c : Call) : Type := Except Unit (Answer c)

/-- What the world outside the tables says to a question: whether the request fails, and if so,
whether it was carried out all the same; what a cache or the store of bodies has, what a callback
decides, the time, and a new tag. -/
structure Fate where
  fails : Bool
  applied : Bool
  cached : Option CacheEntry
  listing : Option Listing
  object : Option StoredObject
  upload : UploadDecision
  time : ℕ
  tag : Path

/-- `LENGTH(path) - LENGTH(REPLACE(path, '/', ''))`. -/
def slashes (path : Path) : ℕ := path.count '/'

/-- The rows that `opListChildren` selects: `path LIKE` a pattern, at the depth of a child. -/
def isChild (mount path : Path) (key : Key) : Bool :=
  decide (key.1 = mount) && like (if path = ['/'] then ['/', '%'] else path ++ ['/', '%']) key.2 &&
    decide (slashes key.2 = if path = ['/'] then 1 else slashes path + 1)

/-- The answer to a question that does not fail, and the tables after it. -/
def answer (t : Tables) (fate : Fate) : (c : Call) → Answer c × Tables
  | .selectFile key => (t.files.get key, t)
  | .selectFiles mount path =>
    ((t.files.entries.filter fun e => inSubtree mount path e.1).map fun e => (e.1.2, e.2.size), t)
  | .selectChildren mount path =>
    (((t.files.entries.filter fun e => isChild mount path e.1).map fun e => (e.1.2, e.2),
      (t.folders.keys.filter (isChild mount path)).map Prod.snd), t)
  | .selectMesh key => (t.meshPaths.get key, t)
  | .selectStored key => (t.storedFiles.get key, t)
  | .selectUsage mount =>
    let rows := (t.storedFiles.filter fun k _ => decide (k.1 = mount))
    ((rows.sum StoredFileRow.size, rows.entries.length), t)
  | .batch l => ((Statement.execAll t l).2, (Statement.execAll t l).1)
  | .cacheGet _ => (fate.cached, t)
  | .cachePut _ _ => ((), t)
  | .cacheDelete _ => ((), t)
  | .listingGet _ => (fate.listing, t)
  | .listingPut _ _ => ((), t)
  | .listingDelete _ => ((), t)
  | .bodyGet _ => (fate.object, t)
  | .bodyPut _ _ => ((), t)
  | .bodyDelete _ => ((), t)
  | .authorizeFileUpload _ => (fate.upload, t)
  | .emitAudit _ => ((), t)
  | .broadcast _ _ => ((), t)
  | .now => (fate.time, t)
  | .newEtag => (fate.tag, t)

/-- The question is awaited, and what is awaited can fail.  The failure of an audit callback is
caught where it is called. -/
def Call.canFail : Call → Bool
  | .emitAudit _ => false
  | .broadcast _ _ => false
  | .now => false
  | .newEtag => false
  | _ => true

/-- The reply to a question, and the tables after it. -/
def reply (t : Tables) (fate : Fate) (c : Call) : Reply c × Tables :=
  if fate.fails && c.canFail then (.error (), if fate.applied then (answer t fate c).2 else t)
  else (.ok (answer t fate c).1, (answer t fate c).2)

/-! ## Requests and responses -/

/-- The operations of `parseIo`; any other text is none. -/
inductive IoOp where
  | health
  | file
  | metadata
  | storedFile
  | storedFileMetadata
  | ensureFolder
  | listFiles
  | listFolders
  | other
  deriving DecidableEq

/-- The method of a request. -/
inductive Method where
  | get
  | put
  | delete
  | post
  | other
  deriving DecidableEq

/-- `MeshAccess`. -/
inductive MeshAccess where
  | read
  | write
  deriving DecidableEq

/-- `ioRequestAccess`. -/
def ioRequestAccess (op : IoOp) (method : Method) : Option MeshAccess :=
  if op = .health ∧ method = .get then some .read
  else if op = .file ∨ op = .storedFile then
    if method = .get then some .read
    else if method = .put ∨ method = .delete then some .write
    else none
  else if op = .metadata ∨ op = .storedFileMetadata ∨ op = .ensureFolder ∨ op = .listFiles ∨
      op = .listFolders then
    if method = .post then some .read else none
  else none

/-- An IO request.  `path` is that of the query or of the body, `"/"` if it has none; `body` is
missing if it did not arrive; the two headers are without the blanks around them. -/
structure IoRequest where
  presentedAddress : Path
  op : IoOp
  method : Method
  path : Path
  body : Option Bytes
  deviceId : Path
  guardHeader : Path

/-- What a response has in its body. -/
inductive Payload where
  | empty
  | text (s : String)
  | error (message : String) (limit : Option ℕ)
  | bytes (b : Bytes)
  | file (entry : Option FileEntry)
  | storedFile (path : Path) (row : Option StoredFileRow)
  | files (l : List FileEntry)
  | folders (l : List Path)
  deriving DecidableEq

/-- A response: its status and what is in it. -/
structure Response where
  status : ℕ
  payload : Payload
  deriving DecidableEq

/-- `jsonResponse({ error }, status)`. -/
def errorResponse (message : String) (status : ℕ) : Response := ⟨status, .error message none⟩

/-- `new Response("Not found", { status: 404 })`. -/
def notFound : Response := ⟨404, .text "Not found"⟩

/-- An option of the host that is to be a function. -/
inductive Callback where
  | absent
  | invalid
  | present
  deriving DecidableEq

/-- What the handlers run with.  `hasStore` says that `filesGetter` yields a store of bodies;
`evictionText` is the text of the record that `readEvictionRecord` makes of a row. -/
structure IoRuntime where
  reading : Reading
  limits : Limits
  storedLimits : StoredLimits
  hasStore : Bool
  authorizeFileUpload : Callback
  evictionText : Path → Path → MeshRecord → Bytes

/-! ## Operations -/

/-- Programs of the host.  A handler that throws has no answer of its own. -/
abbrev Handler : Type → Type := Proc Call Reply Unit Unit

/-- Ask, and throw if there is no answer. -/
def await (c : Call) : Handler (Answer c) :=
  (Proc.ask c : Handler (Reply c)) >>= fun r =>
    match r with
    | .ok a => pure a
    | .error e => Proc.throw e

/-- `path.startsWith("/") ? path : "/" + path`. -/
def absolute (path : Path) : Path := if path.head? = some '/' then path else '/' :: path

/-- `classifyPath`, of any text. -/
def pathTypeOf (path : Path) : PathType := classifyPath (absolute path)

/-- `meshRootForPath(path, pathType)`. -/
def meshRootOf (path : Path) (pathType : PathType) : Option Path :=
  let normalized := absolute path
  if normalized = ['/'] then none
  else if pathType = .evictionRecord ∨ pathType = .manifestPointer ∨
      pathType = .manifestSnapshot then
    parentPath normalized
  else if pathType = .other then
    if firstSegment normalized = [] then none else some ('/' :: firstSegment normalized)
  else (parentPath normalized).bind parentPath

/-- `meshDeltaStatements`. -/
def meshDeltaStatements (mount : Path) (remoteRoot : Option Path) (delta : MetricsDelta) (now : ℕ)
    (touchRead touchWrite : Bool) : List Statement :=
  match remoteRoot with
  | none => []
  | some root =>
    [.insertMesh (mount, root) now, .updateMesh (mount, root) delta now touchRead touchWrite]

/-- `parentDir` of the writing operations. -/
def parentDir (path : Path) : Path :=
  if beforeLastSlash path = [] then ['/'] else beforeLastSlash path

/-- `folderTreeStatements`. -/
def folderTreeStatements (mount path : Path) (now : ℕ) : List Statement :=
  (folderTree path).map fun p => .insertFolder (mount, p) now

/-- What `opGetFile` does after its cache had nothing. -/
def readFileRow (mount path : Path) (pathType : PathType) : Handler (Option CacheEntry) := do
  match ← await (.selectFile (mount, path)) with
  | none => pure none
  | some row =>
    let entry : CacheEntry := ⟨row.content, row.size, row.etag, row.modifiedTime⟩
    Proc.when (isCacheableImmutablePathType pathType = true) (await (.cachePut (mount, path) entry))
    Proc.when ((meshRootOf path pathType).isSome = true) do
      let now ← await .now
      let _ ← await (.batch
        (meshDeltaStatements mount (meshRootOf path pathType) ⟨0, 0, 0, 0⟩ now true false))
      pure ()
    pure (some entry)

/-- `opGetFile`. -/
def opGetFile (mount path : Path) (pathType : PathType) : Handler (Option CacheEntry) :=
  if isCacheableImmutablePathType pathType then do
    match ← await (.cacheGet (mount, normalizePath path)) with
    | some entry => pure (some entry)
    | none => readFileRow mount (normalizePath path) pathType
  else readFileRow mount (normalizePath path) pathType

/-- `"changes"` or `"mainline"` after a slash, at the end. -/
def isAuthoritativeCompactionListing (path : Path) : Bool :=
  ('/' :: changesName).isSuffixOf path || ('/' :: mainlineName).isSuffixOf path

/-- `fileNameFromPath`: the last segment that is not empty. -/
def fileNameFromPath (path : Path) : Path :=
  (((path.splitOn '/').filter fun seg => decide (seg ≠ [])).getLast?).getD []

/-- The two results of the batch of `opListChildren`, as a listing. -/
def listingOf (rows : List (Path × FileRow) × List Path) : Listing where
  files := rows.1.map fun p => ⟨fileNameFromPath p.1, p.1, p.2.size, p.2.modifiedTime, p.2.etag⟩
  folders := (rows.2.map fileNameFromPath).filter fun name => decide (name ≠ [])

/-- What `opListChildren` does after its cache had nothing. -/
def readChildren (mount path : Path) : Handler Listing := do
  let rows ← await (.selectChildren mount path)
  Proc.when (isAuthoritativeCompactionListing path = false)
    (await (.listingPut (mount, path) (listingOf rows)))
  pure (listingOf rows)

/-- `opListChildren`. -/
def opListChildren (mount path : Path) : Handler Listing :=
  if isAuthoritativeCompactionListing (normalizePath path) then
    readChildren mount (normalizePath path)
  else do
    match ← await (.listingGet (mount, normalizePath path)) with
    | some listing => pure listing
    | none => readChildren mount (normalizePath path)

/-- `opPutImmutable`: the status. -/
def opPutImmutable (mount path : Path) (bytes : Bytes) (pathType : PathType) : Handler ℕ := do
  let now ← await .now
  let etag ← await .newEtag
  let folders := folderTreeStatements mount path now
  let results ← await (.batch (folders ++
    [.insertFile (mount, path) ⟨bytes, bytes.length, now, etag⟩] ++
    meshDeltaStatements mount (meshRootOf path pathType)
      (metricsDelta pathType none bytes.length) now false true))
  if 0 < (results.drop folders.length).headD 0 then do
    Proc.when (isCacheableImmutablePathType pathType = true)
      (await (.cachePut (mount, path) ⟨bytes, bytes.length, etag, now⟩))
    await (.listingDelete (mount, parentDir path))
    pure 201
  else pure 200

/-- `opPutSemantic`: the status. -/
def opPutSemantic (run : IoRuntime) (mount path : Path) (bytes : Bytes) (pathType : PathType) :
    Handler ℕ := do
  let now ← await .now
  let etag ← await .newEtag
  let existing ← await (.selectFile (mount, path))
  if existing.any fun row => run.reading.stale pathType row.content bytes then pure 409
  else do
    let _ ← await (.batch (folderTreeStatements mount path now ++
      [.putFile (mount, path) ⟨bytes, bytes.length, now, etag⟩] ++
      meshDeltaStatements mount (meshRootOf path pathType)
        (metricsDelta pathType (existing.map FileRow.size) bytes.length) now false false))
    await (.listingDelete (mount, parentDir path))
    pure 204

/-- `opPutOverwrite`: the status. -/
def opPutOverwrite (mount path : Path) (bytes : Bytes) : Handler ℕ := do
  let now ← await .now
  let etag ← await .newEtag
  let _ ← await (.batch (folderTreeStatements mount path now ++
    [.putFile (mount, path) ⟨bytes, bytes.length, now, etag⟩]))
  await (.listingDelete (mount, parentDir path))
  pure 204

/-- `Promise.allSettled` of the deletions from the cache: failures are ignored. -/
def forgetAll (mount : Path) (deletedFiles : List (Path × ℕ)) : Handler Unit :=
  Proc.forEach deletedFiles fun file =>
    Proc.tryCatch (await (.cacheDelete (mount, file.1))) fun _ => pure ()

/-- The sizes of the files of one kind. -/
def bytesOf (kind : PathType → Bool) (deletedFiles : List (Path × ℕ)) : ℤ :=
  ((deletedFiles.filter fun f => kind (classifyPath f.1)).map fun f => (f.2 : ℤ)).sum

/-- `opDeletePath`, of a normalized path. -/
def opDeletePath (mount path : Path) (remoteRoot : Option Path) : Handler Bool := do
  let deletedFiles ← await (.selectFiles mount path)
  if path = ['/'] then do
    let _ ← await (.batch [.deleteFiles mount path, .deleteFolders mount path])
    forgetAll mount deletedFiles
    let now ← await .now
    let _ ← await (.batch [.resetMeshes mount now])
    await (.listingDelete (mount, ['/']))
    pure true
  else do
    let now ← await .now
    let results ← await (.batch [.deleteFiles mount path, .deleteFolders mount path])
    if results.headD 0 = 0 then pure false
    else do
      Proc.when (remoteRoot.isSome = true) do
        let _ ← await (.batch (meshDeltaStatements mount remoteRoot
          ⟨-results.headD 0, -bytesOf (fun _ => true) deletedFiles,
            -bytesOf (fun k => decide (k = .changeFile)) deletedFiles,
            -bytesOf (fun k => decide (k = .mainlineSnapshot)) deletedFiles⟩ now false false))
        pure ()
      forgetAll mount deletedFiles
      await (.listingDelete (mount, parentDir path))
      pure true

/-! ## Handlers of reads -/

/-- `evictionRecordBytes`. -/
def evictionRecordBytes (run : IoRuntime) (mount path : Path)
    (pathType : PathType) : Handler (Option Bytes) :=
  if pathType = .evictionRecord then
    match meshRootOf path pathType with
    | none => pure none
    | some meshRoot => do
      match ← await (.selectMesh (mount, meshRoot)) with
      | none => pure none
      | some record => pure (record.deletedAt.map fun _ => run.evictionText mount meshRoot record)
  else pure none

/-- `handleGetFile`. -/
def handleGetFile (run : IoRuntime) (mount path : Path) :
    Handler Response := do
  let pathType := pathTypeOf path
  let audit := fun status outcome bytes =>
    await (.emitAudit ⟨.read, mount, normalizePath path, some pathType, status, outcome, bytes⟩)
  match ← evictionRecordBytes run mount path pathType with
  | some record =>
    audit 200 .ok (some record.length)
    pure ⟨200, .bytes record⟩
  | none =>
    match ← opGetFile mount path pathType with
    | none =>
      audit 404 .notFound none
      pure notFound
    | some entry =>
      audit 200 .ok (some entry.size)
      pure ⟨200, .bytes entry.bytes⟩

/-- `handleMetadata`. -/
def handleMetadata (run : IoRuntime) (mount path : Path) :
    Handler Response := do
  let pathType := pathTypeOf path
  let audit := fun status outcome bytes =>
    await (.emitAudit ⟨.metadata, mount, normalizePath path, some pathType, status, outcome, bytes⟩)
  match ← evictionRecordBytes run mount path pathType with
  | some record =>
    audit 200 .ok (some record.length)
    pure ⟨200, .file (some ⟨fileNameFromPath path, normalizePath path, record.length, 0, []⟩)⟩
  | none =>
    match ← opGetFile mount path pathType with
    | none =>
      audit 404 .notFound none
      pure ⟨404, .file none⟩
    | some entry =>
      audit 200 .ok (some entry.size)
      pure ⟨200, .file (some ⟨fileNameFromPath path, normalizePath path, entry.size,
        entry.modifiedTime, entry.etag⟩)⟩

/-- `handleListFiles` and `handleListFolders` differ in what they show of the listing. -/
def handleList (view : Listing → Payload) (mount path : Path) : Handler Response := do
  let listing ← opListChildren mount (normalizePath path)
  await (.emitAudit ⟨.list, mount, normalizePath path, none, 200, .ok, none⟩)
  pure ⟨200, view listing⟩

/-- `handleListFiles`. -/
def handleListFiles : Path → Path → Handler Response :=
  handleList fun listing => .files listing.files

/-- `handleListFolders`. -/
def handleListFolders : Path → Path → Handler Response :=
  handleList fun listing => .folders listing.folders

/-- The operation `ensure-folder`: it lists the folder, and ignores what comes of it. -/
def ensureFolder (mount path : Path) : Handler Response := do
  let list : Handler Unit := opListChildren mount (normalizePath path) >>= fun _ => pure ()
  Proc.tryCatch list fun _ => pure ()
  pure ⟨204, .empty⟩

/-- `handleStoredFileMetadata`. -/
def handleStoredFileMetadata (mount path : Path) : Handler Response := do
  let normalized := normalizePath path
  match ← await (.selectStored (mount, normalized)) with
  | none =>
    await (.emitAudit ⟨.storedFileMetadata, mount, normalized, none, 404, .notFound, none⟩)
    pure ⟨404, .storedFile normalized none⟩
  | some row =>
    await (.emitAudit ⟨.storedFileMetadata, mount, normalized, none, 200, .ok, some row.size⟩)
    pure ⟨200, .storedFile normalized (some row)⟩

/-- `handleGetStoredFile`.  A row with an empty `body_key` is no row. -/
def handleGetStoredFile (run : IoRuntime) (mount path : Path) : Handler Response :=
  if run.hasStore then do
    let normalized := normalizePath path
    let missing : Handler Response := do
      await (.emitAudit ⟨.storedFileRead, mount, normalized, none, 404, .notFound, none⟩)
      pure notFound
    match (← await (.selectStored (mount, normalized))).filter StoredFileRow.hasBody with
    | none => missing
    | some row =>
      match ← await (.bodyGet row.bodyKey) with
      | none => missing
      | some object =>
        let now ← await .now
        let _ ← await (.batch [.useStored (mount, normalized) now])
        await (.emitAudit ⟨.storedFileRead, mount, normalized, none, 200, .ok, some row.size⟩)
        pure ⟨200, .bytes object.body⟩
  else pure (errorResponse "File body store not configured" 501)

/-! ## Handlers of writes -/

/-- `notify` of `handleWriteFile`. -/
def notifyWrite (mount path : Path) (pathType : PathType) (size status : ℕ) : Handler Response := do
  let ok := decide (200 ≤ status ∧ status < 300)
  await (.emitAudit ⟨.write, mount, path, some pathType, status, if ok then .ok else .rejected,
    some size⟩)
  Proc.when (ok = true ∧ pathType ≠ .deviceHeartbeat ∧ pathType ≠ .manifestSnapshot)
    (await (.broadcast mount path))
  pure ⟨status, .empty⟩

/-- `handleWriteFile`, of a normalized path. -/
def handleWriteFile (run : IoRuntime) (mount path : Path) : Option Bytes → Handler Response
  | none => pure (errorResponse "Invalid request body" 400)
  | some bytes =>
    let pathType := pathTypeOf path
    let limit := fileSizeLimitForPathType run.limits pathType
    if pathType = .evictionRecord then pure (errorResponse "Eviction record is read-only" 405)
    else if limit < bytes.length then pure ⟨413, .error "Payload too large" (some limit)⟩
    else do
      let status ←
        if pathType = .manifestPointer ∨ pathType = .head then
          opPutSemantic run mount path bytes pathType
        else if pathType = .deviceHeartbeat then opPutOverwrite mount path bytes
        else opPutImmutable mount path bytes pathType
      notifyWrite mount path pathType bytes.length status

/-- `handleDelete`, of a normalized path. -/
def handleDelete (mount path : Path) : Handler Response :=
  if pathTypeOf path = .evictionRecord then pure (errorResponse "Eviction record is read-only" 405)
  else do
    let deleted ← opDeletePath mount path (meshRootOf path (pathTypeOf path))
    await (.emitAudit ⟨.delete, mount, path, none, if deleted then 204 else 404,
      if deleted then .ok else .notFound, none⟩)
    Proc.when (deleted = true) (await (.broadcast mount path))
    pure ⟨if deleted then 204 else 404, .empty⟩

/-- The characters that `encodeURIComponent` leaves as they are. -/
def isUnreserved (c : Char) : Bool :=
  c.isAlphanum || ['-', '_', '.', '!', '~', '*', Char.ofNat 39, '(', ')'].contains c

/-- `encodeURIComponent`. -/
def encodeURIComponent (s : Path) : Path :=
  s.flatMap fun c =>
    if isUnreserved c then [c]
    else (String.utf8EncodeChar c).flatMap fun b =>
      ['%', (Nat.digitChar (b.toNat / 16)).toUpper, (Nat.digitChar (b.toNat % 16)).toUpper]

/-- `storedFileKey`. -/
def storedFileKey (mount path : Path) : Path :=
  "meshes/".toList ++ encodeURIComponent mount ++ "/files/".toList ++
    encodeURIComponent ((normalizePath path).drop 1)

/-- `sealedFileResponse`. -/
def sealedFileResponse : Response := errorResponse "Sealed file requires its key" 403

/-- The refusal of `presentedSealGuard`. -/
def invalidGuard : Response := errorResponse "Invalid X-Interocitor-Seal-Guard" 400

/-- The question to `authorizeFileUpload`: `none` if it allows the upload. -/
def uploadRefusal (run : IoRuntime) (request : UploadRequest) : Handler (Option Response) :=
  let unavailable := errorResponse "Upload authorization unavailable" 503
  match run.authorizeFileUpload with
  | .absent => pure none
  | .invalid => pure (some unavailable)
  | .present => Proc.tryCatch (do
      let decision ← await (.authorizeFileUpload request)
      pure (if decision.allowed then none
        else some (errorResponse (decision.reason.getD "Upload rejected") decision.status)))
      fun _ => pure (some unavailable)

/-- `handlePutStoredFile` from the point where the upload is allowed. -/
def storeFile (mount normalized : Path) (bytes : Bytes) (deviceId : Path) (guard : Option Path)
    (existing : Option StoredFileRow) : Handler Response := do
  let key := ((existing.map StoredFileRow.bodyKey).filter fun k => decide (k ≠ [])).getD
    (storedFileKey mount normalized)
  let now ← await .now
  await (.bodyPut key bytes)
  let etag ← await .newEtag
  let _ ← await (.batch [.putStored (mount, normalized)
    ⟨key, bytes.length, guard, deviceId, now, now, none, 0, etag⟩])
  let row ← await (.selectStored (mount, normalized))
  let status := if existing.isSome then 200 else 201
  await (.emitAudit ⟨.storedFileWrite, mount, normalized, none, status, .ok, some bytes.length⟩)
  pure ⟨status, .storedFile normalized
    (some (row.getD ⟨key, bytes.length, guard, deviceId, now, now, none, 0, etag⟩))⟩

/-- `handlePutStoredFile` from the point where the row is read. -/
def putStoredFile (run : IoRuntime) (mount normalized : Path) (bytes : Bytes) (deviceId : Path)
    (guard : Option Path) : Handler Response := do
  let existing ← await (.selectStored (mount, normalized))
  if sealGuardMatches (existing.bind StoredFileRow.sealGuard) guard then do
    let usage ← await (.selectUsage mount)
    let replaced := (existing.map StoredFileRow.size).getD 0
    let quota := run.storedLimits.maxMeshStoredBytes
    if quota + replaced < usage.1 + bytes.length then
      pure ⟨413, .error "Mesh storage quota exceeded" (some quota)⟩
    else do
      match ← uploadRefusal run ⟨mount, normalized, deviceId, bytes.length, guard.isSome,
          (existing.bind StoredFileRow.sealGuard).any fun g => decide (g ≠ []), replaced, usage.1,
          quota⟩ with
      | some refusal => pure refusal
      | none => storeFile mount normalized bytes deviceId guard existing
  else pure sealedFileResponse

/-- `handlePutStoredFile`. -/
def handlePutStoredFile (run : IoRuntime) (mount path : Path) (request : IoRequest) :
    Handler Response :=
  if run.hasStore then
    match request.body with
    | none => pure (errorResponse "Invalid request body" 400)
    | some bytes =>
      if run.storedLimits.maxStoredFileBytes < bytes.length then
        pure ⟨413, .error "Payload too large" (some run.storedLimits.maxStoredFileBytes)⟩
      else if request.deviceId = [] then
        pure (errorResponse "Missing X-Interocitor-Device-Id" 401)
      else
        match presentedSealGuard request.guardHeader with
        | none => pure invalidGuard
        | some guard => putStoredFile run mount (normalizePath path) bytes request.deviceId guard
  else pure (errorResponse "File body store not configured" 501)

/-- `handleDeleteStoredFile`. -/
def handleDeleteStoredFile (run : IoRuntime) (mount path : Path) (request : IoRequest) :
    Handler Response :=
  if run.hasStore then do
    let normalized := normalizePath path
    match (← await (.selectStored (mount, normalized))).filter StoredFileRow.hasBody with
    | none =>
      await (.emitAudit ⟨.storedFileDelete, mount, normalized, none, 404, .notFound, none⟩)
      pure ⟨404, .empty⟩
    | some row =>
      match presentedSealGuard request.guardHeader with
      | none => pure invalidGuard
      | some guard =>
        if sealGuardMatches row.sealGuard guard then do
          await (.bodyDelete row.bodyKey)
          let _ ← await (.batch [.deleteStored (mount, normalized)])
          await (.emitAudit ⟨.storedFileDelete, mount, normalized, none, 204, .ok, some row.size⟩)
          pure ⟨204, .empty⟩
        else pure sealedFileResponse
  else pure (errorResponse "File body store not configured" 501)

/-- The handler behind all layers, by operation and method.  The paths of the query are normalized
before they are handed on, that of the body of `metadata` is not. -/
def terminal (run : IoRuntime) (mount : Path)
    (request : IoRequest) : Handler Response :=
  let path := normalizePath request.path
  match request.op, request.method with
  | .health, .get => pure ⟨200, .text "interocitor cloudflare worker\n"⟩
  | .file, .get => handleGetFile run mount path
  | .file, .put => handleWriteFile run mount path request.body
  | .file, .delete => handleDelete mount path
  | .metadata, .post => handleMetadata run mount request.path
  | .storedFile, .get => handleGetStoredFile run mount path
  | .storedFile, .put => handlePutStoredFile run mount path request
  | .storedFile, .delete => handleDeleteStoredFile run mount path request
  | .storedFileMetadata, .post => handleStoredFileMetadata mount request.path
  | .ensureFolder, .post => ensureFolder mount request.path
  | .listFiles, .post => handleListFiles mount request.path
  | .listFolders, .post => handleListFolders mount request.path
  | _, _ => pure notFound

/-! ## Reads -/

/-- From some tables to others, no file and no folder changes, and no stored file except that one of
them may be used. -/
structure ReadOnly (served : Option Key) (t t' : Tables) : Prop where
  files : t'.files = t.files
  folders : t'.folders = t.folders
  storedFiles : ∀ key, t'.storedFiles.get key = t.storedFiles.get key ∨
    served = some key ∧
      ∃ now, t'.storedFiles.get key = (t.storedFiles.get key).map fun row => row.used now

/-- The stored file that a request has served.  Its path is normalized by the dispatch and once more
by the handler. -/
def servedKey (mount : Path) (request : IoRequest) : Option Key :=
  if request.op = .storedFile ∧ request.method = .get then
    some (mount, normalizePath (normalizePath request.path))
  else none

variable {served : Option Key} {α β : Type}

theorem ReadOnly.refl (served : Option Key) (t : Tables) : ReadOnly served t t :=
  ⟨rfl, rfl, fun _ => .inl rfl⟩

/-- The statements of `meshDeltaStatements` leave all other tables as they are. -/
theorem readOnly_meshDelta (t : Tables) (mount : Path) (remoteRoot : Option Path)
    (delta : MetricsDelta) (now : ℕ) (touchRead touchWrite : Bool) :
    ReadOnly served t (Statement.execAll t
      (meshDeltaStatements mount remoteRoot delta now touchRead touchWrite)).1 := by
  cases remoteRoot with
  | none => exact .refl served t
  | some root => exact ⟨rfl, rfl, fun _ => .inl rfl⟩

theorem get_updateRow {V : Type} (r : Record Key V) (key k : Key) (f : V → V) :
    (updateRow r key f).get k = if key = k then (r.get k).map f else r.get k := by
  rw [updateRow]
  cases hrow : r.get key with
  | none =>
    dsimp only
    split_ifs with hk
    · rw [← hk, hrow]
      rfl
    · rfl
  | some row =>
    dsimp only
    rw [Record.get_set]
    split_ifs with hk
    · rw [← hk, hrow]
      rfl
    · rfl

theorem readOnly_useStored (t : Tables) (key : Key) (now : ℕ) :
    ReadOnly (some key) t (Statement.execAll t [.useStored key now]).1 := by
  refine ⟨rfl, rfl, fun k => ?_⟩
  have hget : (Statement.execAll t [.useStored key now]).1.storedFiles.get k =
      if key = k then (t.storedFiles.get k).map fun row => row.used now
      else t.storedFiles.get k := get_updateRow t.storedFiles key k fun row => row.used now
  by_cases hk : key = k
  · rw [if_pos hk] at hget
    exact .inr ⟨congrArg some hk, now, hget⟩
  · rw [if_neg hk] at hget
    exact .inl hget

/-- The world of a handler that owes to all others that it only reads.  Between two of its questions
the tables may change in any way. -/
def readEnv (served : Option Key) : Env Call Reply Tables where
  rely := fun _ _ => True
  answer := fun t c rep t' => ∃ fate, (rep, t') = reply t fate c
  guar := ReadOnly served

/-- All that a handler does is `ReadOnly`. -/
def Reads (served : Option Key) (m : Handler α) : Prop :=
  Proc.Keeps (readEnv served) (fun _ _ => True) m

theorem reads_pure (a : α) : Reads served (pure a : Handler α) := Proc.keeps_pure a

theorem reads_bind {m : Handler β} {f : β → Handler α} (hm : Reads served m)
    (hf : ∀ b, Reads served (f b)) : Reads served (m >>= f) := Proc.keeps_bind hm hf

theorem reads_when {c : Prop} [Decidable c] {m : Handler Unit} (h : Reads served m) :
    Reads served (Proc.when c m) := Proc.keeps_when h

theorem reads_ite {c : Prop} [Decidable c] {m m' : Handler α} (h : Reads served m)
    (h' : Reads served m') : Reads served (if c then m else m') := by
  split
  · exact h
  · exact h'

theorem reads_await {c : Call} (h : ∀ t fate, ReadOnly served t (answer t fate c).2) :
    Reads served (await c) := by
  refine Proc.keeps_bind (Proc.keeps_ask ?_) fun r => ?_
  · rintro _ _ t rep t' - - ⟨fate, heq⟩
    refine ⟨?_, trivial⟩
    obtain rfl : t' = (reply t fate c).2 := congrArg Prod.snd heq
    change ReadOnly served t _
    rw [reply]
    split_ifs
    · exact h t fate
    · exact .refl served t
    · exact h t fate
  · cases r with
    | ok a => exact Proc.keeps_pure a
    | error e => exact Proc.keeps_throw e

theorem reads_quiet {c : Call} (h : ∀ t fate, (answer t fate c).2 = t) : Reads served (await c) :=
  reads_await fun t fate => by rw [h]; exact .refl served t

theorem reads_meshDelta {mount : Path} {remoteRoot : Option Path} {delta : MetricsDelta} {now : ℕ}
    {touchRead touchWrite : Bool} : Reads served (await (.batch
      (meshDeltaStatements mount remoteRoot delta now touchRead touchWrite))) :=
  reads_await fun t _ => readOnly_meshDelta t mount remoteRoot delta now touchRead touchWrite

theorem reads_opGetFile (mount path : Path) (pathType : PathType) :
    Reads served (opGetFile mount path pathType) := by
  have hrow : ∀ path, Reads served (readFileRow mount path pathType) := by
    intro path
    refine reads_bind (reads_quiet fun _ _ => rfl) fun row => ?_
    cases row with
    | none => exact reads_pure none
    | some row =>
      refine reads_bind (reads_when (reads_quiet fun _ _ => rfl)) fun _ => ?_
      refine reads_bind (reads_when ?_) fun _ => reads_pure _
      refine reads_bind (reads_quiet fun _ _ => rfl) fun now => ?_
      exact reads_bind reads_meshDelta fun _ => reads_pure ()
  refine reads_ite ?_ (hrow _)
  refine reads_bind (reads_quiet fun _ _ => rfl) fun entry => ?_
  cases entry with
  | none => exact hrow _
  | some entry => exact reads_pure _

theorem reads_opListChildren (mount path : Path) : Reads served (opListChildren mount path) := by
  have hrows : ∀ path, Reads served (readChildren mount path) := by
    intro path
    refine reads_bind (reads_quiet fun _ _ => rfl) fun rows => ?_
    exact reads_bind (reads_when (reads_quiet fun _ _ => rfl)) fun _ => reads_pure _
  refine reads_ite (hrows _) ?_
  refine reads_bind (reads_quiet fun _ _ => rfl) fun listing => ?_
  cases listing with
  | none => exact hrows _
  | some listing => exact reads_pure listing

theorem reads_evictionRecordBytes (run : IoRuntime) (mount path : Path) (pathType : PathType) :
    Reads served (evictionRecordBytes run mount path pathType) := by
  refine reads_ite ?_ (reads_pure none)
  cases meshRootOf path pathType with
  | none => exact reads_pure none
  | some meshRoot =>
    refine reads_bind (reads_quiet fun _ _ => rfl) fun record => ?_
    cases record with
    | none => exact reads_pure none
    | some record => exact reads_pure _

theorem reads_respond {event : AuditEvent} (response : Response) :
    Reads served (do await (.emitAudit event); pure response) :=
  reads_bind (reads_quiet fun _ _ => rfl) fun _ => reads_pure response

theorem reads_handleGetFile (run : IoRuntime) (mount path : Path) :
    Reads served (handleGetFile run mount path) := by
  refine reads_bind (reads_evictionRecordBytes run mount path _) fun record => ?_
  cases record with
  | some record => exact reads_respond _
  | none =>
    refine reads_bind (reads_opGetFile mount path _) fun entry => ?_
    cases entry with
    | none => exact reads_respond _
    | some entry => exact reads_respond _

theorem reads_handleMetadata (run : IoRuntime) (mount path : Path) :
    Reads served (handleMetadata run mount path) := by
  refine reads_bind (reads_evictionRecordBytes run mount path _) fun record => ?_
  cases record with
  | some record => exact reads_respond _
  | none =>
    refine reads_bind (reads_opGetFile mount path _) fun entry => ?_
    cases entry with
    | none => exact reads_respond _
    | some entry => exact reads_respond _

theorem reads_handleList (view : Listing → Payload) (mount path : Path) :
    Reads served (handleList view mount path) :=
  reads_bind (reads_opListChildren mount _) fun _ => reads_respond _

theorem reads_ensureFolder (mount path : Path) : Reads served (ensureFolder mount path) := by
  have hlist : Reads served (opListChildren mount (normalizePath path) >>= fun _ => pure ()) :=
    reads_bind (reads_opListChildren mount _) fun _ => reads_pure ()
  exact reads_bind (Proc.keeps_tryCatch hlist fun _ => reads_pure ()) fun _ => reads_pure _

theorem reads_handleStoredFileMetadata (mount path : Path) :
    Reads served (handleStoredFileMetadata mount path) := by
  refine reads_bind (reads_quiet fun _ _ => rfl) fun row => ?_
  cases row with
  | none => exact reads_respond _
  | some row => exact reads_respond _

theorem reads_handleGetStoredFile (run : IoRuntime) (mount path : Path) :
    Reads (some (mount, normalizePath path)) (handleGetStoredFile run mount path) := by
  refine reads_ite ?_ (reads_pure _)
  refine reads_bind (reads_quiet fun _ _ => rfl) fun row => ?_
  cases row.filter StoredFileRow.hasBody with
  | none => exact reads_respond _
  | some row =>
    refine reads_bind (reads_quiet fun _ _ => rfl) fun object => ?_
    cases object with
    | none => exact reads_respond _
    | some object =>
      refine reads_bind (reads_quiet fun _ _ => rfl) fun now => ?_
      refine reads_bind (reads_await fun t _ => readOnly_useStored t _ now) fun _ => ?_
      exact reads_respond _

theorem read_cases {op : IoOp} {method : Method} (h : ioRequestAccess op method = some .read) :
    ((op = .health ∨ op = .file ∨ op = .storedFile) ∧ method = .get) ∨
      ((op = .metadata ∨ op = .storedFileMetadata ∨ op = .ensureFolder ∨ op = .listFiles ∨
        op = .listFolders) ∧ method = .post) := by
  revert h
  cases op <;> cases method <;> decide

/-- **Reads only read.**  What `ioRequestAccess` calls a read changes no file and no folder, and of
the stored files at most the use of the one that it serves. -/
theorem terminal_reads (run : IoRuntime) (mount : Path) {request : IoRequest}
    (h : ioRequestAccess request.op request.method = some .read) :
    Reads (servedKey mount request) (terminal run mount request) := by
  obtain ⟨address, op, method, path, body, deviceId, guardHeader⟩ := request
  have hcases := @read_cases op method h
  rcases hcases with ⟨rfl | rfl | rfl, rfl⟩ | ⟨rfl | rfl | rfl | rfl | rfl, rfl⟩
  · exact reads_pure _
  · exact reads_handleGetFile run mount _
  · exact reads_handleGetStoredFile run mount _
  · exact reads_handleMetadata run mount _
  · exact reads_handleStoredFileMetadata mount _
  · exact reads_ensureFolder mount _
  · exact reads_handleList _ mount _
  · exact reads_handleList _ mount _

end Interocitor.Worker.Io
