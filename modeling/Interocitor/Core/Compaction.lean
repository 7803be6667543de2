import Interocitor.Core.Transfer

/-!
# `compaction.ts`: publishing a snapshot, and starting again from one

`compact` pulls, captures the device's receipts and rows, and publishes them as a
snapshot: first the snapshot, then a manifest that names it, then the pointer.  After
that it deletes exactly the change files the snapshot covers and every other
snapshot.

`rehydrate` replaces the local state by the snapshot that the manifest names and
pulls what came after it.  The clock it returns is the snapshot's; the pull in between
has worked with, and stored, the clock the engine had before.
-/

namespace Interocitor

open CodeUnits OrderedRecord Interaction Eng

/-! ## Compact -/

/-- A row that the loop of `compact` stores as a property of the snapshot's tables, which are plain
objects: the rows of a table with an inherited name land on the built-in object, and the row with
the id `__proto__` becomes the prototype of its table. -/
def inSnapshot (row : Row) : Bool :=
  decide (row._meta.table ∉ inheritedNames ∧ row._meta.rowId ≠ protoName)

/-- Rows by their table and id. -/
def rowsByTable (rows : List Row) : Tables :=
  rows.foldl (fun tables row =>
    tables.set row._meta.table
      (((tables.get row._meta.table).getD ∅).set row._meta.rowId row)) ∅

/-- The tables of a snapshot, from all rows of the store. -/
def snapshotTables (rows : List Row) : Tables := rowsByTable (rows.filter inSnapshot)

/-- `pruneSupersededSnapshots`: failures are reported, not thrown. -/
def pruneSupersededSnapshots (active : ObjectPath) : Eng Unit := do
  let files ← attempt listMainline fun _ => pure []
  Proc.forEach (files.filter fun path => path.isSnapshot && decide (path ≠ active)) fun path =>
    attempt (deleteFile path) fun _ => pure ()

/-- The manifest that names a new snapshot. -/
def compactedPayload (manifest : Manifest) (serverId : Text) (now : ℕ) (hlc : Hlc)
    (snapshotPath : ObjectPath) (retention : RetentionPolicy) : ManifestPayload where
  generation := manifest.generation + 1
  parentGeneration := manifest.generation
  writtenBy := serverId
  writtenAt := now
  version := 3
  meshId := manifest.meshId
  schema := manifest.schema
  encrypted := manifest.encrypted
  server := manifest.server
  createdAt := manifest.createdAt
  epoch := manifest.epoch + 1
  watermarkHlc := hlcSerialize hlc
  snapshotPath := some snapshotPath
  retention := some retention.toInput
  lineage := some (manifest.lineage.getD 1)

/-- The snapshot of a store. -/
def buildSnapshot (manifest : Manifest) (hlc : Hlc) (now : ℕ) (snapshotId : Text)
    (store : LocalStore) : Snapshot where
  snapshotId := snapshotId
  timestamp := now
  hlc := hlcSerialize hlc
  epoch := manifest.epoch + 1
  schemaVersion := manifest.schema
  coveredChangeFiles :=
    some (ChangeObservationLedger.load store.metadata.changeObservation).capturedChangeFileNames
  tables := snapshotTables store.getAllRows

/-- `compact`, with the manifest, the clock and the retention policy of its context. -/
def compactWith (manifest : Manifest) (hlc : Hlc) (retention : RetentionPolicy)
    (pull : Eng Unit) : Eng Manifest := do
  let config ← Eng.config
  if manifest.server.managed ∧ config.deviceId ≠ config.serverId then
    fail .unauthorizedCompaction
  else
    pull
    let store ← Eng.store
    let covered :=
      (ChangeObservationLedger.load store.metadata.changeObservation).capturedChangeFileNames
    let now ← Eng.now
    let snapshotPath := ObjectPath.snapshot (manifest.epoch + 1) config.serverId
    let snapshotId ← generateId snapshotKind
    if manifest.meshId = [] then fail .encodeBeforeManifest
    else
      writeFile snapshotPath
        (.snapshot manifest.meshId (buildSnapshot manifest hlc now snapshotId store))
      let payload := compactedPayload manifest config.serverId now hlc snapshotPath retention
      let nextManifest : Manifest := { payload with contentHash := computeContentHash payload }
      writeFile (.rootFile (.manifest nextManifest.generation)) (.manifest nextManifest)
      writeFile .manifestPointer
        (.pointer ⟨nextManifest.generation, .manifest nextManifest.generation⟩)
      setMeta fun m => { m with epoch := some nextManifest.epoch }
      Proc.forEach covered fun name => attempt (deleteFile (.change name)) fun _ => pure ()
      pruneSupersededSnapshots snapshotPath
      pure nextManifest

/-! ## Rehydrate -/

/-- The local-only records that a snapshot replacement keeps. -/
structure PreservedMeta where
  quarantinedOfflineChanges : Option QuarantinedOfflineChanges
  offlineRetentionExpiredAt : Option ℕ
  lastSuccessfulSyncAt : Option ℕ
  meshId : Option Text
  meshLineage : Option ℤ

/-- The metadata after `clearAll` and writing the preserved records back. -/
def PreservedMeta.toMetadata (p : PreservedMeta) : Metadata :=
  { Metadata.empty with
    quarantinedOfflineChanges := p.quarantinedOfflineChanges
    offlineRetentionExpiredAt := p.offlineRetentionExpiredAt
    lastSuccessfulSyncAt := p.lastSuccessfulSyncAt
    meshId := p.meshId
    meshLineage := p.meshLineage }

/-- `decodeSnapshotPayload`. -/
def decodeSnapshotPayload (manifest : Option Manifest) (content : Content) : Eng Snapshot :=
  match content with
  | .snapshot meshId snapshot => do
    assertExpectedMeshId manifest meshId
    pure snapshot
  | .malformed => fail .malformedJson
  | _ => fail .invalidSnapshotPayload

/-- The local state that `restoreSnapshot` builds, before the receipts. -/
def replacedStore (preserved : PreservedMeta) (snapshot : Snapshot) : LocalStore :=
  LocalStore.putRows ⟨∅, [], none, preserved.toMetadata⟩
    (snapshot.tables.values.flatMap fun rows => rows.values)

@[simp] theorem metadata_replacedStore (preserved : PreservedMeta) (snapshot : Snapshot) :
    (replacedStore preserved snapshot).metadata = preserved.toMetadata := by
  rw [replacedStore, LocalStore.putRows_eq]

@[simp] theorem outbox_replacedStore (preserved : PreservedMeta) (snapshot : Snapshot) :
    (replacedStore preserved snapshot).outbox = [] := by
  rw [replacedStore, LocalStore.putRows_eq]

@[simp] theorem pendingBatch_replacedStore (preserved : PreservedMeta) (snapshot : Snapshot) :
    (replacedStore preserved snapshot).pendingBatch = none := by
  rw [replacedStore, LocalStore.putRows_eq]

/-- What `restoreSnapshot` throws for covered files that it does not record. -/
def coveredError (coveredChangeFiles : List Text) : EngineError :=
  if (coveredChangeFiles.find? fun name => !isRecordable name).any
      fun name => (changeFileHlc name).isNone then .invalidSnapshotChangeFilename
  else .typeError

/-- `restore` inside `rehydrate`: read a snapshot and replace the local state by it.
The clock is the snapshot's, under the device's own id. -/
def restoreSnapshot (manifest : Option Manifest) (preserved : PreservedMeta) (hlc : Hlc)
    (path : ObjectPath) : Eng Hlc := do
  let content ← readFile path
  let snapshot ← decodeSnapshotPayload manifest content
  let d ← Proc.get
  let generation := observationGeneration d.store.metadata.changeObservation + 1
  modifyStore fun _ => replacedStore preserved snapshot
  match ChangeObservationLedger.restored generation snapshot.hlc
      (snapshot.coveredChangeFiles.getD []) with
  | none => fail (coveredError (snapshot.coveredChangeFiles.getD []))
  | some stored =>
    setMeta fun m =>
      { m with changeObservation := some stored, epoch := some snapshot.epoch }
    pure (if snapshot.hlc = [] then hlc
      else { hlcParse snapshot.hlc with nodeId := d.config.deviceId })

/-- The two tries of `rehydrate` to restore a snapshot: a path that fails is tried
again only if a fresh manifest names another one. -/
def restoreWithRetry (manifest : Option Manifest) (preserved : PreservedMeta) (hlc : Hlc)
    (path : ObjectPath) (reloadManifest : Eng (Option Manifest)) : Eng Hlc :=
  attempt
    (attempt (restoreSnapshot manifest preserved hlc path) fun firstError => do
      let refreshed ← reloadManifest
      match refreshed.bind fun m => m.snapshotPath with
      | none => fail firstError
      | some refreshedPath =>
        if refreshedPath = path then fail firstError
        else restoreSnapshot manifest preserved hlc refreshedPath)
    fun e => do fail (← poisonRemote e)

/-- `rehydrate`: the clock after it. -/
def rehydrate (preserved : PreservedMeta) (pull : Eng Unit)
    (reloadManifest : Eng (Option Manifest)) : Eng Hlc := do
  let d ← Proc.get
  match d.manifest.bind fun m => m.snapshotPath with
  | none =>
    pull
    pure d.hlc
  | some path =>
    let hlc ← restoreWithRetry d.manifest preserved d.hlc path reloadManifest
    pull
    pure hlc

end Interocitor
