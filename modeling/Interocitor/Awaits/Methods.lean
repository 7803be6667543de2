import Interocitor.Awaits.Engine

/-!
# The methods of an engine, await by await

Each definition is the method of that name in `Core`, with every access to the local store
as a transaction of its own, in the order of the source.  What a method of `Core` does
without the store is taken over by `remotely`.

Replicas are here: after the primary remote has everything, `flushPrimary` mirrors the
entries to each of them, and swallows what goes wrong there.
-/

namespace Interocitor

open CodeUnits OrderedRecord Interaction

/-- `flushReplica`: `flushToAdapter` without the device record. -/
def flushReplica (manifest : Option Manifest) (entries : List ChangeEntry) : Eng Unit := do
  Eng.ensureFolder .changes
  Proc.forEach entries (writeChangeFile manifest)
  Proc.when (lastWrittenHlc entries ≠ []) (writeHead (lastWrittenHlc entries))

/-- The check of a replica's session in `flushPrimary`. -/
def authenticateReplica : Eng Unit := do
  let authenticated : Bool ← Proc.ask Call.isAuthenticated
  Proc.when (authenticated = false) do Eng.answered (← Proc.ask Call.authenticate)

namespace Aw

/-! ## Manifest -/

/-- `poisonRemote`. -/
def poisonRemote (error : EngineError) : Aw EngineError :=
  remotely none (Interocitor.poisonRemote error)

/-- `assertExpectedMeshId`. -/
def assertExpectedMeshId (manifest : Option Manifest) (meshId : Text) : Aw Unit :=
  if meshId = [] then fail .missingMeshId
  else
    match meshConflict (manifest.map fun m => m.meshId) meshId with
    | some e => fail e
    | none => do
      match meshConflict (← getMeta fun m => m.meshId) meshId with
      | some e => fail e
      | none => setMeta fun m => { m with meshId := some meshId }

/-- The lineage that a bootstrap starts. -/
def nextLineage (meshId : Option Text) : Aw ℤ :=
  match truthy meshId with
  | some _ => do pure (resolveManifestLineage (← getMeta fun m => m.meshLineage) + 1)
  | none => pure 1

/-- The bootstrap branch of `loadOrCreateManifest`. -/
def bootstrapManifest : Aw Manifest := do
  let meshId ← getMeta fun m => m.meshId
  let lineage ← nextLineage meshId
  remotely none (createBootstrapManifest meshId lineage)

/-- The mesh check of `loadOrCreateManifest`. -/
def assertManifestMesh (manifest : Manifest) : Aw Unit := do
  let held := (← Proc.get).manifest
  attempt (assertExpectedMeshId held manifest.meshId) fun e => do fail (← poisonRemote e)

/-- What `loadOrCreateManifest` does with a manifest, loaded or created. -/
def checkManifest (assertLocalMeshId : Bool) (manifest : Manifest) : Aw Manifest :=
  match completedManifest manifest with
  | .error e => fail e
  | .ok manifest => do
    Proc.when (assertLocalMeshId = true) (assertManifestMesh manifest)
    match manifestObjection (← config) manifest with
    | some e => fail e
    | none => pure manifest

/-- `loadOrCreateManifest`. -/
def loadOrCreateManifest (assertLocalMeshId createIfMissing : Bool) : Aw (Manifest × Bool) := do
  match ← remotely none (findPointer createIfMissing) with
  | some pointer =>
    let manifest ← remotely none (readManifest (.rootFile pointer.file))
    pure (← checkManifest assertLocalMeshId manifest, false)
  | none =>
    let manifest ← bootstrapManifest
    pure (← checkManifest assertLocalMeshId manifest, true)

/-- `requireAdapter`. -/
def requireAdapter : Aw Unit := remotely none Interocitor.requireAdapter

/-- `doLoadOrCreateManifest`. -/
def doLoadOrCreateManifest (force : Bool) (options : LoadOptions) : Aw Bool := do
  let s ← Proc.get
  if !force && s.manifest.isSome && s.remotePoisonError.isNone then pure false
  else
    requireAdapter
    let (manifest, bootstrapped) ←
      loadOrCreateManifest options.assertLocalMeshId options.createIfMissing
    Proc.modify fun s => { s with manifest := some manifest }
    Proc.when (options.persistCache = true)
      (setMeta fun m => { m with manifestCache := some manifest })
    pure bootstrapped

/-! ## Local writes -/

/-- `refreshHlcFromLocal`. -/
def refreshHlcFromLocal : Aw Unit := do
  match ← getMeta fun m => m.hlc with
  | none => pure ()
  | some saved =>
    Proc.modify fun s =>
      if isNonPos (hlcCompareStr saved (hlcSerialize s.hlc)) then s
      else { s with hlc := { hlcParse saved with nodeId := s.config.deviceId } }

/-- `flushPendingBatch`. -/
def flushPendingBatch : Aw Unit := do
  let found ← transact LocalStore.promotePendingBatch
  Proc.when (found.pendingBatch.isSome = true)
    (Proc.modify fun s => { s with pendingBatch := false, pendingCount := s.pendingCount + 1 })

/-- `commitLocalMutation`. -/
def commitLocalMutation (row : Row) (op : Op) (hlc : Text) : Aw Unit := do
  let id ← generateId changeKind
  let ts ← now
  let deviceId := (← config).deviceId
  write fun store => store.commitLocalMutation row ⟨id, ts, deviceId, hlc, [op]⟩
  Proc.modify fun s => { s with pendingBatch := true }
  let s ← Proc.get
  Proc.when (s.batchDepth = 0 ∧ s.config.batchWindowMs ≤ 0) flushPendingBatch

/-- Store a changed row: with an op to publish, or only locally. -/
def storeMutation (row : Row) : Aw Unit :=
  match rowToSyncOp row, truthy (some (getRowHlc row)) with
  | some op, some hlc => commitLocalMutation row op hlc
  | _, _ => write fun store => store.putRow row

/-- The stamp of the next write: `hlcNow` of the engine's clock. -/
def tick : Aw Text := do
  let wall ← now
  Proc.modify fun s => { s with hlc := hlcNow wall s.hlc }
  pure (hlcSerialize (← Proc.get).hlc)

/-- `putNow`. -/
def putNow (table rowId : Text) (columns : List (Text × JsValue)) : Aw Unit := do
  refreshHlcFromLocal
  let found ← transact id
  let stamp ← tick
  let s ← Proc.get
  storeMutation (putRowOf (s.over found) table rowId columns stamp)

/-- `deleteNow`. -/
def deleteNow (table rowId : Text) : Aw Unit := do
  refreshHlcFromLocal
  match ← read fun store => store.getRow table rowId with
  | none => pure ()
  | some current =>
    if current._meta.deleted then pure ()
    else
      let stamp ← tick
      let s ← Proc.get
      storeMutation (tombstoneOf current s.config.deviceId stamp)

/-! ## Retention -/

/-- `handleRemoteAccessError`. -/
def handleRemoteAccessError (e : EngineError) : Aw Unit :=
  remotely none (Interocitor.handleRemoteAccessError e)

/-- `offlineRetentionState`. -/
def offlineRetentionState (now : ℕ) : Aw (Bool × Option ℕ × ℤ) := do
  let policy ← remotely none activeRetentionPolicy
  match ← getMeta fun m => m.lastSuccessfulSyncAt with
  | none => pure (false, none, policy.maxOfflineDurationMs)
  | some last =>
    pure (decide (policy.maxOfflineDurationMs < (now : ℤ) - last), some last,
      policy.maxOfflineDurationMs)

/-- The quarantine that `quarantineExpiredOfflineWrites` writes. -/
def nextQuarantine (existing : Option QuarantinedOfflineChanges) (queued : List ChangeEntry)
    (now last : ℕ) (maxOfflineDurationMs : ℤ) : QuarantinedOfflineChanges :=
  ⟨now, last, maxOfflineDurationMs,
    (byId ((existing.map fun q => q.entries).getD [] ++ queued)).values⟩

/-- `quarantineExpiredOfflineWrites`: whether the device is fenced. -/
def quarantineExpiredOfflineWrites : Aw Bool := do
  let now ← Aw.now
  match ← offlineRetentionState now with
  | (true, some last, maxOfflineDurationMs) =>
    flushPendingBatch
    let queued ← read fun store => store.outbox
    let existing ← getMeta fun m => m.quarantinedOfflineChanges
    setMeta fun m =>
      { m with
        quarantinedOfflineChanges :=
          some (nextQuarantine existing queued now last maxOfflineDurationMs) }
    setMeta fun m => { m with offlineRetentionExpiredAt := some now }
    write fun store => store.acknowledgeOutbox (queued.map ChangeEntry.id)
    Proc.modify fun s => { s with pendingBatch := false, pendingCount := 0 }
    pure true
  | _ => pure false

/-- `preservedRetentionMeta`. -/
def preservedRetentionMeta : Aw PreservedMeta := do
  let quarantinedOfflineChanges ← getMeta fun m => m.quarantinedOfflineChanges
  let offlineRetentionExpiredAt ← getMeta fun m => m.offlineRetentionExpiredAt
  let lastSuccessfulSyncAt ← getMeta fun m => m.lastSuccessfulSyncAt
  let meshId ← getMeta fun m => m.meshId
  let meshLineage ← getMeta fun m => m.meshLineage
  pure ⟨quarantinedOfflineChanges, offlineRetentionExpiredAt, lastSuccessfulSyncAt, meshId,
    meshLineage⟩

/-- Write the preserved records back, those that are there. -/
def writePreserved (p : PreservedMeta) : Aw Unit := do
  Proc.when (p.quarantinedOfflineChanges.isSome = true) (setMeta fun m =>
    { m with quarantinedOfflineChanges := p.quarantinedOfflineChanges })
  Proc.when (p.offlineRetentionExpiredAt.isSome = true) (setMeta fun m =>
    { m with offlineRetentionExpiredAt := p.offlineRetentionExpiredAt })
  Proc.when (p.lastSuccessfulSyncAt.isSome = true) (setMeta fun m =>
    { m with lastSuccessfulSyncAt := p.lastSuccessfulSyncAt })
  Proc.when (p.meshId.isSome = true) (setMeta fun m => { m with meshId := p.meshId })
  Proc.when (p.meshLineage.isSome = true) (setMeta fun m => { m with meshLineage := p.meshLineage })

/-- `markSuccessfulRemoteSync`. -/
def markSuccessfulRemoteSync : Aw Unit := do
  let now ← Aw.now
  setMeta fun m => { m with lastSuccessfulSyncAt := some now }
  setMeta fun m => { m with offlineRetentionExpiredAt := none }

/-- `acknowledgeManifest`. -/
def acknowledgeManifest : Aw Unit := remotely none Interocitor.acknowledgeManifest

/-! ## Flush -/

/-- `ChangeObservationLedger.persist`: first the generation is compared, then the ledger is
merged into the durable one. -/
def persist (ledger : ChangeObservationLedger) : Aw Bool := do
  let generation ← getMeta fun m => observationGeneration m.changeObservation
  if ledger.generation ≠ generation then pure false
  else
    let durable ← getMeta fun m => m.changeObservation
    match ledger.persist durable with
    | none => pure false
    | some merged =>
      setMeta fun m => { m with changeObservation := some merged }
      pure true

/-- `recordFlushedChanges`. -/
def recordFlushedChanges (entries : List ChangeEntry) : Aw Unit := do
  let stored ← getMeta fun m => m.changeObservation
  match observeFlushed entries (.load stored) with
  | .error name => fail (observeError name)
  | .ok ledger => if ← persist ledger then pure () else fail .observationStateChanged

/-- One turn of the loop over the replicas: whatever fails there is reported, not thrown. -/
def mirror (manifest : Option Manifest) (entries : List ChangeEntry) (replica : ℕ) : Aw Unit :=
  attempt (do
      remotely (some replica) authenticateReplica
      remotely (some replica) (flushReplica manifest entries))
    fun _ => pure ()

/-- `flushPrimary`. -/
def flushPrimary (manifest : Option Manifest) (entries : List ChangeEntry) : Aw Unit := do
  recordFlushedChanges entries
  remotely none (flushToAdapter manifest entries)
  let s ← Proc.get
  Proc.forEach (List.range s.replicas) (mirror manifest entries)

/-- The part of `doFlush` inside its `try`. -/
def publish (entries : List ChangeEntry) : Aw Unit := do
  let s ← Proc.get
  flushPrimary s.manifest entries
  write fun store => store.acknowledgeOutbox (entries.map ChangeEntry.id)
  markSuccessfulRemoteSync

/-- `doFlush`. -/
def doFlush : Aw ℕ := do
  let s ← Proc.get
  if s.adapter = false ∨ s.remoteAccessError.isSome then pure 0
  else
    let entries ← read fun store => store.outbox
    if entries.isEmpty then
      Proc.modify fun s => { s with pendingCount := 0 }
      pure 0
    else
      let _ ← doLoadOrCreateManifest true {}
      if ← quarantineExpiredOfflineWrites then pure 0
      else
        Proc.modify fun s => { s with pendingCount := 0 }
        attempt (publish entries) fun e => do
          handleRemoteAccessError e
          Proc.modify fun s => { s with pendingCount := entries.length }
          fail e
        pure s.pendingCount

/-- `flushQueued`. -/
def flushQueued (includePendingBatch : Bool) : Aw Unit := do
  Proc.when (includePendingBatch = true) flushPendingBatch
  let _ ← doFlush
  pure ()

/-! ## Pull -/

/-- `decodeChangePayload`. -/
def decodeChangePayload (manifest : Option Manifest) (content : Content) : Aw ChangeEntry :=
  match content with
  | .change meshId entry => do
    assertExpectedMeshId manifest meshId
    pure entry
  | .malformed => fail .malformedJson
  | _ => fail .invalidChangePayload

/-- `ensureRowsCached` and `applyChangeEntry`: the rows that an entry changes. -/
def affectedRows (manifest : Option Manifest) (entry : ChangeEntry) : Aw (List Row) := do
  let found ← transact id
  let schema := (← config).schema
  match applyChangeEntry (cachedRows found entry.ops) entry
      ((manifest.map fun m => m.schema).getD 1) schema with
  | .error e => fail (.merge e)
  | .ok (affected, _) => pure affected

/-- One turn of the loop of `pull`. -/
def pullFile (manifest : Option Manifest) (name : Text)
    (progress : Hlc × ChangeObservationLedger) : Aw (Hlc × ChangeObservationLedger) := do
  let content ← remotely none (Eng.readFile (.change name))
  let entry ← decodeChangePayload manifest content
  let wall ← now
  let hlc := hlcReceive wall progress.1 (hlcParse entry.hlc)
  let affected ← affectedRows manifest entry
  Proc.when (affected.isEmpty = false) (write fun store => store.putRows affected)
  match progress.2.observe name entry.hlc with
  | none => fail (observeError name)
  | some ledger => pure (hlc, ledger)

/-- The loop of `pull`. -/
def pullFiles (manifest : Option Manifest) :
    List Text → Hlc × ChangeObservationLedger → Aw (Hlc × ChangeObservationLedger)
  | [], progress => pure progress
  | name :: rest, progress => do
    let progress ← attempt (pullFile manifest name progress) fun e => do fail (← poisonRemote e)
    pullFiles manifest rest progress

/-- `pull`. -/
def pull (loadManifest : Aw Unit) : Aw Hlc := do
  let s ← Proc.get
  loadManifest
  let ledger ← getMeta fun m => ChangeObservationLedger.load m.changeObservation
  let _ ← remotely none readHeadIfExists
  match ← remotely none listChangesIfExists with
  | none => pure s.hlc
  | some files =>
    let (hlc, ledger) ← pullFiles s.manifest (unseenFiles ledger files) (s.hlc, ledger)
    let _ ← persist ledger
    setMeta fun m => { m with hlc := some (hlcSerialize hlc) }
    pure hlc

/-- `pullNow`. -/
def pullNow : Aw Unit := do
  requireAdapter
  attempt (do
      let hlc ← pull (do let _ ← doLoadOrCreateManifest false {})
      Proc.modify fun s => { s with hlc := hlc }
      Proc.when ((← Proc.get).connected = true) markSuccessfulRemoteSync
      acknowledgeManifest)
    fun e => do
      handleRemoteAccessError e
      fail e

/-! ## Compaction and snapshots -/

/-- `compact` of `compaction.ts`. -/
def compactWith (manifest : Manifest) (hlc : Hlc) (retention : RetentionPolicy)
    (pull : Aw Unit) : Aw Manifest := do
  let config ← Aw.config
  if manifest.server.managed ∧ config.deviceId ≠ config.serverId then
    fail .unauthorizedCompaction
  else
    pull
    let covered ← getMeta fun m =>
      (ChangeObservationLedger.load m.changeObservation).capturedChangeFileNames
    let now ← Aw.now
    let snapshotPath := ObjectPath.snapshot (manifest.epoch + 1) config.serverId
    let found ← transact id
    let snapshotId ← generateId snapshotKind
    if manifest.meshId = [] then fail .encodeBeforeManifest
    else
      let snapshot : Snapshot :=
        { buildSnapshot manifest hlc now snapshotId found with coveredChangeFiles := some covered }
      remotely none (Eng.writeFile snapshotPath (.snapshot manifest.meshId snapshot))
      let payload := compactedPayload manifest config.serverId now hlc snapshotPath retention
      let nextManifest : Manifest := { payload with contentHash := computeContentHash payload }
      remotely none (Eng.writeFile (.rootFile (.manifest nextManifest.generation))
        (.manifest nextManifest))
      remotely none (Eng.writeFile .manifestPointer
        (.pointer ⟨nextManifest.generation, .manifest nextManifest.generation⟩))
      setMeta fun m => { m with epoch := some nextManifest.epoch }
      remotely none (Proc.forEach covered fun name =>
        Eng.attempt (Eng.deleteFile (.change name)) fun _ => pure ())
      remotely none (pruneSupersededSnapshots snapshotPath)
      pure nextManifest

/-- `decodeSnapshotPayload`. -/
def decodeSnapshotPayload (manifest : Option Manifest) (content : Content) : Aw Snapshot :=
  match content with
  | .snapshot meshId snapshot => do
    assertExpectedMeshId manifest meshId
    pure snapshot
  | .malformed => fail .malformedJson
  | _ => fail .invalidSnapshotPayload

/-- `clearAll` of the local store. -/
def clearAll : Aw Unit := write fun _ => .empty

/-- `replaceLocalState` inside `rehydrate`: clear the store, write the preserved records
back, then the rows, one table after the other. -/
def replaceLocalState (preserved : PreservedMeta) (snapshot : Snapshot) : Aw Unit := do
  clearAll
  writePreserved preserved
  Proc.forEach snapshot.tables.values fun rows => write fun store => store.putRows rows.values

/-- `restore` inside `rehydrate`. -/
def restoreSnapshot (manifest : Option Manifest) (preserved : PreservedMeta) (hlc : Hlc)
    (path : ObjectPath) : Aw Hlc := do
  let content ← remotely none (Eng.readFile path)
  let snapshot ← decodeSnapshotPayload manifest content
  let generation ← getMeta fun m => observationGeneration m.changeObservation + 1
  replaceLocalState preserved snapshot
  match ChangeObservationLedger.restored generation snapshot.hlc
      (snapshot.coveredChangeFiles.getD []) with
  | none => fail (coveredError (snapshot.coveredChangeFiles.getD []))
  | some stored =>
    setMeta fun m => { m with changeObservation := some stored }
    setMeta fun m => { m with epoch := some snapshot.epoch }
    let deviceId := (← config).deviceId
    pure (if snapshot.hlc = [] then hlc else { hlcParse snapshot.hlc with nodeId := deviceId })

/-- The two tries of `rehydrate` to restore a snapshot. -/
def restoreWithRetry (manifest : Option Manifest) (preserved : PreservedMeta) (hlc : Hlc)
    (path : ObjectPath) (reloadManifest : Aw (Option Manifest)) : Aw Hlc :=
  attempt
    (attempt (restoreSnapshot manifest preserved hlc path) fun firstError => do
      let refreshed ← reloadManifest
      match refreshed.bind fun m => m.snapshotPath with
      | none => fail firstError
      | some refreshedPath =>
        if refreshedPath = path then fail firstError
        else restoreSnapshot manifest preserved hlc refreshedPath)
    fun e => do fail (← poisonRemote e)

/-- `rehydrate`. -/
def rehydrate (preserved : PreservedMeta) (pull : Aw Unit)
    (reloadManifest : Aw (Option Manifest)) : Aw Hlc := do
  let s ← Proc.get
  match s.manifest.bind fun m => m.snapshotPath with
  | none =>
    pull
    pure s.hlc
  | some path =>
    let hlc ← restoreWithRetry s.manifest preserved s.hlc path reloadManifest
    pull
    pure hlc

/-- `rehydrateNow`. -/
def rehydrateNow (preserved : PreservedMeta) : Aw Unit := do
  requireAdapter
  let hlc ← rehydrate preserved pullNow (do
    let _ ← doLoadOrCreateManifest true {}
    pure (← Proc.get).manifest)
  Proc.modify fun s => { s with hlc := hlc }
  acknowledgeManifest

/-- `flushAndRehydrateNow`. -/
def flushAndRehydrateNow : Aw Unit := do
  flushPendingBatch
  let _ ← doFlush
  rehydrateNow (← preservedRetentionMeta)

/-- `resetExpiredClientFromRemote`. -/
def resetExpiredClientFromRemote : Aw Unit := do
  let preserved ← preservedRetentionMeta
  let s ← Proc.get
  if (s.manifest.bind fun m => m.snapshotPath).isSome then rehydrateNow preserved
  else
    clearAll
    writePreserved preserved
    pullNow

/-- `Interocitor.compact`. -/
def compact : Aw Unit := do
  let _ ← doLoadOrCreateManifest true {}
  if ← quarantineExpiredOfflineWrites then resetExpiredClientFromRemote
  else
    flushPendingBatch
    let _ ← doFlush
    requireAdapter
    let s ← Proc.get
    match s.manifest with
    | none => fail .notConnected
    | some manifest =>
      let retention ← remotely none compactionRetention
      let next ← compactWith manifest s.hlc retention pullNow
      Proc.modify fun s => { s with manifest := some next }
      acknowledgeManifest

/-! ## Connect -/

/-- `rebuildOutboxFromLocalState`. -/
def rebuildOutboxFromLocalState : Aw Unit := do
  let rows ← read fun store => store.getAllRows
  let entries ← remotely none (rebuildEntries rows)
  if entries.isEmpty then pure ()
  else
    write fun store => store.pushOutboxEntries entries
    let size ← read fun store => store.outbox.length
    Proc.modify fun s => { s with pendingCount := size }

/-- The manifest that `tryConnectFastPath` starts from. -/
def cachedManifest : Aw (Option Manifest) := do
  match (← Proc.get).manifest with
  | some manifest => pure (some manifest)
  | none => getMeta fun m => m.manifestCache

/-- The last part of `tryConnectFastPath`: nothing new at the remote. -/
def connectUnchanged (ledger : ChangeObservationLedger) : Aw Bool :=
  attempt (do
      match ← remotely none (Eng.readFile changesHead) with
      | .head latestHlc =>
        if (truthy latestHlc).any fun latest =>
            isNonPos (hlcCompareStr latest ledger.globalHighWaterHlc) then
          let files ← remotely none Eng.listChanges
          if ledger.hasUnseenChange files then pure false
          else
            Proc.modify fun s => { s with connected := true, remoteAccessError := none }
            markSuccessfulRemoteSync
            pure true
        else pure false
      | _ => pure false)
    fun _ => pure false

/-- `tryConnectFastPath`. -/
def tryConnectFastPath : Aw Bool := do
  match ← cachedManifest with
  | none => pure false
  | some cached =>
    if cached.encrypted ≠ (← config).encrypted then pure false
    else
      let verified ← attempt (do
          let _ ← doLoadOrCreateManifest true ⟨false, false, false⟩
          pure true)
        fun _ => pure false
      let s ← Proc.get
      if verified = false ∨ (s.manifest.map fun m => m.meshId) ≠ some cached.meshId then pure false
      else
        let ledger ← getMeta fun m => ChangeObservationLedger.load m.changeObservation
        if ledger.globalHighWaterHlc = [] ∨ ledger.hasExactObservationHistory = false then
          pure false
        else
          let now ← Aw.now
          let (expired, _) ← offlineRetentionState now
          if expired then pure false
          else if (← read fun store => store.outbox.length) ≠ 0 then pure false
          else if (← read fun store => store.pendingBatch.isSome) then pure false
          else connectUnchanged ledger

/-- `loadLocalState`, as far as it is kept here. -/
def loadLocalState : Aw Unit := do
  let pending ← read fun store => store.pendingBatch.isSome
  Proc.modify fun s => { s with pendingBatch := pending }
  match truthy (← getMeta fun m => m.hlc) with
  | none => pure ()
  | some saved =>
    Proc.modify fun s => { s with hlc := { hlcParse saved with nodeId := s.config.deviceId } }

/-- The reset of `applyJoinExistingMeshPolicy`, with `ChangeObservationLedger.clearAll`. -/
def resetToMesh (meshId : Text) : Aw Unit := do
  Proc.modify fun s => { s with pendingBatch := false }
  let generation ← getMeta fun m => observationGeneration m.changeObservation + 1
  clearAll
  setMeta fun m => { m with changeObservation := some (.cleared generation) }
  let version := (← config).schema.bind fun s => s.version
  Proc.when (version.isSome = true) (setMeta fun m => { m with schemaVersion := version })
  setMeta fun m => { m with meshId := some meshId }
  loadLocalState
  Proc.modify fun s => { s with pendingCount := 0 }

/-- `applyJoinExistingMeshPolicy`. -/
def applyJoinExistingMeshPolicy (bootstrapped : Bool) : Aw Unit := do
  let s ← Proc.get
  match truthy (s.manifest.map fun m => m.meshId) with
  | none => pure ()
  | some nextMeshId =>
    let bind := setMeta fun m => { m with meshId := some nextMeshId }
    if bootstrapped then bind
    else
      let previousMeshId ← getMeta fun m => m.meshId.getD []
      if previousMeshId = nextMeshId then pure ()
      else
        let rows ← read fun store => store.getAllRows
        let queued ← read fun store => store.outbox
        if rows.isEmpty ∧ queued.isEmpty ∧ s.pendingBatch = false ∧ previousMeshId = [] then bind
        else
          match s.config.joinExistingMeshPolicy with
          | .mergeWithRemote => bind
          | .resetToRemote => resetToMesh nextMeshId

/-- `rememberedMeshIdentity`. -/
def rememberedMeshIdentity : Aw (Text × Option ℤ) := do
  let meshId ← getMeta fun m => m.meshId.getD []
  let lineage ← getMeta fun m => m.meshLineage.filter fun n => decide (0 < n)
  pure (meshId, lineage)

/-- `applyMeshEvictionPolicy`. -/
def applyMeshEvictionPolicy (bootstrapped : Bool) (remembered : Text × Option ℤ) : Aw Bool := do
  let s ← Proc.get
  match s.manifest with
  | none => pure false
  | some manifest =>
    if manifest.meshId = [] then pure false
    else
      setMeta fun m => { m with meshLineage := some (resolveManifestLineage manifest.lineage) }
      if evictionDetected bootstrapped remembered manifest then
        let _ ← read fun store => store.getAllRows
        let _ ← read fun store => store.outbox.length
        remotely none readEvictionAttestation
        match s.config.evictedMeshPolicy with
        | .manual =>
          Proc.modify fun s => { s with evictedMeshAwaitingRefill := true }
          pure false
        | .refill => pure true
      else pure false

/-- `runConnectStage`. -/
def connectStage {α : Type} (m : Aw α) : Aw (Option α) :=
  Proc.tryCatch (do pure (some (← m))) fun failure =>
    match failure with
    | .stalled => pure none
    | .thrown e => do
      handleRemoteAccessError e
      fail e

/-- The end of `doConnect`. -/
def finishConnect : Aw Unit := do
  Proc.modify fun s => { s with connected := true, remoteAccessError := none }
  markSuccessfulRemoteSync

/-- The stages of `doConnect` that bring rows in. -/
def synchronise (offlineRetentionExpired : Bool) : Aw (Option Bool) := do
  let localEpoch ← getMeta fun m => m.epoch.getD 0
  let remoteEpoch := ((← Proc.get).manifest.map fun m => m.epoch).getD 0
  if offlineRetentionExpired then
    pure ((← connectStage resetExpiredClientFromRemote).map fun _ => true)
  else if localEpoch < remoteEpoch then
    pure ((← connectStage flushAndRehydrateNow).map fun _ => true)
  else pure ((← connectStage pullNow).map fun _ => false)

/-- The last stages of `doConnect`. -/
def republishAndFlush (republish flushed : Bool) : Aw Unit := do
  Proc.when (republish = true) rebuildOutboxFromLocalState
  if flushed = false ∨ republish then
    match ← connectStage (flushQueued true) with
    | none => pure ()
    | some _ => finishConnect
  else finishConnect

/-- `doConnect` from the manifest on. -/
def connectToManifest (remembered : Text × Option ℤ) (bootstrapped : Bool) : Aw Unit := do
  applyJoinExistingMeshPolicy bootstrapped
  let refillEvictedMesh ← applyMeshEvictionPolicy bootstrapped remembered
  let offlineRetentionExpired ← quarantineExpiredOfflineWrites
  let s ← Proc.get
  match ← connectStage (remotely none (upsertDeviceMetadata
      { displayName := s.config.deviceName
        deviceType := s.config.deviceType
        bootstrap := bootstrapped
        skipTouchIfUnchanged := !bootstrapped })) with
  | none => pure ()
  | some _ =>
    match ← synchronise offlineRetentionExpired with
    | none => pure ()
    | some flushed =>
      let s ← Proc.get
      let republish :=
        if s.evictedMeshAwaitingRefill then false
        else bootstrapped || (refillEvictedMesh && !offlineRetentionExpired)
      republishAndFlush republish flushed

/-- `doConnect`. -/
def doConnect : Aw Unit := do
  requireAdapter
  if ← remotely none authenticateStage then
    if ← tryConnectFastPath then pure ()
    else if ← remotely none (ensureFolders [.root, .devices, .mainline, .changes]) then
      let remembered ← rememberedMeshIdentity
      match ← connectStage (doLoadOrCreateManifest true { assertLocalMeshId := false }) with
      | none => pure ()
      | some bootstrapped => connectToManifest remembered bootstrapped

/-- `connect`. -/
def connect : Aw Unit := do
  let s ← Proc.get
  if s.connected ∧ s.remotePoisonError.isNone then pure () else doConnect

/-- `refillEvictedMesh`. -/
def refillEvictedMesh : Aw Unit := do
  Proc.modify fun s => { s with evictedMeshAwaitingRefill := false }
  rebuildOutboxFromLocalState
  flushQueued true

end Aw

end Interocitor
