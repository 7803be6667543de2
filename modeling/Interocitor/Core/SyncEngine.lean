import Interocitor.Core.Compaction

/-!
# `sync-engine.ts`: the methods of an engine

Local writes, flush, pull, rehydrate, compact and connect, for a read/write engine.
Each definition is the method of that name; what a method reads from `this` it reads
from the `Device`, and a field that a method captures before a call (the clock that
`compact` publishes, the manifest that a pull decodes with) is captured here too.

The sections follow the order in which the methods build on each other.
-/

namespace Interocitor

open CodeUnits OrderedRecord Interaction Eng

/-! ## Opening an engine -/

/-- `"server_relay_1"`. -/
def defaultServerId : Text := [115, 101, 114, 118, 101, 114, 95, 114, 101, 108, 97, 121, 95, 49]

/-- The configuration that the constructor completes from a device id alone. -/
def defaultConfig (deviceId : Text) : Config where
  deviceId := deviceId
  serverId := defaultServerId
  serverManaged := false
  encrypted := false
  schema := none
  retention := ⟨7 * dayMs, 30 * dayMs⟩
  retentionConfigured := false
  batchWindowMs := 1000
  joinExistingMeshPolicy := .resetToRemote
  evictedMeshPolicy := .refill
  deviceName := none
  deviceType := none

/-- A new engine over a store: the constructor and `loadLocalState`. -/
def openEngine (config : Config) (wall : ℕ) (store : LocalStore) : Device where
  config := config
  store := store
  hlc :=
    match truthy store.metadata.hlc with
    | some saved => { hlcParse saved with nodeId := config.deviceId }
    | none => hlcInit wall config.deviceId
  manifest := none
  adapter := true
  connected := false
  remoteAccessError := none
  remotePoisonError := none
  pendingBatch := store.pendingBatch.isSome
  pendingCount := 0
  batchDepth := 0
  evictedMeshAwaitingRefill := false

/-! ## Rows and ops -/

/-- `getRowHlc`. -/
def getRowHlc (row : Row) : Text :=
  row.payload.values.foldl (fun latest entry =>
    if entry.hlc = [] then latest
    else if latest = [] ∨ isPos (hlcCompareStr entry.hlc latest) then entry.hlc
    else latest) (row._meta.deletedHlc.getD [])

/-- `rowToSyncOp`. -/
def rowToSyncOp (row : Row) : Option Op :=
  if row._meta.deleted then
    let hlc := row._meta.deletedHlc.getD (getRowHlc row)
    if hlc = [] then none else some (.delete row._meta.table row._meta.rowId hlc)
  else
    let columns := row.payload.filter fun _ entry => decide (entry.hlc ≠ [])
    if columns.entries = [] then none
    else some (.upsert row._meta.table row._meta.rowId columns)

/-! ## Local writes -/

/-- `refreshHlcFromLocal`. -/
def refreshHlcFromLocal : Eng Unit :=
  Proc.modify fun d =>
    match d.store.metadata.hlc with
    | none => d
    | some saved =>
      if isNonPos (hlcCompareStr saved (hlcSerialize d.hlc)) then d
      else { d with hlc := { hlcParse saved with nodeId := d.config.deviceId } }

/-- The device after `flushPendingBatch`; scheduling a flush only counts the batch. -/
def Device.promoted (d : Device) : Device :=
  if d.store.pendingBatch.isSome then
    { d with
      store := d.store.promotePendingBatch
      pendingBatch := false
      pendingCount := d.pendingCount + 1 }
  else d

/-- `flushPendingBatch`. -/
def flushPendingBatch : Eng Unit := Proc.modify Device.promoted

@[simp] theorem outbox_promoted (d : Device) : d.promoted.store.outbox = d.store.queued := by
  cases h : d.store.pendingBatch with
  | none => simp [Device.promoted, LocalStore.queued, h]
  | some p => simp [Device.promoted, LocalStore.queued, LocalStore.promotePendingBatch, h]

@[simp] theorem pendingBatch_promoted (d : Device) : d.promoted.store.pendingBatch = none := by
  cases h : d.store.pendingBatch with
  | none => simp [Device.promoted, h]
  | some p => simp [Device.promoted, LocalStore.promotePendingBatch, h]

@[simp] theorem queued_promoted (d : Device) : d.promoted.store.queued = d.store.queued := by
  rw [LocalStore.queued, outbox_promoted, pendingBatch_promoted, Option.toList_none,
    List.append_nil]

theorem promoted_eq (d : Device) :
    d.promoted =
      { d with
        store := { d.store with outbox := d.store.queued, pendingBatch := none }
        pendingBatch := d.promoted.pendingBatch
        pendingCount := d.promoted.pendingCount } := by
  obtain ⟨config, ⟨rows, outbox, pending, records⟩⟩ := d
  cases pending with
  | none => simp [Device.promoted, LocalStore.queued]
  | some p => simp [Device.promoted, LocalStore.queued, LocalStore.promotePendingBatch]

/-- `commitLocalMutation` of the engine. -/
def commitLocalMutation (row : Row) (op : Op) (hlc : Text) : Eng Unit := do
  let id ← generateId changeKind
  let ts ← Eng.now
  Proc.modify fun d =>
    { d with
      store := d.store.commitLocalMutation row ⟨id, ts, d.config.deviceId, hlc, [op]⟩
      pendingBatch := true }
  let d ← Proc.get
  Proc.when (d.batchDepth = 0 ∧ d.config.batchWindowMs ≤ 0) flushPendingBatch

/-- Store a changed row: with an op to publish, or only locally. -/
def storeMutation (row : Row) : Eng Unit :=
  match rowToSyncOp row, truthy (some (getRowHlc row)) with
  | some op, some hlc => commitLocalMutation row op hlc
  | _, _ => modifyStore fun s => s.putRow row

/-- The row that `putNow` writes into: the current one, with an empty payload if it is
a tombstone, or a new one. -/
def rowForPut (current : Option Row) (table rowId : Text) (schemaVersion : ℕ) : Row :=
  match current with
  | some row => ⟨row._meta, if row._meta.deleted then ∅ else row.payload⟩
  | none => ⟨⟨table, rowId, false, none, schemaVersion, none⟩, ∅⟩

/-- The columns that `putNow` stores: to assign to `payload["__proto__"]` creates no property. -/
def storedColumns (columns : List (Text × JsValue)) : List (Text × JsValue) :=
  columns.filter fun p => decide (p.1 ≠ protoName)

/-- Write columns with one stamp; `undefined` is stored as `null`. -/
def putColumns (payload : Record Text ColumnEntry) (columns : List (Text × JsValue))
    (stamp : Text) : Record Text ColumnEntry :=
  (storedColumns columns).foldl (fun payload p =>
    payload.set p.1 ⟨match p.2 with | .undefined => .null | v => v, stamp⟩) payload

/-- The row that `putNow` stores. -/
def putRowOf (d : Device) (table rowId : Text) (columns : List (Text × JsValue)) (stamp : Text) :
    Row :=
  let row := rowForPut (d.store.getRow table rowId) table rowId
    ((d.config.schema.bind fun s => s.version).getD 0)
  ⟨{ row._meta with deleted := false, deletedHlc := none, owner := some d.config.deviceId },
    putColumns row.payload columns stamp⟩

/-- `putNow`: the stamp it issues. -/
def putNow (table rowId : Text) (columns : List (Text × JsValue)) : Eng Text := do
  refreshHlcFromLocal
  let wall ← Eng.now
  Proc.modify fun d => { d with hlc := hlcNow wall d.hlc }
  let d ← Proc.get
  let stamp := hlcSerialize d.hlc
  storeMutation (putRowOf d table rowId columns stamp)
  pure stamp

/-- The tombstone that `deleteNow` stores. -/
def tombstoneOf (row : Row) (deviceId stamp : Text) : Row :=
  ⟨{ row._meta with deleted := true, deletedHlc := some stamp, owner := some deviceId }, ∅⟩

/-- `deleteNow`: the stamp it issues, if there is something to delete. -/
def deleteNow (table rowId : Text) : Eng (Option Text) := do
  refreshHlcFromLocal
  let d ← Proc.get
  match d.store.getRow table rowId with
  | none => pure none
  | some current =>
    if current._meta.deleted then pure none
    else
      let wall ← Eng.now
      Proc.modify fun d => { d with hlc := hlcNow wall d.hlc }
      let d ← Proc.get
      let stamp := hlcSerialize d.hlc
      storeMutation (tombstoneOf current d.config.deviceId stamp)
      pure (some stamp)

/-! ## Manifest, access and retention -/

/-- `handleRemoteAccessError`: a denial pauses the remote session. -/
def handleRemoteAccessError (e : EngineError) : Eng Unit :=
  Proc.modify fun d =>
    match accessKind (.thrown e) with
    | some kind =>
      if kind.denied then { d with remoteAccessError := some kind, connected := false } else d
    | none => d

/-- `requireAdapter`. -/
def requireAdapter : Eng Unit := do
  let d ← Proc.get
  match d.remotePoisonError with
  | some e => fail e
  | none => if d.adapter = false then fail .noAdapter else pure ()

section

variable {W : Type} {E : Env Call Reply W} {Q : Unit → Device → W → Prop}
  {X : Failure → Device → W → Prop} {d : Device} {w : W}

@[simp] theorem wp_requireAdapter : requireAdapter.wp E Q X d w ↔
    match d.remotePoisonError with
    | some e => X (.thrown e) d w
    | none => if d.adapter = false then X (.thrown .noAdapter) d w else Q () d w := by
  rw [requireAdapter, Proc.wp_bind, Proc.wp_get]
  cases d.remotePoisonError with
  | some e => exact Iff.rfl
  | none => cases hadapter : d.adapter <;> simp

theorem wp_requireAdapter_ready (hadapter : d.adapter = true)
    (hpoison : d.remotePoisonError = none) : requireAdapter.wp E Q X d w ↔ Q () d w := by
  simp [hadapter, hpoison]

/-- `requireAdapter` goes on with the same device, or throws. -/
theorem wp_requireAdapter_of (hok : Q () d w) (hfail : ∀ e, X (.thrown e) d w) :
    requireAdapter.wp E Q X d w := by
  rw [wp_requireAdapter]
  split
  · exact hfail _
  · split_ifs
    · exact hfail _
    · exact hok

end

/-- The options of `doLoadOrCreateManifest`. -/
structure LoadOptions where
  assertLocalMeshId : Bool := true
  createIfMissing : Bool := true
  persistCache : Bool := true

/-- `doLoadOrCreateManifest`: whether the manifest was created. -/
def doLoadOrCreateManifest (force : Bool) (options : LoadOptions) : Eng Bool := do
  let d ← Proc.get
  if !force && d.manifest.isSome && d.remotePoisonError.isNone then pure false
  else
    requireAdapter
    let (manifest, bootstrapped) ←
      loadOrCreateManifest options.assertLocalMeshId options.createIfMissing
    Proc.modify fun d => { d with manifest := some manifest }
    Proc.when (options.persistCache = true)
      (setMeta fun m => { m with manifestCache := some manifest })
    pure bootstrapped

/-- `activeRetentionPolicy`. -/
def activeRetentionPolicy : Eng RetentionPolicy := do
  let d ← Proc.get
  match resolveRetentionPolicy
      ((d.manifest.bind fun m => m.retention).or (some d.config.retention.toInput)) with
  | none => fail .invalidRetention
  | some policy => pure policy

/-- `offlineRetentionState`: whether the offline limit is exceeded, when the last sync
was, and the limit. -/
def offlineRetentionState (now : ℕ) : Eng (Bool × Option ℕ × ℤ) := do
  let policy ← activeRetentionPolicy
  match (← metadata).lastSuccessfulSyncAt with
  | none => pure (false, none, policy.maxOfflineDurationMs)
  | some last =>
    pure (decide (policy.maxOfflineDurationMs < (now : ℤ) - last), some last,
      policy.maxOfflineDurationMs)

/-- Entries by id, a later one in place of an earlier one: the `Map` of
`quarantineExpiredOfflineWrites`. -/
def byId (entries : List ChangeEntry) : Record Text ChangeEntry :=
  entries.foldl (fun r entry => r.set entry.id entry) ∅

/-- Move the outbox of a store into its quarantine. -/
def quarantineOutbox (store : LocalStore) (now last : ℕ) (maxOfflineDurationMs : ℤ) : LocalStore :=
  let existing := (store.metadata.quarantinedOfflineChanges.map fun q => q.entries).getD []
  let quarantine : QuarantinedOfflineChanges :=
    ⟨now, last, maxOfflineDurationMs, (byId (existing ++ store.outbox)).values⟩
  let fenced : LocalStore :=
    { store with
      metadata :=
        { store.metadata with
          quarantinedOfflineChanges := some quarantine
          offlineRetentionExpiredAt := some now } }
  fenced.acknowledgeOutbox (store.outbox.map ChangeEntry.id)

/-- `quarantineExpiredOfflineWrites`: whether the device is fenced. -/
def quarantineExpiredOfflineWrites : Eng Bool := do
  let now ← Eng.now
  match ← offlineRetentionState now with
  | (true, some last, maxOfflineDurationMs) =>
    flushPendingBatch
    Proc.modify fun d =>
      { d with
        store := quarantineOutbox d.store now last maxOfflineDurationMs
        pendingBatch := false
        pendingCount := 0 }
    pure true
  | _ => pure false

/-- `preservedRetentionMeta`. -/
def preservedRetentionMeta : Eng PreservedMeta := do
  let m ← metadata
  pure { m with }

/-- `markSuccessfulRemoteSync`. -/
def markSuccessfulRemoteSync : Eng Unit := do
  let now ← Eng.now
  setMeta fun m =>
    { m with lastSuccessfulSyncAt := some now, offlineRetentionExpiredAt := none }

/-- `acknowledgeManifest`. -/
def acknowledgeManifest : Eng Unit := do
  let d ← Proc.get
  match d.manifest with
  | none => pure ()
  | some manifest =>
    if d.adapter = false ∨ (manifest.watermarkHlc = [] ∧ manifest.epoch = 0) then pure ()
    else
      upsertDeviceMetadata
        { displayName := d.config.deviceName
          deviceType := d.config.deviceType
          observedManifestGeneration := some manifest.generation
          observedEpoch := some manifest.epoch
          observedWatermarkHlc := some manifest.watermarkHlc
          skipTouchIfUnchanged := true }

/-! ## Flush and pull -/

/-- The part of `doFlush` inside its `try`. -/
def publish (entries : List ChangeEntry) : Eng Unit := do
  flushPrimary (← Proc.get).manifest entries
  modifyStore fun s => s.acknowledgeOutbox (entries.map ChangeEntry.id)
  markSuccessfulRemoteSync

/-- `doFlush`: the queued changes that triggered it. -/
def doFlush : Eng ℕ := do
  let d ← Proc.get
  if d.adapter = false ∨ d.remoteAccessError.isSome then pure 0
  else
    let entries := d.store.outbox
    if entries.isEmpty then
      Proc.modify fun d => { d with pendingCount := 0 }
      pure 0
    else
      let _ ← doLoadOrCreateManifest true {}
      if ← quarantineExpiredOfflineWrites then pure 0
      else
        Proc.modify fun d => { d with pendingCount := 0 }
        attempt (publish entries) fun e => do
          handleRemoteAccessError e
          Proc.modify fun d => { d with pendingCount := entries.length }
          fail e
        pure d.pendingCount

/-- `flushQueued`; in a mesh without a managing server it never starts a compaction. -/
def flushQueued (includePendingBatch : Bool) : Eng Unit := do
  Proc.when (includePendingBatch = true) flushPendingBatch
  let _ ← doFlush
  pure ()

/-- `pullNow` of a read/write engine. -/
def pullNow : Eng Unit := do
  requireAdapter
  attempt (do
      let hlc ← pull (do let _ ← doLoadOrCreateManifest false {})
      Proc.modify fun d => { d with hlc := hlc }
      Proc.when ((← Proc.get).connected = true) markSuccessfulRemoteSync
      acknowledgeManifest)
    fun e => do
      handleRemoteAccessError e
      fail e

/-! ## Rehydrate and compact -/

/-- `rehydrateNow`. -/
def rehydrateNow (preserved : PreservedMeta) : Eng Unit := do
  requireAdapter
  let hlc ← rehydrate preserved pullNow (do
    let _ ← doLoadOrCreateManifest true {}
    pure (← Proc.get).manifest)
  Proc.modify fun d => { d with hlc := hlc }
  acknowledgeManifest

/-- `flushAndRehydrateNow`. -/
def flushAndRehydrateNow : Eng Unit := do
  flushPendingBatch
  let _ ← doFlush
  rehydrateNow (← preservedRetentionMeta)

/-- `resetExpiredClientFromRemote`. -/
def resetExpiredClientFromRemote : Eng Unit := do
  let preserved ← preservedRetentionMeta
  let d ← Proc.get
  if (d.manifest.bind fun m => m.snapshotPath).isSome then rehydrateNow preserved
  else
    modifyStore fun _ => ⟨∅, [], none, preserved.toMetadata⟩
    pullNow

/-- The retention policy that `compact` publishes. -/
def compactionRetention : Eng RetentionPolicy := do
  let config ← Eng.config
  if config.retentionConfigured then pure config.retention else activeRetentionPolicy

/-- `Interocitor.compact`. -/
def compact : Eng Unit := do
  let _ ← doLoadOrCreateManifest true {}
  if ← quarantineExpiredOfflineWrites then resetExpiredClientFromRemote
  else
    flushPendingBatch
    let _ ← doFlush
    requireAdapter
    let d ← Proc.get
    match d.manifest with
    | none => fail .notConnected
    | some manifest =>
      let retention ← compactionRetention
      let next ← compactWith manifest d.hlc retention pullNow
      Proc.modify fun d => { d with manifest := some next }
      acknowledgeManifest

/-! ## Connect -/

/-- `rebuildOutboxFromLocalState`: one entry for each row that has an op. -/
def rebuildEntries : List Row → Eng (List ChangeEntry)
  | [] => pure []
  | row :: rows => do
    match rowToSyncOp row, truthy (some (getRowHlc row)) with
    | some op, some hlc =>
      let id ← generateId changeKind
      let ts ← Eng.now
      let deviceId := (← Eng.config).deviceId
      pure (⟨id, ts, deviceId, hlc, [op]⟩ :: (← rebuildEntries rows))
    | _, _ => rebuildEntries rows

/-- `rebuildOutboxFromLocalState`. -/
def rebuildOutboxFromLocalState : Eng Unit := do
  let entries ← rebuildEntries (← Eng.store).getAllRows
  if entries.isEmpty then pure ()
  else
    Proc.modify fun d =>
      let store := d.store.pushOutboxEntries entries
      { d with store := store, pendingCount := store.outbox.length }

/-- `tryConnectFastPath`. -/
def tryConnectFastPath : Eng Bool := do
  let d ← Proc.get
  match d.manifest.or d.store.metadata.manifestCache with
  | none => pure false
  | some cached =>
    if cached.encrypted ≠ d.config.encrypted then pure false
    else
      let verified ← attempt (do
          let _ ← doLoadOrCreateManifest true ⟨false, false, false⟩
          pure true)
        fun _ => pure false
      let d ← Proc.get
      let ledger := ChangeObservationLedger.load d.store.metadata.changeObservation
      if verified = false ∨ (d.manifest.map fun m => m.meshId) ≠ some cached.meshId ∨
          ledger.globalHighWaterHlc = [] ∨ ledger.hasExactObservationHistory = false then
        pure false
      else
        let now ← Eng.now
        let (expired, _) ← offlineRetentionState now
        if expired || !d.store.outbox.isEmpty || d.store.pendingBatch.isSome then pure false
        else
          attempt (do
              match ← readFile changesHead with
              | .head latestHlc =>
                if (truthy latestHlc).any fun latest =>
                    isNonPos (hlcCompareStr latest ledger.globalHighWaterHlc) then
                  let files ← listChanges
                  if ledger.hasUnseenChange files then pure false
                  else
                    Proc.modify fun d => { d with connected := true, remoteAccessError := none }
                    markSuccessfulRemoteSync
                    pure true
                else pure false
              | _ => pure false)
            fun _ => pure false

/-- `applyJoinExistingMeshPolicy`. -/
def applyJoinExistingMeshPolicy (bootstrapped : Bool) : Eng Unit := do
  let d ← Proc.get
  match truthy (d.manifest.map fun m => m.meshId) with
  | none => pure ()
  | some nextMeshId =>
    let bind := setMeta fun m => { m with meshId := some nextMeshId }
    if bootstrapped then bind
    else
      let previousMeshId := d.store.metadata.meshId.getD []
      if previousMeshId = nextMeshId then pure ()
      else if d.store.getAllRows.isEmpty ∧ d.store.outbox.isEmpty ∧ d.pendingBatch = false ∧
          previousMeshId = [] then bind
      else
        match d.config.joinExistingMeshPolicy with
        | .mergeWithRemote => bind
        | .resetToRemote =>
          Proc.modify fun d =>
            let generation := observationGeneration d.store.metadata.changeObservation + 1
            let records : Metadata :=
              { Metadata.empty with
                changeObservation := some (.cleared generation)
                schemaVersion := d.config.schema.bind fun s => s.version
                meshId := some nextMeshId }
            { d with store := ⟨∅, [], none, records⟩, pendingBatch := false, pendingCount := 0 }

/-- `rememberedMeshIdentity`. -/
def rememberedMeshIdentity : Eng (Text × Option ℤ) := do
  let m ← metadata
  pure (m.meshId.getD [], m.meshLineage.filter fun n => decide (0 < n))

/-- `readEvictionAttestation`; only an event shows the record. -/
def readEvictionAttestation : Eng Unit :=
  attempt (do let _ ← readFile .evicted) fun _ => pure ()

/-- Whether the manifest shows that the mesh was evicted since the device remembered
`rememberedLineage` of `rememberedMeshId`. -/
def evictionDetected (bootstrapped : Bool) (remembered : Text × Option ℤ) (manifest : Manifest) :
    Bool :=
  decide (remembered.1 = manifest.meshId) &&
    (bootstrapped ||
      remembered.2.any fun lineage => decide (lineage ≠ resolveManifestLineage manifest.lineage))

/-- `applyMeshEvictionPolicy`: whether to republish the local state. -/
def applyMeshEvictionPolicy (bootstrapped : Bool) (remembered : Text × Option ℤ) : Eng Bool := do
  let d ← Proc.get
  match d.manifest with
  | none => pure false
  | some manifest =>
    if manifest.meshId = [] then pure false
    else
      setMeta fun m => { m with meshLineage := some (resolveManifestLineage manifest.lineage) }
      if evictionDetected bootstrapped remembered manifest then
        readEvictionAttestation
        match d.config.evictedMeshPolicy with
        | .manual =>
          Proc.modify fun d => { d with evictedMeshAwaitingRefill := true }
          pure false
        | .refill => pure true
      else pure false

/-- `runConnectStage`, with the handling of its result in `doConnect`: `none` when the
stage ran into its deadline, after which `connect()` resolves without a session. -/
def connectStage {α : Type} (m : Eng α) : Eng (Option α) :=
  Proc.tryCatch (do pure (some (← m))) fun failure =>
    match failure with
    | .stalled => pure none
    | .thrown e => do
      handleRemoteAccessError e
      fail e

/-- The authentication stage: whether to go on. -/
def authenticateStage : Eng Bool := do
  let authenticated : Bool ← Proc.ask Call.isAuthenticated
  if authenticated then pure true
  else do
    let result ← connectStage (do answered (← Proc.ask Call.authenticate))
    pure result.isSome

/-- The folder stages: whether to go on. -/
def ensureFolders : List Folder → Eng Bool
  | [] => pure true
  | folder :: rest => do
    match ← connectStage (ensureFolder folder) with
    | none => pure false
    | some _ => ensureFolders rest

/-- The end of `doConnect`. -/
def finishConnect : Eng Unit := do
  Proc.modify fun d => { d with connected := true, remoteAccessError := none }
  markSuccessfulRemoteSync

/-- The stages of `doConnect` that bring rows in: the reset of an expired device, the
replacement by a newer snapshot, or a plain pull.  The result says whether the queue
was already flushed. -/
def synchronise (offlineRetentionExpired : Bool) : Eng (Option Bool) := do
  let d ← Proc.get
  let localEpoch := d.store.metadata.epoch.getD 0
  let remoteEpoch := (d.manifest.map fun m => m.epoch).getD 0
  if offlineRetentionExpired then
    pure ((← connectStage resetExpiredClientFromRemote).map fun _ => true)
  else if localEpoch < remoteEpoch then
    pure ((← connectStage flushAndRehydrateNow).map fun _ => true)
  else pure ((← connectStage pullNow).map fun _ => false)

/-- The last stages of `doConnect`: republish what an evicted mesh lost, flush, and
mark the engine connected. -/
def republishAndFlush (republish flushed : Bool) : Eng Unit := do
  Proc.when (republish = true) rebuildOutboxFromLocalState
  if flushed = false ∨ republish then
    match ← connectStage (flushQueued true) with
    | none => pure ()
    | some _ => finishConnect
  else finishConnect

/-- `doConnect` from the manifest on. -/
def connectToManifest (remembered : Text × Option ℤ) (bootstrapped : Bool) : Eng Unit := do
  applyJoinExistingMeshPolicy bootstrapped
  let refillEvictedMesh ← applyMeshEvictionPolicy bootstrapped remembered
  let offlineRetentionExpired ← quarantineExpiredOfflineWrites
  let d ← Proc.get
  match ← connectStage (upsertDeviceMetadata
      { displayName := d.config.deviceName
        deviceType := d.config.deviceType
        bootstrap := bootstrapped
        skipTouchIfUnchanged := !bootstrapped }) with
  | none => pure ()
  | some _ =>
    match ← synchronise offlineRetentionExpired with
    | none => pure ()
    | some flushed =>
      let d ← Proc.get
      let republish :=
        if d.evictedMeshAwaitingRefill then false
        else bootstrapped || (refillEvictedMesh && !offlineRetentionExpired)
      republishAndFlush republish flushed

/-- `doConnect`. -/
def doConnect : Eng Unit := do
  requireAdapter
  if ← authenticateStage then
    if ← tryConnectFastPath then pure ()
    else if ← ensureFolders [.root, .devices, .mainline, .changes] then
      let remembered ← rememberedMeshIdentity
      match ← connectStage (doLoadOrCreateManifest true { assertLocalMeshId := false }) with
      | none => pure ()
      | some bootstrapped => connectToManifest remembered bootstrapped

/-- `connect`. -/
def connect : Eng Unit := do
  let d ← Proc.get
  if d.connected ∧ d.remotePoisonError.isNone then pure () else doConnect

end Interocitor
