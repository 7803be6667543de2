import Interocitor.Core.Engine

/-!
# `manifest.ts`, `retention.ts` and the mesh check of `codec.ts`

Loading the manifest that the pointer names, creating the first manifest of a mesh,
and the device records.

`readJsonIfExists` turns every failure of a read into "absent": a missing object, a
denied or rate-limited request, a broken connection, text that does not parse.
`loadOrCreateManifest` bootstraps a mesh when the pointer is absent *in that sense*.
-/

namespace Interocitor

open CodeUnits OrderedRecord Interaction Eng

/-! ## Pure helpers -/

/-- `resolveManifestLineage`. -/
def resolveManifestLineage (value : Option ℤ) : ℤ :=
  match value with
  | some n => if 0 < n then n else 1
  | none => 1

/-- One day in milliseconds. -/
def dayMs : ℤ := 24 * 60 * 60 * 1000

/-- `resolveRetentionPolicy`; `none` is the `RangeError` for a duration that is not
positive. -/
def resolveRetentionPolicy (input : Option RetentionPolicyInput) : Option RetentionPolicy :=
  let compactAfterMs := (input.bind fun r => r.compactAfterMs).getD (7 * dayMs)
  let maxOfflineDurationMs := (input.bind fun r => r.maxOfflineDurationMs).getD (30 * dayMs)
  if 0 < compactAfterMs ∧ 0 < maxOfflineDurationMs then
    some ⟨compactAfterMs, maxOfflineDurationMs⟩
  else none

/-- A resolved policy as a manifest carries it. -/
def RetentionPolicy.toInput (r : RetentionPolicy) : RetentionPolicyInput :=
  ⟨some r.compactAfterMs, some r.maxOfflineDurationMs⟩

/-- `computeContentHash`. -/
def computeContentHash (payload : ManifestPayload) : Digest := .of payload

/-- `"mesh"`, `"chg"` and `"snap"`. -/
def meshKind : Text := [109, 101, 115, 104]

@[inherit_doc meshKind]
def changeKind : Text := [99, 104, 103]

@[inherit_doc meshKind]
def snapshotKind : Text := [115, 110, 97, 112]

/-- `"undefined"`, the file name that an object without `file` gives. -/
def undefinedName : Text := [117, 110, 100, 101, 102, 105, 110, 101, 100]

/-! ## Reading -/

/-- `readJson<ManifestPointer>` of the manifest pointer; `none` is a value that the condition on it
takes for false. -/
def readPointer : Eng (Option ManifestPointer) := do
  match ← readFile .manifestPointer with
  | .pointer p => pure (some p)
  | .null => pure none
  | .falsy => pure none
  | .malformed => fail .malformedJson
  | _ => pure (some ⟨0, .other undefinedName⟩)

/-- `readJsonIfExists<ManifestPointer>`. -/
def readPointerIfExists : Eng (Option ManifestPointer) := attempt readPointer fun _ => pure none

/-- `readJson<Manifest>` followed by `validateManifestHash`: anything that is not a
manifest fails one or the other. -/
def readManifest (path : ObjectPath) : Eng Manifest := do
  match ← readFile path with
  | .manifest m => pure m
  | .malformed => fail .malformedJson
  | _ => fail .contentHashMismatch

/-- `poisonRemote`. -/
def poisonRemote (error : EngineError) : Eng EngineError := do
  Proc.modify fun d =>
    if d.remotePoisonError.isNone then
      { d with remotePoisonError := some error, connected := false }
    else d
  pure error

/-- A mesh id differs from the one expected, if one is. -/
def meshConflict (expected : Option Text) (meshId : Text) : Option EngineError :=
  (truthy expected).bind fun e => if e ≠ meshId then some (.meshMismatch e meshId) else none

/-- `assertExpectedMeshId` of `codec.ts`. -/
def assertExpectedMeshId (manifest : Option Manifest) (meshId : Text) : Eng Unit := do
  let stored := (← metadata).meshId
  if meshId = [] then fail .missingMeshId
  else
    match (meshConflict (manifest.map fun m => m.meshId) meshId).or (meshConflict stored meshId) with
    | some e => fail e
    | none => setMeta fun m => { m with meshId := some meshId }

variable {meshId : Text}

theorem meshConflict_eq_none_iff {expected : Option Text} :
    meshConflict expected meshId = none ↔ ∀ e, truthy expected = some e → e = meshId := by
  rw [meshConflict]
  cases truthy expected with
  | none => simp
  | some e => by_cases h : e = meshId <;> simp [h]

/-- A mesh id is accepted if it agrees with the mesh ids that are known, and is
remembered then. -/
theorem wp_assertExpectedMeshId {W : Type} {E : Env Call Reply W} {Q : Unit → Device → W → Prop}
    {X : Failure → Device → W → Prop} {d : Device} {w : W} {manifest : Option Manifest}
    (hfail : ∀ e, X (.thrown e) d w)
    (hok : meshId ≠ [] → (∀ e, truthy (manifest.map fun m => m.meshId) = some e → e = meshId) →
      (∀ e, truthy d.store.metadata.meshId = some e → e = meshId) →
      Q () (d.withMeta fun m => { m with meshId := some meshId }) w) :
    (assertExpectedMeshId manifest meshId).wp E Q X d w := by
  rw [assertExpectedMeshId, Proc.wp_bind, wp_metadata]
  dsimp only
  split
  · exact hfail _
  · rename_i hne
    split
    · exact hfail _
    · rename_i hnone
      obtain ⟨hheld, hstored⟩ := Option.or_eq_none_iff.mp hnone
      exact hok hne (meshConflict_eq_none_iff.mp hheld) (meshConflict_eq_none_iff.mp hstored)

theorem wp_assertExpectedMeshId_accepted {W : Type} {E : Env Call Reply W}
    {Q : Unit → Device → W → Prop} {X : Failure → Device → W → Prop} {d : Device} {w : W}
    {manifest : Option Manifest} (hne : meshId ≠ [])
    (hheld : ∀ e, truthy (manifest.map fun m => m.meshId) = some e → e = meshId)
    (hstored : ∀ e, truthy d.store.metadata.meshId = some e → e = meshId)
    (h : Q () (d.withMeta fun m => { m with meshId := some meshId }) w) :
    (assertExpectedMeshId manifest meshId).wp E Q X d w := by
  rw [assertExpectedMeshId, Proc.wp_bind, wp_metadata, if_neg hne,
    Option.or_eq_none_iff.mpr ⟨meshConflict_eq_none_iff.mpr hheld,
      meshConflict_eq_none_iff.mpr hstored⟩]
  exact h

/-! ## Creating and loading -/

/-- The payload of a first manifest. -/
def bootstrapPayload (config : Config) (now : ℕ) (meshId : Text) (lineage : ℤ) :
    ManifestPayload where
  generation := 1
  parentGeneration := 0
  writtenBy := config.serverId
  writtenAt := now
  version := 3
  meshId := meshId
  schema := (config.schema.bind fun s => s.version).getD 1
  encrypted := config.encrypted
  server := ⟨config.serverManaged, config.serverId⟩
  createdAt := now
  epoch := 0
  watermarkHlc := []
  snapshotPath := none
  retention := some config.retention.toInput
  lineage := some lineage

/-- `meshId || generateId("mesh")`. -/
def meshIdOr (meshId : Option Text) : Eng Text :=
  match truthy meshId with
  | some meshId => pure meshId
  | none => generateId meshKind

/-- `createBootstrapManifest`. -/
def createBootstrapManifest (meshId : Option Text) (lineage : ℤ) : Eng Manifest := do
  let config ← Eng.config
  let now ← Eng.now
  let meshId ← meshIdOr meshId
  let payload := bootstrapPayload config now meshId lineage
  let manifest : Manifest := { payload with contentHash := computeContentHash payload }
  writeFile (.rootFile (.manifest 1)) (.manifest manifest)
  writeFile .manifestPointer (.pointer ⟨1, .manifest 1⟩)
  pure manifest

/-- The bootstrap branch of `loadOrCreateManifest`: a mesh id that the device already
knows starts a new lineage. -/
def bootstrapManifest : Eng Manifest := do
  let records ← metadata
  let nextLineage :=
    if (truthy records.meshId).isSome then resolveManifestLineage records.meshLineage + 1 else 1
  createBootstrapManifest records.meshId nextLineage

/-- The part of `loadOrCreateManifest` that validates the hash of a manifest, loaded or
created, and completes its optional fields. -/
def completedManifest (manifest : Manifest) : Except EngineError Manifest :=
  if manifest.contentHash ≠ computeContentHash manifest.toManifestPayload then
    .error .contentHashMismatch
  else
    match resolveRetentionPolicy manifest.retention with
    | none => .error .invalidRetention
    | some retention =>
      .ok
        { manifest with
          retention := some retention.toInput
          lineage := some (resolveManifestLineage manifest.lineage) }

theorem exists_completedManifest_eq {m₀ m : Manifest} (h : completedManifest m₀ = .ok m) :
    ∃ retention, resolveRetentionPolicy m₀.retention = some retention ∧
      m = { m₀ with
            retention := some retention.toInput
            lineage := some (resolveManifestLineage m₀.lineage) } := by
  rw [completedManifest] at h
  split at h
  · exact absurd h (by simp)
  · split at h
    · exact absurd h (by simp)
    · rename_i retention hretention
      exact ⟨retention, hretention, (Except.ok.inj h).symm⟩

theorem meshId_completedManifest {m₀ m : Manifest} (h : completedManifest m₀ = .ok m) :
    m.meshId = m₀.meshId := by
  obtain ⟨_, -, rfl⟩ := exists_completedManifest_eq h
  rfl

/-- The last checks of `loadOrCreateManifest`: version, schema, writer, encryption. -/
def manifestObjection (config : Config) (manifest : Manifest) : Option EngineError :=
  if manifest.version ≠ 3 then some (.unsupportedManifestVersion manifest.version)
  else
    match (config.schema.bind fun s => s.version).filter fun v => decide (manifest.schema ≠ v) with
    | some version => some (.schemaVersionMismatch version manifest.schema)
    | none =>
      if manifest.server.managed ∧ manifest.writtenBy ≠ config.serverId then
        some (.unauthorizedManifestWriter manifest.writtenBy)
      else if manifest.encrypted ≠ config.encrypted then
        some (.meshEncryptionMismatch manifest.encrypted config.encrypted)
      else none

/-- The mesh check of `loadOrCreateManifest`: a conflict poisons the remote. -/
def assertManifestMesh (manifest : Manifest) : Eng Unit := do
  let held := (← Proc.get).manifest
  attempt (assertExpectedMeshId held manifest.meshId) fun e => do fail (← poisonRemote e)

/-- What `loadOrCreateManifest` does with a manifest, loaded or created. -/
def checkManifest (assertLocalMeshId : Bool) (manifest : Manifest) : Eng Manifest :=
  match completedManifest manifest with
  | .error e => fail e
  | .ok manifest => do
    Proc.when (assertLocalMeshId = true) (assertManifestMesh manifest)
    match manifestObjection (← Eng.config) manifest with
    | some e => fail e
    | none => pure manifest

/-- The read of the pointer in `loadOrCreateManifest`. -/
def findPointer (createIfMissing : Bool) : Eng (Option ManifestPointer) :=
  if createIfMissing then readPointerIfExists else readPointer

/-- `loadOrCreateManifest`: the manifest, and whether it was created. -/
def loadOrCreateManifest (assertLocalMeshId createIfMissing : Bool) : Eng (Manifest × Bool) := do
  match ← findPointer createIfMissing with
  | some pointer =>
    let manifest ← readManifest (.rootFile pointer.file)
    pure (← checkManifest assertLocalMeshId manifest, false)
  | none =>
    let manifest ← bootstrapManifest
    pure (← checkManifest assertLocalMeshId manifest, true)

/-! ## Device records -/

/-- The options of `upsertDeviceMetadata`. -/
structure DeviceMetadataOptions where
  displayName : Option Text := none
  deviceType : Option Text := none
  observedManifestGeneration : Option ℕ := none
  observedEpoch : Option ℕ := none
  observedWatermarkHlc : Option Text := none
  bootstrap : Bool := false
  skipTouchIfUnchanged : Bool := false

/-- `readJsonIfExists<DeviceMetadata>`. -/
def readDeviceIfExists (deviceId : Text) : Eng (Option DeviceMetadata) :=
  attempt (do
    match ← readFile (.deviceFile deviceId) with
    | .device d => pure (some d)
    | .malformed => fail .malformedJson
    | _ => pure none) fun _ => pure none

/-- The record that `upsertDeviceMetadata` would write. -/
def nextDeviceMetadata (opts : DeviceMetadataOptions) (deviceId : Text) (now : ℕ)
    (existing : Option DeviceMetadata) : DeviceMetadata :=
  let touchedObserved := opts.observedManifestGeneration.isSome || opts.observedEpoch.isSome ||
    opts.observedWatermarkHlc.isSome
  { deviceId := deviceId
    registeredAt := (existing.map fun e => e.registeredAt).getD now
    lastSeenAt :=
      if opts.skipTouchIfUnchanged then (existing.map fun e => e.lastSeenAt).getD now else now
    userId := existing.bind fun e => e.userId
    name := existing.bind fun e => e.name
    displayName := opts.displayName.or (existing.bind fun e => e.displayName)
    deviceType := opts.deviceType.or (existing.bind fun e => e.deviceType)
    retired := existing.bind fun e => e.retired
    observedManifestGeneration :=
      opts.observedManifestGeneration.or (existing.bind fun e => e.observedManifestGeneration)
    observedEpoch := opts.observedEpoch.or (existing.bind fun e => e.observedEpoch)
    observedWatermarkHlc :=
      opts.observedWatermarkHlc.or (existing.bind fun e => e.observedWatermarkHlc)
    observedAt :=
      if touchedObserved then
        if opts.skipTouchIfUnchanged then
          (existing.bind fun e => e.observedAt).or (some now)
        else some now
      else existing.bind fun e => e.observedAt
    cutOffAt := existing.bind fun e => e.cutOffAt
    cutOffReason := existing.bind fun e => e.cutOffReason }

/-- The comparison that lets `upsertDeviceMetadata` skip a write although a time
stamp would change. -/
def observedChanged (existing next : DeviceMetadata) : Bool :=
  decide (existing.observedManifestGeneration ≠ next.observedManifestGeneration ∨
    existing.observedEpoch ≠ next.observedEpoch ∨
    existing.observedWatermarkHlc ≠ next.observedWatermarkHlc ∨
    existing.displayName ≠ next.displayName ∨ existing.deviceType ≠ next.deviceType ∨
    existing.retired ≠ next.retired ∨ existing.cutOffAt ≠ next.cutOffAt ∨
    existing.cutOffReason ≠ next.cutOffReason ∨ existing.userId ≠ next.userId ∨
    existing.name ≠ next.name)

/-- The record to write, or `none` when the write is skipped. -/
def deviceMetadataToWrite (opts : DeviceMetadataOptions) (existing : Option DeviceMetadata)
    (next : DeviceMetadata) : Option DeviceMetadata :=
  let touchedObserved := opts.observedManifestGeneration.isSome || opts.observedEpoch.isSome ||
    opts.observedWatermarkHlc.isSome
  match if opts.skipTouchIfUnchanged then existing else none with
  | none => some next
  | some existing =>
    if existing = next then none
    else if touchedObserved && !observedChanged existing next then none
    else some { next with lastSeenAt := existing.lastSeenAt, observedAt := existing.observedAt }

/-- The record that `upsertDeviceMetadata` starts from. -/
def existingDevice (opts : DeviceMetadataOptions) (deviceId : Text) : Eng (Option DeviceMetadata) :=
  if opts.bootstrap then pure none else readDeviceIfExists deviceId

/-- `upsertDeviceMetadata`. -/
def upsertDeviceMetadata (opts : DeviceMetadataOptions) : Eng Unit := do
  let deviceId := (← Eng.config).deviceId
  let now ← Eng.now
  let existing ← existingDevice opts deviceId
  match deviceMetadataToWrite opts existing (nextDeviceMetadata opts deviceId now existing) with
  | none => pure ()
  | some next => writeFile (.deviceFile deviceId) (.device next)

end Interocitor
