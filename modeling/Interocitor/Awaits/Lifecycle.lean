import Interocitor.Awaits.Frame

/-!
# The composite methods of an engine, await by await

`Awaits.Frame` deals with the methods that neither publish nor touch rows, queue or
receipts.  The other methods are built from a handful that do: promoting and flushing the
queue, pulling, restoring a snapshot, writing one, rebuilding the queue, and clearing the
store.  What each of these keeps, all methods of an engine keep.

* `Routine`: the handful keeps `I`.
* `keeps_compact`, `keeps_connect`, `keeps_refillEvictedMesh`: so do the methods at the top.
-/

namespace Interocitor

open CodeUnits OrderedRecord Interaction
open Proc (keeps_bind Keeps keeps_pure keeps_get keeps_when)

variable {α W : Type} {E : Env Await Answer W} {I : Memory → W → Prop}

/-- The methods that publish, or change rows, queue or receipts, keep `I`. -/
structure Routine (E : Env Await Answer W) (I : Memory → W → Prop) : Prop extends
    Ambient E I where
  flushPendingBatch : Keeps E I Aw.flushPendingBatch
  quarantine : Keeps E I Aw.quarantineExpiredOfflineWrites
  doFlush : Keeps E I Aw.doFlush
  pull : ∀ loadManifest, Keeps E I loadManifest → Keeps E I (Aw.pull loadManifest)
  compactWith : ∀ manifest hlc retention pull, Keeps E I pull →
    Keeps E I (Aw.compactWith manifest hlc retention pull)
  restoreSnapshot : ∀ manifest preserved hlc path,
    Keeps E I (Aw.restoreSnapshot manifest preserved hlc path)
  rebuildOutboxFromLocalState : Keeps E I Aw.rebuildOutboxFromLocalState
  clearAll : Keeps E I Aw.clearAll
  clearObservation : ∀ generation, Keeps E I
    (Aw.setMeta fun m => { m with changeObservation := some (.cleared generation) })

namespace Aw

/-! ## Compaction -/

section Ambient

variable (h : Ambient E I)

include h

theorem keeps_pruneSupersededSnapshots (active : ObjectPath) :
    Keeps E I (remotely none (pruneSupersededSnapshots active)) := by
  refine keeps_remotely fun n => keeps_bind ?_ fun files => ?_
  · exact Interocitor.keeps_attempt (keeps_listMainline (quiet_at h n).listMainline) fun _ =>
      keeps_pure _
  · refine Proc.keeps_forEach fun path _ =>
      Interocitor.keeps_attempt (keeps_deleteFile ?_) fun _ => keeps_pure _
    exact askKeeps_at n (h.harmless _ trivial)

/-- What `compactWith` does after it has written the snapshot. -/
theorem keeps_installManifest (next : Manifest) (covered : List Text) (snapshotPath : ObjectPath) :
    Keeps E I (do
      remotely none (Eng.writeFile (.rootFile (.manifest next.generation)) (.manifest next))
      remotely none (Eng.writeFile .manifestPointer
        (.pointer ⟨next.generation, .manifest next.generation⟩))
      setMeta fun m => { m with epoch := some next.epoch }
      remotely none (Proc.forEach covered fun name =>
        Eng.attempt (Eng.deleteFile (.change name)) fun _ => pure ())
      remotely none (pruneSupersededSnapshots snapshotPath)
      pure next : Aw Manifest) := by
  have hwrite : ∀ path content, Harmless (.writeFile path content) →
      Keeps E I (remotely none (Eng.writeFile path content)) := fun path content hc =>
    keeps_remotely fun n => keeps_writeFile (askKeeps_at n (h.harmless _ hc))
  refine keeps_bind (hwrite _ _ trivial) fun _ => ?_
  refine keeps_bind (hwrite _ _ trivial) fun _ => ?_
  refine keeps_bind (keeps_setMeta h fun _ => rfl) fun _ => ?_
  refine keeps_bind (keeps_remotely fun n => Proc.keeps_forEach fun name _ => ?_) fun _ => ?_
  · refine Interocitor.keeps_attempt (keeps_deleteFile ?_) fun _ => keeps_pure _
    exact askKeeps_at n (h.harmless _ trivial)
  · exact keeps_bind (keeps_pruneSupersededSnapshots h _) fun _ => keeps_pure _

end Ambient

/-! ## Methods at the top -/

section Routine

variable (h : Routine E I)

include h

theorem keeps_flushQueued (includePendingBatch : Bool) :
    Keeps E I (flushQueued includePendingBatch) := by
  refine keeps_bind (keeps_when h.flushPendingBatch) fun _ => ?_
  exact keeps_bind h.doFlush fun _ => keeps_pure _

theorem keeps_pullNow : Keeps E I pullNow := by
  refine keeps_bind keeps_requireAdapter fun _ => keeps_attempt ?_ fun e => ?_
  · refine keeps_bind (h.pull _ ?_) fun hlc => ?_
    · exact keeps_bind (keeps_doLoadOrCreateManifest h.toAmbient _ _) fun _ =>
        keeps_pure _
    refine keeps_bind (keeps_memory h.memory fun _ => rfl) fun _ => ?_
    refine keeps_bind keeps_get fun s => ?_
    refine keeps_bind (keeps_when (keeps_markSuccessfulRemoteSync h.toAmbient)) fun _ => ?_
    exact keeps_acknowledgeManifest h.toAmbient
  · exact keeps_bind (keeps_handleRemoteAccessError h.memory e) fun _ => keeps_fail _

theorem keeps_restoreWithRetry (manifest : Option Manifest) (preserved : PreservedMeta) (hlc : Hlc)
    (path : ObjectPath) {reloadManifest : Aw (Option Manifest)}
    (hreload : Keeps E I reloadManifest) :
    Keeps E I (restoreWithRetry manifest preserved hlc path reloadManifest) := by
  refine keeps_attempt (keeps_attempt (h.restoreSnapshot _ _ _ _) fun e => ?_) fun e =>
    keeps_poisoned h.toAmbient e
  refine keeps_bind hreload fun refreshed => ?_
  split
  · exact keeps_fail _
  · split
    · exact keeps_fail _
    · exact h.restoreSnapshot _ _ _ _

theorem keeps_rehydrateNow (preserved : PreservedMeta) : Keeps E I (rehydrateNow preserved) := by
  refine keeps_bind keeps_requireAdapter fun _ => keeps_bind ?_ fun hlc => ?_
  · refine keeps_bind keeps_get fun s => ?_
    split
    · exact keeps_bind (keeps_pullNow h) fun _ => keeps_pure _
    · refine keeps_bind (keeps_restoreWithRetry h _ _ _ _ ?_) fun hlc => ?_
      · refine keeps_bind (keeps_doLoadOrCreateManifest h.toAmbient _ _) fun _ => ?_
        exact keeps_bind keeps_get fun _ => keeps_pure _
      · exact keeps_bind (keeps_pullNow h) fun _ => keeps_pure _
  · exact keeps_bind (keeps_memory h.memory fun _ => rfl) fun _ =>
      keeps_acknowledgeManifest h.toAmbient

theorem keeps_flushAndRehydrateNow : Keeps E I flushAndRehydrateNow := by
  refine keeps_bind h.flushPendingBatch fun _ => ?_
  refine keeps_bind h.doFlush fun _ => ?_
  exact keeps_bind (keeps_preservedRetentionMeta h.toAmbient) fun preserved =>
    keeps_rehydrateNow h preserved

theorem keeps_resetExpiredClientFromRemote : Keeps E I resetExpiredClientFromRemote := by
  refine keeps_bind (keeps_preservedRetentionMeta h.toAmbient) fun preserved => ?_
  refine keeps_bind keeps_get fun s => ?_
  split
  · exact keeps_rehydrateNow h preserved
  · refine keeps_bind h.clearAll fun _ => ?_
    exact keeps_bind (keeps_writePreserved h.toAmbient preserved) fun _ =>
      keeps_pullNow h

theorem keeps_compact : Keeps E I compact := by
  refine keeps_bind (keeps_doLoadOrCreateManifest h.toAmbient _ _) fun _ => ?_
  refine keeps_bind h.quarantine fun expired => ?_
  split
  · exact keeps_resetExpiredClientFromRemote h
  refine keeps_bind h.flushPendingBatch fun _ => ?_
  refine keeps_bind h.doFlush fun _ => ?_
  refine keeps_bind keeps_requireAdapter fun _ => keeps_bind keeps_get fun s => ?_
  split
  · exact keeps_fail _
  · refine keeps_bind (keeps_remotely fun _ => keeps_compactionRetention) fun retention => ?_
    refine keeps_bind (h.compactWith _ _ _ _ (keeps_pullNow h)) fun next => ?_
    exact keeps_bind (keeps_memory h.memory fun _ => rfl) fun _ =>
      keeps_acknowledgeManifest h.toAmbient

theorem keeps_resetToMesh (meshId : Text) : Keeps E I (resetToMesh meshId) := by
  have hsetMeta : ∀ f : Metadata → Metadata,
      (∀ m, (f m).changeObservation = m.changeObservation) → Keeps E I (setMeta f) :=
    fun f hf => keeps_setMeta h.toAmbient hf
  refine keeps_bind (keeps_memory h.memory fun _ => rfl) fun _ => ?_
  refine keeps_bind (keeps_getMeta h.toAmbient _) fun generation => ?_
  refine keeps_bind h.clearAll fun _ => ?_
  refine keeps_bind (h.clearObservation _) fun _ => ?_
  refine keeps_bind (keeps_bind keeps_get fun _ => keeps_pure _) fun config => ?_
  refine keeps_bind (keeps_when (hsetMeta _ fun _ => rfl)) fun _ => ?_
  refine keeps_bind (hsetMeta _ fun _ => rfl) fun _ => ?_
  exact keeps_bind (keeps_loadLocalState h.toAmbient) fun _ =>
    keeps_memory h.memory fun _ => rfl

theorem keeps_applyJoinExistingMeshPolicy (bootstrapped : Bool) :
    Keeps E I (applyJoinExistingMeshPolicy bootstrapped) := by
  have hbind : ∀ meshId : Text,
      Keeps E I (setMeta fun m => { m with meshId := some meshId }) := fun _ =>
    keeps_setMeta h.toAmbient fun _ => rfl
  refine keeps_bind keeps_get fun s => ?_
  split
  · exact keeps_pure _
  dsimp only
  split
  · exact hbind _
  refine keeps_bind (keeps_getMeta h.toAmbient _) fun previousMeshId => ?_
  split
  · exact keeps_pure _
  refine keeps_bind (keeps_reading h.toAmbient _) fun rows => ?_
  refine keeps_bind (keeps_reading h.toAmbient _) fun queued => ?_
  split
  · exact hbind _
  · split
    · exact hbind _
    · exact keeps_resetToMesh h _

theorem keeps_synchronise (offlineRetentionExpired : Bool) :
    Keeps E I (synchronise offlineRetentionExpired) := by
  refine keeps_bind (keeps_getMeta h.toAmbient _) fun localEpoch => ?_
  refine keeps_bind keeps_get fun s => ?_
  dsimp only
  split
  · exact keeps_bind
      (keeps_connectStage h.toAmbient (keeps_resetExpiredClientFromRemote h)) fun _ =>
        keeps_pure _
  · split
    · exact keeps_bind (keeps_connectStage h.toAmbient (keeps_flushAndRehydrateNow h)) fun _ =>
        keeps_pure _
    · exact keeps_bind (keeps_connectStage h.toAmbient (keeps_pullNow h)) fun _ =>
        keeps_pure _

theorem keeps_republishAndFlush (republish flushed : Bool) :
    Keeps E I (republishAndFlush republish flushed) := by
  refine keeps_bind (keeps_when h.rebuildOutboxFromLocalState) fun _ => ?_
  split
  · refine keeps_bind (keeps_connectStage h.toAmbient (keeps_flushQueued h _)) fun stage => ?_
    split
    · exact keeps_pure _
    · exact keeps_finishConnect h.toAmbient
  · exact keeps_finishConnect h.toAmbient

theorem keeps_connectToManifest (remembered : Text × Option ℤ) (bootstrapped : Bool) :
    Keeps E I (connectToManifest remembered bootstrapped) := by
  refine keeps_bind (keeps_applyJoinExistingMeshPolicy h bootstrapped) fun _ => ?_
  refine keeps_bind (keeps_applyMeshEvictionPolicy h.toAmbient _ _) fun refill => ?_
  refine keeps_bind h.quarantine fun expired => ?_
  refine keeps_bind keeps_get fun s => ?_
  refine keeps_bind (keeps_connectStage h.toAmbient (keeps_remotely fun n =>
    keeps_upsertDeviceMetadata (quiet_at h.toAmbient n) (deviceRecords_at h.toAmbient n) _))
      fun stage => ?_
  split
  · exact keeps_pure _
  refine keeps_bind (keeps_synchronise h expired) fun flushed => ?_
  split
  · exact keeps_pure _
  · exact keeps_bind keeps_get fun s => keeps_republishAndFlush h _ _

theorem keeps_connect : Keeps E I connect := by
  refine keeps_bind keeps_get fun s => ?_
  split
  · exact keeps_pure _
  refine keeps_bind keeps_requireAdapter fun _ => ?_
  refine keeps_bind (keeps_remotely fun n =>
    keeps_authenticateStage (quiet_at h.toAmbient n) (ignoresSession_at h.memory n))
      fun authenticated => ?_
  split
  · refine keeps_bind (keeps_tryConnectFastPath h.toAmbient) fun fast => ?_
    split
    · exact keeps_pure _
    refine keeps_bind (keeps_remotely fun n =>
      keeps_ensureFolders (quiet_at h.toAmbient n) (ignoresSession_at h.memory n) _)
        fun ensured => ?_
    split
    · refine keeps_bind (keeps_rememberedMeshIdentity h.toAmbient) fun remembered => ?_
      refine keeps_bind (keeps_connectStage h.toAmbient
        (keeps_doLoadOrCreateManifest h.toAmbient _ _)) fun stage => ?_
      split
      · exact keeps_pure _
      · exact keeps_connectToManifest h _ _
    · exact keeps_pure _
  · exact keeps_pure _

theorem keeps_refillEvictedMesh : Keeps E I refillEvictedMesh := by
  refine keeps_bind (keeps_memory h.memory fun _ => rfl) fun _ => ?_
  exact keeps_bind h.rebuildOutboxFromLocalState fun _ => keeps_flushQueued h true

end Routine

end Aw

end Interocitor
