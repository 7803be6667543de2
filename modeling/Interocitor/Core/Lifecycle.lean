import Interocitor.Core.Frame

/-!
# What compacting and connecting leave alone

`Core.Frame` goes up to the replacement of the local state by a snapshot.  Here the same is
done for the methods that are built from these: the reset of an expired device, `compact`,
and the stages of `connect`.

Both `compact` and `connect` check the offline limit on the way and go on differently
afterwards, so each of them is cut at that check: `compactUnfenced` and `connectFenced` are
what follows it.

* `ConnectFrame`, `EngineFrame`: what `connect` does to the store and to the mailbox after the
  check keeps `I`, and what an engine does there at all.
* `keeps_connectFenced`, `keeps_compactUnfenced`: so do the two methods from the check on.
-/

namespace Interocitor

open CodeUnits OrderedRecord Interaction Eng
open Proc (keeps_bind keeps_pure Keeps wp_bind AskKeeps keeps_get wp_mono)

variable {α W : Type} {E : Env Call Reply W} {I : Device → W → Prop}

/-- The records that a reset of `d` keeps. -/
def preservedOf (d : Device) : PreservedMeta :=
  ⟨d.store.metadata.quarantinedOfflineChanges, d.store.metadata.offlineRetentionExpiredAt,
    d.store.metadata.lastSuccessfulSyncAt, d.store.metadata.meshId, d.store.metadata.meshLineage⟩

variable {d : Device}

@[simp] theorem wp_preservedRetentionMeta {Q : PreservedMeta → Device → W → Prop}
    {X : Failure → Device → W → Prop} {w : W} :
    preservedRetentionMeta.wp E Q X d w ↔ Q (preservedOf d) d w := Iff.rfl

/-- An id that `generateId` may give to a change. -/
def GeneratedId (E : Env Call Reply W) (id : Text) : Prop :=
  ∃ w uuid w', E.answer w .uuid uuid w' ∧ id = changeKind ++ underscore :: uuid

/-- What an engine does to its store and to the mailbox when it connects keeps `I`. -/
structure ConnectFrame (E : Env Call Reply W) (I : Device → W → Prop) : Prop extends
    PullFrame E I, FlushFrame E I where
  replaced : ∀ d₀ w₀, I d₀ w₀ → ∀ d w snapshot, I d w →
    I (d.withStore fun _ => replacedStore (preservedOf d₀) snapshot) w
  restored : ∀ d w observation epoch, I d w →
    I (d.withMeta fun m => { m with changeObservation := observation, epoch := epoch }) w
  cleared : ∀ d w, I d w →
    I (d.withStore fun _ => ⟨∅, [], none, (preservedOf d).toMetadata⟩) w
  rebuilt : ∀ d w entries count, (∀ entry ∈ entries, GeneratedId E (ChangeEntry.id entry)) →
    I d w → I { d with store := d.store.pushOutboxEntries entries, pendingCount := count } w
  connects : ∀ d w, I d w → I { d with connected := true, remoteAccessError := none } w

/-- Everything that an engine does to its store and to the mailbox keeps `I`. -/
structure EngineFrame (E : Env Call Reply W) (I : Device → W → Prop) : Prop extends
    ConnectFrame E I where
  newSnapshot : ∀ epoch serverId meshId s,
    AskKeeps E I (.writeFile (.snapshot epoch serverId) (.snapshot meshId s))
  nextManifest : ∀ file m, AskKeeps E I (.writeFile (.rootFile file) (.manifest m))
  nextPointer : ∀ p, AskKeeps E I (.writeFile .manifestPointer (.pointer p))
  deleteFile : ∀ path, AskKeeps E I (.deleteFile path)
  epoch : ∀ d w e, I d w → I (d.withMeta fun m => { m with epoch := e }) w
  nextHeld : ∀ d w m, I d w → I { d with manifest := some m } w

/-! ## Resets -/

theorem ConnectFrame.rehydrateFrame (h : ConnectFrame E I) {w : W} (hI : I d w) :
    RehydrateFrame E I (preservedOf d) where
  toPullFrame := h.toPullFrame
  replaced := h.replaced d w hI
  restored := h.restored

theorem keeps_flushQueued (h : FlushFrame E I) (includePendingBatch : Bool) :
    Keeps E I (flushQueued includePendingBatch) := by
  refine keeps_bind (Proc.keeps_when (keeps_flushPendingBatch h.promoted)) fun _ => ?_
  exact keeps_bind (keeps_doFlush h) fun _ => keeps_pure _

theorem keeps_flushAndRehydrateNow (h : ConnectFrame E I) : Keeps E I flushAndRehydrateNow := by
  refine keeps_bind (keeps_flushPendingBatch h.promoted) fun _ => ?_
  refine keeps_bind (keeps_doFlush h.toFlushFrame) fun _ => ?_
  intro d w hI
  rw [wp_bind, wp_preservedRetentionMeta]
  exact keeps_rehydrateNow (h.rehydrateFrame hI) d w hI

theorem keeps_resetExpiredClientFromRemote (h : ConnectFrame E I) :
    Keeps E I resetExpiredClientFromRemote := by
  intro d w hI
  rw [resetExpiredClientFromRemote, wp_bind, wp_preservedRetentionMeta, wp_bind, Proc.wp_get]
  split
  · exact keeps_rehydrateNow (h.rehydrateFrame hI) d w hI
  · rw [wp_bind, wp_modifyStore]
    exact keeps_pullNow h.toPullFrame _ w (h.cleared d w hI)

/-! ## Compact -/

theorem keeps_pruneSupersededSnapshots (h : EngineFrame E I) (active : ObjectPath) :
    Keeps E I (pruneSupersededSnapshots active) := by
  refine keeps_bind ?_ fun files => ?_
  · exact keeps_attempt (keeps_listMainline h.listMainline) fun _ => keeps_pure _
  · refine Proc.keeps_forEach fun path _ => ?_
    exact keeps_attempt (keeps_deleteFile (h.deleteFile _)) fun _ => keeps_pure _

theorem keeps_compactWith (h : EngineFrame E I) (manifest : Manifest) (hlc : Hlc)
    (retention : RetentionPolicy) {pull : Eng Unit} (hpull : Keeps E I pull) :
    Keeps E I (compactWith manifest hlc retention pull) := by
  refine keeps_bind keeps_config fun config => ?_
  split
  · exact keeps_fail _
  · refine keeps_bind hpull fun _ => ?_
    refine keeps_bind keeps_store fun store => ?_
    refine keeps_bind (keeps_now h.now) fun now => ?_
    refine keeps_bind (keeps_generateId h.uuid) fun snapshotId => ?_
    split
    · exact keeps_fail _
    · refine keeps_bind (keeps_writeFile (h.newSnapshot _ _ _ _)) fun _ => ?_
      refine keeps_bind (keeps_writeFile (h.nextManifest _ _)) fun _ => ?_
      refine keeps_bind (keeps_writeFile (h.nextPointer _)) fun _ => ?_
      refine keeps_bind (keeps_setMeta fun d w => h.epoch d w _) fun _ => ?_
      refine keeps_bind (Proc.keeps_forEach fun name _ => ?_) fun _ => ?_
      · exact keeps_attempt (keeps_deleteFile (h.deleteFile _)) fun _ => keeps_pure _
      · exact keeps_bind (keeps_pruneSupersededSnapshots h _) fun _ => keeps_pure _

theorem keeps_compactionRetention : Keeps E I compactionRetention := by
  refine keeps_bind keeps_config fun config => ?_
  split
  · exact keeps_pure _
  · exact keeps_activeRetentionPolicy

/-- `compact` of a device that is not fenced. -/
def compactUnfenced : Eng Unit := do
  flushPendingBatch
  let _ ← doFlush
  requireAdapter
  let d ← Proc.get
  match d.manifest with
  | none => fail .notConnected
  | some manifest =>
    let retention ← compactionRetention
    let next ← compactWith manifest d.hlc retention pullNow
    Proc.modify fun d => { d with manifest := some next }
    acknowledgeManifest

theorem compact_eq : compact = (do
    let _ ← doLoadOrCreateManifest true {}
    if ← quarantineExpiredOfflineWrites then resetExpiredClientFromRemote
    else compactUnfenced) := rfl

theorem keeps_compactUnfenced (h : EngineFrame E I) : Keeps E I compactUnfenced := by
  refine keeps_bind (keeps_flushPendingBatch h.promoted) fun _ => ?_
  refine keeps_bind (keeps_doFlush h.toFlushFrame) fun _ => ?_
  refine keeps_bind keeps_requireAdapter fun _ => keeps_bind keeps_get fun d => ?_
  split
  · exact keeps_fail _
  · refine keeps_bind keeps_compactionRetention fun retention => ?_
    refine keeps_bind (keeps_compactWith h _ _ _ (keeps_pullNow h.toPullFrame)) fun next => ?_
    refine keeps_bind (Proc.keeps_modify fun d w => h.nextHeld d w _) fun _ => ?_
    exact keeps_acknowledgeManifest h.toQuiet h.toFlushFrame.deviceRecords

/-! ## Connect -/

theorem keeps_connectStage (hs : IgnoresSession I) {m : Eng α} (hm : Keeps E I m) :
    Keeps E I (connectStage m) := by
  refine Proc.keeps_tryCatch (keeps_bind hm fun _ => keeps_pure _) fun failure => ?_
  cases failure with
  | stalled => exact keeps_pure _
  | thrown e =>
    exact keeps_bind (keeps_handleRemoteAccessError hs e) fun _ => keeps_fail _

theorem keeps_finishConnect (h : ConnectFrame E I) : Keeps E I finishConnect := by
  refine keeps_bind (Proc.keeps_modify fun d w hI => h.connects d w hI) fun _ => ?_
  exact keeps_markSuccessfulRemoteSync h.now h.toFlushFrame.syncTimes

theorem keeps_synchronise (h : ConnectFrame E I) (expired : Bool) :
    Keeps E I (synchronise expired) := by
  refine keeps_bind keeps_get fun d => ?_
  dsimp only
  split
  · exact keeps_bind (keeps_connectStage h.session (keeps_resetExpiredClientFromRemote h))
      fun _ => keeps_pure _
  · split
    · exact keeps_bind (keeps_connectStage h.session (keeps_flushAndRehydrateNow h))
        fun _ => keeps_pure _
    · exact keeps_bind (keeps_connectStage h.session (keeps_pullNow h.toPullFrame))
        fun _ => keeps_pure _

/-- An entry with one op, which is read off one of the rows. -/
def ReadOff (rows : List Row) (entry : ChangeEntry) : Prop :=
  ∃ row ∈ rows, ∃ op, rowToSyncOp row = some op ∧ entry.ops = [op]

theorem ReadOff.mono {rows rows' : List Row} {entry : ChangeEntry} (hrows : rows ⊆ rows')
    (h : ReadOff rows entry) : ReadOff rows' entry := by
  obtain ⟨row, hrow, op, hop, hops⟩ := h
  exact ⟨row, hrows hrow, op, hop, hops⟩

theorem wp_rebuildEntries (hq : Quiet E I) {w : W} (hI : I d w) (rows : List Row) :
    (rebuildEntries rows).wp E (fun entries d' w' => I d' w' ∧ d' = d ∧
      ∀ entry ∈ entries, GeneratedId E (ChangeEntry.id entry) ∧ ReadOff rows entry)
      (fun _ => I) d w := by
  induction rows generalizing w with
  | nil => exact ⟨hI, rfl, fun _ h => absurd h List.not_mem_nil⟩
  | cons row rows ih =>
    rw [rebuildEntries]
    split
    · rename_i op hlc hop _
      rw [wp_bind, wp_generateId]
      intro w₁ hr₁ uuid w₂ hans₂
      obtain ⟨hg₂, h₂⟩ := hq.uuid d w w₁ uuid w₂ hI hr₁ hans₂
      refine ⟨hg₂, ?_⟩
      rw [wp_bind, wp_now]
      intro w₃ hr₃ ts w₄ hans₄
      obtain ⟨hg₄, h₄⟩ := hq.now d w₂ w₃ ts w₄ h₂ hr₃ hans₄
      refine ⟨hg₄, ?_⟩
      rw [wp_bind, wp_config, wp_bind]
      refine wp_mono (ih h₄) ?_ fun _ _ _ hx => hx
      rintro entries d₅ w₅ ⟨h₅, rfl, hids⟩
      refine ⟨h₅, rfl, fun entry hentry => ?_⟩
      rcases List.mem_cons.mp hentry with rfl | hentry
      · exact ⟨⟨w₁, uuid, w₂, hans₂, rfl⟩, row, List.mem_cons_self, op, hop, rfl⟩
      · exact ⟨(hids entry hentry).1, (hids entry hentry).2.mono (List.subset_cons_self _ _)⟩
    · refine wp_mono (ih hI) ?_ fun _ _ _ hx => hx
      rintro entries d₁ w₁ ⟨h₁, rfl, hids⟩
      refine ⟨h₁, rfl, fun entry hentry => ?_⟩
      exact ⟨(hids entry hentry).1, (hids entry hentry).2.mono (List.subset_cons_self _ _)⟩

theorem keeps_rebuildOutboxFromLocalState (h : ConnectFrame E I) :
    Keeps E I rebuildOutboxFromLocalState := by
  intro d w hI
  rw [rebuildOutboxFromLocalState, wp_bind, wp_store, wp_bind]
  refine wp_mono (wp_rebuildEntries h.toQuiet hI _) ?_ fun _ _ _ hx => hx
  rintro entries d₁ w₁ ⟨h₁, rfl, hids⟩
  split
  · exact h₁
  · exact h.rebuilt d₁ w₁ entries _ (fun entry hentry => (hids entry hentry).1) h₁

theorem keeps_republishAndFlush (h : ConnectFrame E I) (republish flushed : Bool) :
    Keeps E I (republishAndFlush republish flushed) := by
  have hfinish := keeps_finishConnect h
  refine keeps_bind (Proc.keeps_when (keeps_rebuildOutboxFromLocalState h)) fun _ => ?_
  split
  · refine keeps_bind (keeps_connectStage h.session (keeps_flushQueued h.toFlushFrame _))
      fun result => ?_
    split
    · exact keeps_pure _
    · exact hfinish
  · exact hfinish

/-- `doConnect` after the check of the offline limit. -/
def connectFenced (bootstrapped refillEvictedMesh offlineRetentionExpired : Bool) : Eng Unit := do
  let d ← Proc.get
  match ← connectStage (upsertDeviceMetadata
      { displayName := d.config.deviceName
        deviceType := d.config.deviceType
        bootstrap := bootstrapped
        skipTouchIfUnchanged := !bootstrapped }) with
  | none => pure ()
  | some _ =>
    match ← synchronise offlineRetentionExpired with
    | none => pure ()
    | some flushed =>
      let d ← Proc.get
      let republish :=
        if d.evictedMeshAwaitingRefill then false
        else bootstrapped || (refillEvictedMesh && !offlineRetentionExpired)
      republishAndFlush republish flushed

theorem connectToManifest_eq (remembered : Text × Option ℤ) (bootstrapped : Bool) :
    connectToManifest remembered bootstrapped = (do
      applyJoinExistingMeshPolicy bootstrapped
      let refillEvictedMesh ← applyMeshEvictionPolicy bootstrapped remembered
      let offlineRetentionExpired ← quarantineExpiredOfflineWrites
      connectFenced bootstrapped refillEvictedMesh offlineRetentionExpired) := rfl

theorem keeps_connectFenced (h : ConnectFrame E I)
    (bootstrapped refillEvictedMesh offlineRetentionExpired : Bool) :
    Keeps E I (connectFenced bootstrapped refillEvictedMesh offlineRetentionExpired) := by
  refine keeps_bind keeps_get fun d => ?_
  refine keeps_bind (keeps_connectStage h.session
    (keeps_upsertDeviceMetadata h.toQuiet h.toFlushFrame.deviceRecords _)) fun result => ?_
  split
  · exact keeps_pure _
  · refine keeps_bind (keeps_synchronise h _) fun flushed => ?_
    split
    · exact keeps_pure _
    · exact keeps_bind keeps_get fun d => keeps_republishAndFlush h _ _

theorem keeps_authenticateStage (hq : Quiet E I) (hs : IgnoresSession I) :
    Keeps E I authenticateStage := by
  refine keeps_bind (Proc.keeps_ask hq.isAuthenticated) fun authenticated => ?_
  split
  · exact keeps_pure _
  · refine keeps_bind (keeps_connectStage hs ?_) fun _ => keeps_pure _
    exact keeps_bind (Proc.keeps_ask hq.authenticate) fun rep => keeps_answered rep

theorem keeps_ensureFolders (hq : Quiet E I) (hs : IgnoresSession I) (folders : List Folder) :
    Keeps E I (ensureFolders folders) := by
  induction folders with
  | nil => exact keeps_pure _
  | cons folder rest ih =>
    refine keeps_bind (keeps_connectStage hs (keeps_ensureFolder (hq.ensureFolder _)))
      fun result => ?_
    split
    · exact keeps_pure _
    · exact ih

end Interocitor
