import Interocitor.Mailbox.World

/-!
# Replacing the local state by a snapshot

`flushAndRehydrateNow` promises to publish the queue before it clears the local
store.  It calls `doFlush` for that and goes on when `doFlush` returns --- but
`doFlush` also returns, without publishing anything, while the remote session is
paused by a denied request.

* `flushAndRehydrateNow_keeps_queue_iff`: nothing that was queued is lost, in any run
  against any store, exactly if the state before the call is not `Endangered`: a paused
  session, a queued entry that is not in quarantine yet, and a manifest with a snapshot
  whose mesh the device may join.
* `paused_session_loses_a_write`: a run in which a queued write is lost.

The proof follows the two halves of the method.  `wp_doFlush_handedOver` says that a
flush that was not skipped leaves every entry published or quarantined; from there on
nothing can be lost, because the replacement keeps the quarantine.  A flush that was
skipped leaves the queue to the replacement, which takes place unless the device has
no snapshot to go to or belongs to another mesh.
-/

namespace Interocitor

open CodeUnits OrderedRecord Interaction Eng List Option
open Proc (wp_bind wp_mono wp_get wp_pure wp_modify Keeps)

/-! ## What may happen to a queued entry -/

/-- The entries in quarantine. -/
def quarantined (records : Metadata) : List ChangeEntry :=
  (records.quarantinedOfflineChanges.map fun q => q.entries).getD []

/-- The change file of an entry was written. -/
def Published (w : Mailbox) (entry : ChangeEntry) : Prop :=
  ∃ meshId, (ObjectPath.change (changeFileName entry), Content.change meshId entry) ∈ w.written

/-- Every entry of a queue is published or in quarantine. -/
def HandedOver (queue : List ChangeEntry) (d : Device) (w : Mailbox) : Prop :=
  ∀ entry ∈ queue, entry ∈ quarantined d.store.metadata ∨ Published w entry

/-- No entry of a queue is lost: each is still queued, published or in quarantine. -/
def QueueKept (queue : List ChangeEntry) (d : Device) (w : Mailbox) : Prop :=
  ∀ entry ∈ queue, entry ∈ d.store.queued ∨ entry ∈ quarantined d.store.metadata ∨
    Published w entry

/-- Entries with the same id are the same entry. -/
def DistinctIds (entries : List ChangeEntry) : Prop :=
  ∀ a ∈ entries, ∀ b ∈ entries, a.id = b.id → a = b

variable {queue : List ChangeEntry} {d : Device} {w : Mailbox}

theorem HandedOver.queueKept (h : HandedOver queue d w) : QueueKept queue d w :=
  fun e he => .inr (h e he)

theorem queueKept_of_queued (h : d.store.queued = queue) : QueueKept queue d w :=
  fun _ he => .inl (h ▸ he)

variable {entry : ChangeEntry}

theorem Published.write (h : Published w entry) (path : ObjectPath) (content : Content) :
    Published (w.write path content) entry := by
  obtain ⟨meshId, hm⟩ := h
  exact ⟨meshId, mem_append_left _ hm⟩

theorem HandedOver.write (h : HandedOver queue d w) (path : ObjectPath) (content : Content) :
    HandedOver queue d (w.write path content) :=
  fun e he => (h e he).imp_right fun hp => hp.write path content

theorem QueueKept.write (h : QueueKept queue d w) (path : ObjectPath) (content : Content) :
    QueueKept queue d (w.write path content) :=
  fun e he => (h e he).imp_right fun hp => hp.imp_right fun hp => hp.write path content

/-! ## Quarantine -/

theorem get_foldl_set_id {entries : List ChangeEntry}
    (hid : ∀ a ∈ entries, a.id = entry.id → a = entry) {r : Record Text ChangeEntry}
    (h : entry ∈ entries ∨ r.get entry.id = some entry) :
    (entries.foldl (fun r e => r.set e.id e) r).get entry.id = some entry := by
  induction entries generalizing r with
  | nil => exact h.resolve_left (not_mem_nil)
  | cons a entries ih =>
    refine ih (fun b hb => hid b (mem_cons_of_mem _ hb)) ?_
    by_cases ha : a.id = entry.id
    · obtain rfl := hid a mem_cons_self ha
      exact .inr (Record.get_set_self _ _ _)
    · rcases h with h | h
      · rcases mem_cons.mp h with rfl | h
        · exact absurd rfl ha
        · exact .inl h
      · exact .inr ((Record.get_set_ne _ _ ha).trans h)

theorem mem_quarantined_quarantineOutbox {store : LocalStore} (h : DistinctIds store.outbox)
    (now last : ℕ) (limit : ℤ) (he : entry ∈ store.outbox) :
    entry ∈ quarantined (quarantineOutbox store now last limit).metadata := by
  change entry ∈ (byId (_ ++ store.outbox)).values
  rw [Record.mem_values_iff, byId, foldl_append]
  exact ⟨entry.id, get_foldl_set_id (fun a ha hid => h a ha entry he hid) (.inl he)⟩

/-- A device beyond its offline limit has its queue in quarantine afterwards; any other
device is as it was. -/
theorem wp_quarantineExpiredOfflineWrites (hids : DistinctIds queue)
    (hqueue : d.store.queued = queue) :
    quarantineExpiredOfflineWrites.wp Mailbox.faulty
      (fun fenced d' w' => if fenced then HandedOver queue d' w' else d' = d ∧ w' = w)
      (fun _ d' w' => d' = d ∧ w' = w) d w := by
  rw [quarantineExpiredOfflineWrites, wp_bind, wp_now]
  rintro w₁ rfl now w₂ rfl
  refine ⟨trivial, ?_⟩
  rw [wp_bind]
  refine (keeps_offlineRetentionState (I := fun d' w' => d' = d ∧ w' = w₂) now).wp ⟨rfl, rfl⟩ ?_
    fun _ _ _ hx => hx
  rintro ⟨expired, last, limit⟩ d' w' ⟨rfl, rfl⟩
  split
  · rename_i last' limit' heq
    rw [wp_bind, flushPendingBatch, wp_modify, wp_bind, wp_modify, wp_pure, if_pos rfl]
    have hout : d'.promoted.store.outbox = queue := (outbox_promoted d').trans hqueue
    exact fun entry he => .inl (mem_quarantined_quarantineOutbox (hout ▸ hids) now _ _ (hout ▸ he))
  · exact ⟨rfl, rfl⟩

/-! ## Flushing -/

theorem loadFrame_queued :
    LoadFrame Mailbox.faulty fun (d' : Device) _ => d'.store.queued = queue where
  toQuiet := Mailbox.quiet_faulty
  bootstrap := .inr
    { toQuiet := Mailbox.quiet_faulty
      firstManifest := fun _ _ => Mailbox.askKeeps_writeFile fun _ _ h => h
      firstPointer := Mailbox.askKeeps_writeFile fun _ _ h => h }
  session _ _ _ _ _ _ _ h := h
  meshId _ _ _ _ h := h
  manifest _ _ _ _ h := h
  manifestCache _ _ _ h := h

/-- The loop of `flushToAdapter` publishes every entry, or leaves the queue as it was. -/
theorem wp_forEach_writeChangeFile (manifest : Option Manifest) (entries : List ChangeEntry)
    (hqueue : d.store.queued = queue) :
    (Proc.forEach entries (writeChangeFile manifest)).wp Mailbox.faulty
      (fun _ d' w' => d'.store.queued = queue ∧ ∀ entry ∈ entries, Published w' entry)
      (fun _ d' _ => d'.store.queued = queue) d w := by
  refine Proc.wp_forEach_prefix
    (J := fun front (d' : Device) w' => d'.store.queued = queue ∧ ∀ e ∈ front, Published w' e)
    (fun front entry back hl d' w' hJ => ?_) ⟨hqueue, fun _ h => absurd h not_mem_nil⟩
  rw [writeChangeFile]
  split
  · exact hJ.1
  · rename_i meshId hmesh
    rw [wp_writeFile]
    rintro w₁ rfl rep w₂ hans
    refine ⟨trivial, ?_⟩
    cases rep with
    | ok _ =>
      obtain rfl : w₂ = w'.write _ _ := hans
      refine ⟨hJ.1, fun e he => ?_⟩
      rcases mem_append.mp he with he | he
      · exact (hJ.2 e he).write _ _
      · rw [mem_singleton.mp he]
        exact ⟨meshId, mem_append_right _ mem_cons_self⟩
    | error e => cases e <;> exact hJ.1

/-- The queue is as it was, and all of it is published. -/
def AllPublished (queue : List ChangeEntry) (d : Device) (w : Mailbox) : Prop :=
  d.store.queued = queue ∧ ∀ entry ∈ queue, Published w entry

theorem askKeeps_allPublished (path : ObjectPath) (content : Content) :
    Proc.AskKeeps Mailbox.faulty (AllPublished queue) (.writeFile path content) :=
  Mailbox.askKeeps_writeFile fun _ _ h => ⟨h.1, fun e he => (h.2 e he).write path content⟩

theorem wp_flushPrimary (manifest : Option Manifest) (hqueue : d.store.queued = queue) :
    (flushPrimary manifest queue).wp Mailbox.faulty (fun _ => AllPublished queue)
      (fun _ d' _ => d'.store.queued = queue) d w := by
  rw [flushPrimary, wp_bind]
  refine (keeps_recordFlushedChanges (I := fun d' _ => d'.store.queued = queue)
    fun _ _ _ _ _ h => h).wp hqueue ?_ fun _ _ _ hx => hx
  intro _ d w hqueue
  rw [flushToAdapter, wp_bind]
  refine (keeps_ensureFolder (I := fun d' _ => d'.store.queued = queue)
    (Mailbox.quiet_faulty.ensureFolder _)).wp hqueue ?_ fun _ _ _ hx => hx
  intro _ d w hqueue
  rw [wp_bind]
  refine wp_mono (wp_forEach_writeChangeFile manifest queue hqueue) ?_ fun _ _ _ hx => hx
  intro _ d w hpub
  -- the head hint and the device record come after the change files
  have hrest : Keeps Mailbox.faulty (AllPublished queue)
      (do Proc.when (lastWrittenHlc queue ≠ []) (writeHead (lastWrittenHlc queue))
          upsertDeviceMetadata {} : Eng Unit) :=
    Proc.keeps_bind (Proc.keeps_when (keeps_writeHead Mailbox.quiet_faulty
      (fun _ => askKeeps_allPublished _ _) _)) fun _ =>
        keeps_upsertDeviceMetadata Mailbox.quiet_faulty (fun _ _ => askKeeps_allPublished _ _) _
  exact hrest.wp hpub (fun _ _ _ h => h) fun _ _ _ hx => hx.1

theorem wp_publish (hqueue : d.store.queued = queue) :
    (publish queue).wp Mailbox.faulty (fun _ => HandedOver queue) (fun _ => QueueKept queue) d w := by
  rw [publish, wp_bind, wp_get, wp_bind]
  refine wp_mono (wp_flushPrimary _ hqueue) ?_ fun _ _ _ hx => queueKept_of_queued hx
  intro _ d w hpub
  rw [wp_bind, wp_modifyStore]
  refine (keeps_markSuccessfulRemoteSync (I := HandedOver queue) Mailbox.quiet_faulty.now
    fun _ _ _ h => h).wp ?_ (fun _ _ _ h => h) fun _ _ _ hx => hx.queueKept
  exact fun e he => .inr (hpub.2 e he)

/-- `doFlush` hands every queued entry over, unless it is skipped: without an adapter,
or while the session is paused. -/
theorem wp_doFlush_handedOver (hids : DistinctIds d.store.outbox)
    (hpending : d.store.pendingBatch = none) :
    doFlush.wp Mailbox.faulty
      (fun _ d' w' => HandedOver d.store.outbox d' w' ∨
        d' = d ∧ (d.adapter = false ∨ d.remoteAccessError.isSome = true))
      (fun _ => QueueKept d.store.outbox) d w := by
  have hqueue : d.store.queued = d.store.outbox := by
    rw [LocalStore.queued, hpending, toList_none, append_nil]
  rw [doFlush, wp_bind, wp_get]
  split
  · rename_i hskip
    exact .inr ⟨rfl, hskip⟩
  · dsimp only
    split
    · rename_i hempty
      rw [wp_bind, wp_modify, wp_pure]
      rw [List.isEmpty_iff] at hempty
      exact .inl fun e he => absurd he (by rw [hempty]; exact not_mem_nil)
    · rw [wp_bind]
      refine (keeps_doLoadOrCreateManifest loadFrame_queued true {}).wp hqueue ?_
        fun _ _ _ hx => queueKept_of_queued hx
      intro _ d₁ w₁ hqueue₁
      rw [wp_bind]
      refine wp_mono (wp_quarantineExpiredOfflineWrites hids hqueue₁) ?_ ?_
      · intro fenced d₂ w₂ hq
        cases fenced with
        | true =>
          rw [if_pos rfl, wp_pure]
          exact .inl hq
        | false =>
          obtain ⟨rfl, rfl⟩ := hq
          rw [if_neg Bool.false_ne_true, wp_bind, wp_modify, wp_bind, wp_attempt]
          refine wp_mono (wp_publish hqueue₁) (fun _ _ _ h => .inl h) ?_
          intro failure d₃ w₃ hkept
          cases failure with
          | stalled => exact hkept
          | thrown e =>
            dsimp only
            rw [wp_bind]
            refine (keeps_handleRemoteAccessError (I := QueueKept d.store.outbox)
              (fun _ _ _ _ _ _ _ h => h) e).wp hkept ?_ fun _ _ _ hx => hx
            exact fun _ _ _ h => h
      · rintro _ d₂ w₂ ⟨rfl, rfl⟩
        exact queueKept_of_queued hqueue₁

/-! ## Replacing what is handed over -/

/-- From a state in which everything is handed over, a replacement that preserves the
quarantine loses nothing. -/
theorem rehydrateFrame_handedOver (preserved : PreservedMeta) :
    RehydrateFrame Mailbox.faulty (fun d' w' =>
      d'.store.metadata.quarantinedOfflineChanges = preserved.quarantinedOfflineChanges ∧
        HandedOver queue d' w') preserved where
  toQuiet := Mailbox.quiet_faulty
  bootstrap := .inr
    { toQuiet := Mailbox.quiet_faulty
      firstManifest := fun _ _ => Mailbox.askKeeps_writeFile fun _ _ h => ⟨h.1, h.2.write _ _⟩
      firstPointer := Mailbox.askKeeps_writeFile fun _ _ h => ⟨h.1, h.2.write _ _⟩ }
  deviceRecords _ _ := Mailbox.askKeeps_writeFile fun _ _ h => ⟨h.1, h.2.write _ _⟩
  session _ _ _ _ _ _ _ h := h
  meshId _ _ _ _ h := h
  manifest _ _ _ _ h := h
  manifestCache _ _ _ h := h
  merged _ _ _ _ _ _ hmerge h := by
    obtain ⟨rows, rfl⟩ := exists_mergeEntry_eq hmerge
    exact h
  progress _ _ _ _ h := h
  clock _ _ _ h := h
  syncTimes _ _ _ h := h
  restored _ _ _ _ h := h
  replaced d w snapshot h := by
    have hmeta := metadata_replacedStore preserved snapshot
    refine ⟨congrArg Metadata.quarantinedOfflineChanges hmeta, fun e he => ?_⟩
    refine (h.2 e he).imp_left fun hq => ?_
    change e ∈ quarantined (replacedStore preserved snapshot).metadata
    rw [quarantined, hmeta]
    rwa [quarantined, h.1] at hq

/-! ## A replacement that does not take place -/

theorem pullFrame_queueKept : PullFrame Mailbox.faulty (QueueKept queue) where
  toQuiet := Mailbox.quiet_faulty
  bootstrap := .inr
    { toQuiet := Mailbox.quiet_faulty
      firstManifest := fun _ _ => Mailbox.askKeeps_writeFile fun _ _ h => h.write _ _
      firstPointer := Mailbox.askKeeps_writeFile fun _ _ h => h.write _ _ }
  deviceRecords _ _ := Mailbox.askKeeps_writeFile fun _ _ h => h.write _ _
  session _ _ _ _ _ _ _ h := h
  meshId _ _ _ _ h := h
  manifest _ _ _ _ h := h
  manifestCache _ _ _ h := h
  merged _ _ _ _ _ _ hmerge h := by
    obtain ⟨rows, rfl⟩ := exists_mergeEntry_eq hmerge
    exact h
  progress _ _ _ _ h := h
  clock _ _ _ h := h
  syncTimes _ _ _ h := h

/-- The mesh of a manifest is not the mesh that the device remembers. -/
def OtherMesh (manifest : Option Manifest) (records : Metadata) : Prop :=
  ∃ held stored, truthy (manifest.map fun m => m.meshId) = some held ∧
    truthy records.meshId = some stored ∧ held ≠ stored

/-- The queue is kept by a device that holds `manifest` and remembers another mesh. -/
def KeptElsewhere (queue : List ChangeEntry) (manifest : Option Manifest) (d : Device)
    (w : Mailbox) : Prop :=
  QueueKept queue d w ∧ d.manifest = manifest ∧ OtherMesh manifest d.store.metadata

variable {manifest : Option Manifest}

theorem wp_assertExpectedMeshId_otherMesh (h : KeptElsewhere queue manifest d w) (meshId : Text) :
    (assertExpectedMeshId manifest meshId).wp Mailbox.faulty (fun _ _ _ => False)
      (fun _ => KeptElsewhere queue manifest) d w := by
  refine wp_assertExpectedMeshId (fun _ => h) fun _ hheld hstored => ?_
  obtain ⟨held, stored, hh, hs, hne⟩ := h.2.2
  exact hne ((hheld held hh).trans (hstored stored hs).symm)

theorem ignoresSession_keptElsewhere : IgnoresSession (KeptElsewhere queue manifest) :=
  fun _ _ _ _ _ _ _ h => h

theorem wp_checkManifest_otherMesh (h : KeptElsewhere queue manifest d w) (loaded : Manifest) :
    (checkManifest true loaded).wp Mailbox.faulty (fun _ _ _ => False)
      (fun _ => KeptElsewhere queue manifest) d w := by
  rw [checkManifest]
  split
  · exact h
  · rw [wp_bind, Proc.wp_when]
    refine ⟨fun _ => ?_, fun hn => absurd rfl hn⟩
    rw [assertManifestMesh, wp_bind, wp_get, wp_attempt, h.2.1]
    refine wp_mono (wp_assertExpectedMeshId_otherMesh h _) (fun _ _ _ hq => hq.elim) ?_
    intro failure d w hx
    cases failure with
    | stalled => exact hx
    | thrown e => exact wp_poisoned ignoresSession_keptElsewhere hx e

theorem wp_loadOrCreateManifest_otherMesh (h : KeptElsewhere queue manifest d w) :
    (loadOrCreateManifest true true).wp Mailbox.faulty (fun _ _ _ => False)
      (fun _ => KeptElsewhere queue manifest) d w := by
  have hframe : BootstrapFrame Mailbox.faulty (KeptElsewhere queue manifest) :=
    { toQuiet := Mailbox.quiet_faulty
      firstManifest := fun _ _ => Mailbox.askKeeps_writeFile fun _ _ h => ⟨h.1.write _ _, h.2⟩
      firstPointer := Mailbox.askKeeps_writeFile fun _ _ h => ⟨h.1.write _ _, h.2⟩ }
  rw [loadOrCreateManifest, wp_bind]
  refine (keeps_findPointer hframe.toQuiet true).wp h ?_ fun _ _ _ hx => hx
  intro pointer d w h
  split
  · rw [wp_bind]
    refine (keeps_readManifest (hframe.readFile _)).wp h ?_ fun _ _ _ hx => hx
    intro loaded d w h
    rw [wp_bind]
    exact wp_mono (wp_checkManifest_otherMesh h loaded) (fun _ _ _ hq => hq.elim) fun _ _ _ hx => hx
  · rw [wp_bind]
    refine (keeps_bootstrapManifest hframe).wp h ?_ fun _ _ _ hx => hx
    intro created d w h
    rw [wp_bind]
    exact wp_mono (wp_checkManifest_otherMesh h created) (fun _ _ _ hq => hq.elim)
      fun _ _ _ hx => hx

theorem wp_restoreSnapshot_otherMesh (h : KeptElsewhere queue manifest d w)
    (preserved : PreservedMeta) (hlc : Hlc) (path : ObjectPath) :
    (restoreSnapshot manifest preserved hlc path).wp Mailbox.faulty (fun _ _ _ => False)
      (fun _ => KeptElsewhere queue manifest) d w := by
  rw [restoreSnapshot, wp_bind]
  refine (keeps_readFile (Mailbox.quiet_faulty.readFile path)).wp h ?_ fun _ _ _ hx => hx
  intro content d w h
  rw [wp_bind]
  unfold decodeSnapshotPayload
  split
  · rw [wp_bind]
    exact wp_mono (wp_assertExpectedMeshId_otherMesh h _) (fun _ _ _ hq => hq.elim)
      fun _ _ _ hx => hx
  · exact h
  · exact h

theorem wp_restoreWithRetry_otherMesh (h : KeptElsewhere queue manifest d w)
    (preserved : PreservedMeta) (hlc : Hlc) (path : ObjectPath) :
    (restoreWithRetry manifest preserved hlc path (do
      let _ ← doLoadOrCreateManifest true {}
      pure (← Proc.get).manifest)).wp Mailbox.faulty (fun _ _ _ => False)
      (fun _ => KeptElsewhere queue manifest) d w := by
  rw [restoreWithRetry, wp_attempt, wp_attempt]
  refine wp_mono (wp_restoreSnapshot_otherMesh h _ _ _) (fun _ _ _ hq => hq.elim) ?_
  intro failure d w h
  cases failure with
  | stalled => exact h
  | thrown e =>
    dsimp only
    rw [wp_bind, wp_bind, doLoadOrCreateManifest, wp_bind, wp_get, if_neg (by simp), wp_bind]
    refine wp_requireAdapter_of ?_ (wp_poisoned ignoresSession_keptElsewhere h)
    rw [wp_bind]
    refine wp_mono (wp_loadOrCreateManifest_otherMesh h) (fun _ _ _ hq => hq.elim) ?_
    intro failure d w h
    cases failure with
    | stalled => exact h
    | thrown e => exact wp_poisoned ignoresSession_keptElsewhere h e

/-- A device without a snapshot to go to, or of another mesh, keeps its queue. -/
theorem wp_rehydrateNow_queueKept (hkept : QueueKept queue d w)
    (h : (d.manifest.bind fun m => m.snapshotPath) = none ∨ OtherMesh d.manifest d.store.metadata)
    (preserved : PreservedMeta) :
    (rehydrateNow preserved).wp Mailbox.faulty (fun _ => QueueKept queue)
      (fun _ => QueueKept queue) d w := by
  have hack : ∀ hlc : Hlc, Keeps Mailbox.faulty (QueueKept queue)
      (do Proc.modify fun d => { d with hlc := hlc }
          acknowledgeManifest : Eng Unit) := fun hlc =>
    Proc.keeps_bind (Proc.keeps_modify fun _ _ h => h) fun _ =>
      keeps_acknowledgeManifest Mailbox.quiet_faulty pullFrame_queueKept.deviceRecords
  rw [rehydrateNow, wp_bind]
  refine wp_requireAdapter_of ?_ fun _ => hkept
  rw [wp_bind, rehydrate, wp_bind, wp_get]
  split
  · rw [wp_bind]
    refine (keeps_pullNow pullFrame_queueKept).wp hkept ?_ fun _ _ _ hx => hx
    exact fun _ d' w' hk => hack d.hlc d' w' hk
  · rename_i path hpath
    have hother := h.resolve_left (by rw [hpath]; exact some_ne_none _)
    rw [wp_bind]
    exact wp_mono (wp_restoreWithRetry_otherMesh ⟨hkept, rfl, hother⟩ _ _ _)
      (fun _ _ _ hq => hq.elim) fun _ _ _ hx => hx.1

theorem wp_rehydrateNow_handedOver (h : HandedOver queue d w) {preserved : PreservedMeta}
    (hpreserved : d.store.metadata.quarantinedOfflineChanges =
      preserved.quarantinedOfflineChanges) :
    (rehydrateNow preserved).wp Mailbox.faulty (fun _ => QueueKept queue)
      (fun _ => QueueKept queue) d w :=
  (keeps_rehydrateNow (rehydrateFrame_handedOver preserved)).wp ⟨hpreserved, h⟩
    (fun _ _ _ hI => hI.2.queueKept) fun _ _ _ hI => hI.2.queueKept

/-! ## The exact condition -/

/-- The state in which a replacement can lose a queued entry. -/
structure Endangered (d : Device) : Prop where
  adapter : d.adapter = true
  notPoisoned : d.remotePoisonError = none
  paused : d.remoteAccessError.isSome = true
  snapshot : ∃ path, (d.manifest.bind fun m => m.snapshotPath) = some path
  sameMesh : ¬OtherMesh d.manifest d.store.metadata
  queued : ∃ entry ∈ d.store.queued, entry ∉ quarantined d.store.metadata

theorem wp_flushAndRehydrateNow_queueKept (hids : DistinctIds d.store.queued)
    (h : ¬Endangered d) :
    flushAndRehydrateNow.wp Mailbox.faulty (fun _ => QueueKept d.store.queued)
      (fun _ => QueueKept d.store.queued) d w := by
  rw [flushAndRehydrateNow, wp_bind, flushPendingBatch, wp_modify, wp_bind]
  have hflush := wp_doFlush_handedOver (d := d.promoted) (w := w)
    (by rwa [outbox_promoted]) (pendingBatch_promoted d)
  rw [outbox_promoted] at hflush
  refine wp_mono hflush ?_ fun _ _ _ hx => hx
  intro _ d' w' hpost
  rw [wp_bind, preservedRetentionMeta, wp_bind, wp_metadata, wp_pure]
  rcases hpost with hover | ⟨rfl, hskip⟩
  · exact wp_rehydrateNow_handedOver hover rfl
  · have hqueued : QueueKept d.store.queued d.promoted w' :=
      queueKept_of_queued (queued_promoted d)
    rw [promoted_eq] at hskip
    by_cases hready : d.adapter = true ∧ d.remotePoisonError = none
    · by_cases hq : ∃ entry ∈ d.store.queued, entry ∉ quarantined d.store.metadata
      · refine wp_rehydrateNow_queueKept hqueued ?_ _
        rw [promoted_eq]
        by_contra hnot
        obtain ⟨hpath, hother⟩ := not_or.mp hnot
        exact h
          { adapter := hready.1
            notPoisoned := hready.2
            paused := hskip.resolve_left (by rw [hready.1]; exact Bool.noConfusion)
            snapshot := ne_none_iff_exists'.mp hpath
            sameMesh := hother
            queued := hq }
      · refine wp_rehydrateNow_handedOver (fun e he => .inl ?_) rfl
        rw [promoted_eq]
        by_contra hnot
        exact hq ⟨e, he, hnot⟩
    · -- `requireAdapter` throws before the store is cleared
      have hnot : ¬(d.promoted.adapter = true ∧ d.promoted.remotePoisonError = none) := by
        rwa [promoted_eq]
      rw [rehydrateNow, wp_bind, wp_requireAdapter]
      split
      · exact hqueued
      · rename_i hpoison
        rw [if_pos (Bool.not_eq_true _ ▸ fun hadapter => hnot ⟨hadapter, hpoison⟩)]
        exact hqueued

/-! ## The run that loses an entry -/

/-- An entry is neither queued nor in quarantine nor published. -/
def Lost (entry : ChangeEntry) (d : Device) (w : Mailbox) : Prop :=
  entry ∉ d.store.queued ∧ entry ∉ quarantined d.store.metadata ∧ ¬Published w entry

variable {entry : ChangeEntry} {path : ObjectPath}

theorem Lost.write (h : Lost entry d w) {content : Content} (hpath : path.changeName = none) :
    Lost entry d (w.write path content) := by
  refine ⟨h.1, h.2.1, fun ⟨meshId, hm⟩ => ?_⟩
  rcases mem_append.mp hm with hm | hm
  · exact h.2.2 ⟨meshId, hm⟩
  · obtain rfl : ObjectPath.change _ = path := congrArg Prod.fst (mem_singleton.mp hm)
    exact absurd hpath (some_ne_none _)

theorem pullFrame_lost : PullFrame Mailbox.faulty (Lost entry) where
  toQuiet := Mailbox.quiet_faulty
  bootstrap := .inr
    { toQuiet := Mailbox.quiet_faulty
      firstManifest := fun _ _ => Mailbox.askKeeps_writeFile fun _ _ h => h.write rfl
      firstPointer := Mailbox.askKeeps_writeFile fun _ _ h => h.write rfl }
  deviceRecords _ _ := Mailbox.askKeeps_writeFile fun _ _ h => h.write rfl
  session _ _ _ _ _ _ _ h := h
  meshId _ _ _ _ h := h
  manifest _ _ _ _ h := h
  manifestCache _ _ _ h := h
  merged _ _ _ _ _ _ hmerge h := by
    obtain ⟨rows, rfl⟩ := exists_mergeEntry_eq hmerge
    exact h
  progress _ _ _ _ h := h
  clock _ _ _ h := h
  syncTimes _ _ _ h := h

/-- A mesh id that a device accepts, if its manifest is of the mesh it remembers. -/
def acceptedMeshId (manifest : Option Manifest) (records : Metadata) : Text :=
  ((truthy (manifest.map fun m => m.meshId)).or (truthy records.meshId)).getD meshKind

/-- An empty snapshot. -/
def emptySnapshot : Snapshot := ⟨[], 0, [], 0, 0, none, ∅⟩

/-- A store that holds the snapshot a device asks for, and nothing else. -/
def snapshotOnly (path : ObjectPath) (meshId : Text) : Mailbox :=
  ⟨Record.set ∅ path (.snapshot meshId emptySnapshot), []⟩

theorem acceptedMeshId_ne_nil (manifest : Option Manifest) (records : Metadata) :
    acceptedMeshId manifest records ≠ [] := by
  rw [acceptedMeshId]
  cases hm : truthy (manifest.map fun m => m.meshId) with
  | some e => exact (truthy_eq_some hm).2
  | none =>
    cases hs : truthy records.meshId with
    | some e => exact (truthy_eq_some hs).2
    | none => decide

theorem eq_acceptedMeshId (h : ¬OtherMesh manifest d.store.metadata) :
    (∀ e, truthy (manifest.map fun m => m.meshId) = some e →
      e = acceptedMeshId manifest d.store.metadata) ∧
    ∀ e, truthy d.store.metadata.meshId = some e →
      e = acceptedMeshId manifest d.store.metadata := by
  constructor
  · intro e he
    rw [acceptedMeshId, he, some_or, getD_some]
  · intro e he
    cases hm : truthy (manifest.map fun m => m.meshId) with
    | none => rw [acceptedMeshId, hm, he, none_or, getD_some]
    | some held =>
      rw [acceptedMeshId, hm, some_or, getD_some]
      by_contra hne
      exact h ⟨held, e, hm, he, fun heq => hne heq.symm⟩

theorem wp_restoreWithRetry_lost (hq : entry ∉ quarantined d.store.metadata)
    (hmesh : ¬OtherMesh d.manifest d.store.metadata) (preserved : PreservedMeta)
    (hpreserved : d.store.metadata.quarantinedOfflineChanges = preserved.quarantinedOfflineChanges)
    (hlc : Hlc) (reload : Eng (Option Manifest)) :
    (restoreWithRetry d.manifest preserved hlc path reload).wp
      (Env.ofReply (Mailbox.reply 0 fun _ => none)) (fun _ => Lost entry) (fun _ _ _ => False) d
      (snapshotOnly path (acceptedMeshId d.manifest d.store.metadata)) := by
  obtain ⟨hheld, hstored⟩ := eq_acceptedMeshId hmesh
  rw [restoreWithRetry, wp_attempt, wp_attempt, restoreSnapshot, wp_bind, wp_readFile]
  rintro w₁ rfl rep w₂ heq
  have hrep : rep = .ok (.snapshot (acceptedMeshId d.manifest d.store.metadata) emptySnapshot) ∧
      w₂ = snapshotOnly path (acceptedMeshId d.manifest d.store.metadata) := by
    obtain ⟨rfl, rfl⟩ := Prod.mk.inj heq
    simp [snapshotOnly]
  obtain ⟨rfl, rfl⟩ := hrep
  refine ⟨trivial, ?_⟩
  change (_ >>= _ : Eng _).wp _ _ _ _ _
  rw [wp_bind, decodeSnapshotPayload, wp_bind]
  refine wp_assertExpectedMeshId_accepted (acceptedMeshId_ne_nil _ _) hheld hstored ?_
  change (_ >>= _ : Eng _).wp _ _ _ _ _
  rw [wp_bind, wp_get, wp_bind, wp_modifyStore]
  change (_ >>= _ : Eng _).wp _ _ _ _ _
  rw [wp_bind, wp_setMeta, wp_pure]
  refine ⟨not_mem_nil, ?_, ?_⟩
  · rw [quarantined, hpreserved] at hq
    exact hq
  · rintro ⟨meshId, hm⟩
    exact absurd hm not_mem_nil

/-- A paused device that goes on to the snapshot of its mesh loses what it has queued. -/
theorem wp_flushAndRehydrateNow_lost (h : Endangered d) (hq : entry ∉ quarantined d.store.metadata)
    (hpath : (d.manifest.bind fun m => m.snapshotPath) = some path) :
    flushAndRehydrateNow.wp (Env.ofReply (Mailbox.reply 0 fun _ => none)) (fun _ => Lost entry)
      (fun _ => Lost entry) d
      (snapshotOnly path (acceptedMeshId d.manifest d.store.metadata)) := by
  have hadapter : d.promoted.adapter = true := by rw [promoted_eq]; exact h.adapter
  have hpoison : d.promoted.remotePoisonError = none := by
    rw [promoted_eq]
    exact h.notPoisoned
  have hpaused : d.promoted.remoteAccessError.isSome = true := by rw [promoted_eq]; exact h.paused
  have hmanifest : d.promoted.manifest = d.manifest := by rw [promoted_eq]
  have hrecords : d.promoted.store.metadata = d.store.metadata := by rw [promoted_eq]
  have hmesh := h.sameMesh
  rw [← hmanifest, ← hrecords] at hmesh ⊢
  rw [← hmanifest] at hpath
  rw [← hrecords] at hq
  rw [flushAndRehydrateNow, wp_bind, flushPendingBatch, wp_modify, wp_bind,
    doFlush, wp_bind, wp_get, if_pos (.inr hpaused), wp_pure, wp_bind,
    preservedRetentionMeta, wp_bind, wp_metadata, wp_pure, rehydrateNow, wp_bind,
    wp_requireAdapter_ready hadapter hpoison, wp_bind, rehydrate, wp_bind, wp_get,
    hpath]
  dsimp only
  rw [wp_bind]
  refine wp_mono (wp_restoreWithRetry_lost hq hmesh _ rfl _ _) ?_ fun _ _ _ hx => hx.elim
  intro hlc d' w' hlost
  rw [wp_bind]
  refine ((keeps_pullNow pullFrame_lost).ofReply (fun _ => rfl)
    (Mailbox.truthful_reply (by simp))).wp hlost ?_ fun _ _ _ hx => hx
  intro _ d' w' hlost
  rw [wp_pure, wp_bind, wp_modify]
  exact (keeps_acknowledgeManifest Mailbox.quiet_faulty pullFrame_lost.deviceRecords).ofReply
    (fun _ => rfl) (Mailbox.truthful_reply (by simp)) _ _ hlost

/-- **When a replacement discards unpublished work.**  For every state of an engine, no
entry that is queued when `flushAndRehydrateNow` is called is lost in any run against
any store --- each is still queued, or in quarantine, or published --- exactly if the
state is not endangered. -/
theorem flushAndRehydrateNow_keeps_queue_iff (d : Device) (hids : DistinctIds d.store.queued) :
    (∀ w r d' w', Prog.Run Mailbox.faulty (flushAndRehydrateNow d) w r d' w' →
      QueueKept d.store.queued d' w') ↔ ¬Endangered d := by
  constructor
  · intro hall h
    obtain ⟨path, hpath⟩ := h.snapshot
    obtain ⟨entry, he, hq⟩ := h.queued
    obtain ⟨r, d', w', hrun, hlost⟩ := Proc.exists_run_ends (E := Mailbox.faulty)
      (P := Lost entry) (fun _ => rfl) (Mailbox.truthful_reply (by simp))
      (wp_flushAndRehydrateNow_lost h hq hpath)
    rcases hall _ r d' w' hrun entry he with hqueued | hquarantined | hpublished
    · exact hlost.1 hqueued
    · exact hlost.2.1 hquarantined
    · exact hlost.2.2 hpublished
  · intro h w r d' w' hrun
    exact Proc.wp_run_ends (wp_flushAndRehydrateNow_queueKept hids h) hrun

/-! ## A paused device with one queued write -/

/-- The stamp of the write. -/
def pausedStamp : Text := hlcSerialize (hlcInit 5 [97])

/-- A delete that waits in the outbox. -/
def pausedWrite : ChangeEntry :=
  ⟨changeKind ++ [underscore, 49], 5, [97], pausedStamp, [.delete [116] [49] pausedStamp]⟩

/-- The manifest that names the first snapshot of a mesh. -/
def firstCompaction : Manifest :=
  let payload : ManifestPayload :=
    { bootstrapPayload (defaultConfig [97]) 0 meshKind 1 with
      generation := 2
      parentGeneration := 1
      epoch := 1
      snapshotPath := some (.snapshot 1 defaultServerId) }
  { payload with contentHash := computeContentHash payload }

/-- A device whose session was refused after it had learned of the compaction. -/
def pausedDevice : Device :=
  { openEngine (defaultConfig [97]) 5
      { LocalStore.empty with
        outbox := [pausedWrite]
        metadata := { Metadata.empty with meshId := some meshKind } } with
    manifest := some firstCompaction
    remoteAccessError := some .unauthenticated }

theorem endangered_pausedDevice : Endangered pausedDevice where
  adapter := rfl
  notPoisoned := rfl
  paused := rfl
  snapshot := ⟨_, rfl⟩
  sameMesh := by
    rintro ⟨held, stored, hheld, hstored, hne⟩
    exact hne (some.inj (hheld.symm.trans hstored))
  queued := ⟨pausedWrite, mem_cons_self, not_mem_nil⟩

theorem distinctIds_pausedDevice : DistinctIds pausedDevice.store.queued := by
  intro a ha b hb _
  rw [mem_singleton.mp ha, mem_singleton.mp hb]

/-- **A paused session loses a write.**  A device that was refused access, with one write
in its outbox, replaces its state by a snapshot; the write was never published and is
neither queued nor in quarantine afterwards. -/
theorem paused_session_loses_a_write :
    pausedWrite ∈ pausedDevice.store.queued ∧
      ∃ w r d' w', Prog.Run Mailbox.faulty (flushAndRehydrateNow pausedDevice) w r d' w' ∧
        Lost pausedWrite d' w' := by
  refine ⟨mem_cons_self, snapshotOnly (.snapshot 1 defaultServerId) meshKind, ?_⟩
  exact Proc.exists_run_ends (E := Mailbox.faulty) (fun _ => rfl)
    (Mailbox.truthful_reply (by simp))
    (wp_flushAndRehydrateNow_lost (d := pausedDevice) endangered_pausedDevice not_mem_nil rfl)

/-- The condition at the paused device. -/
theorem pausedDevice_keeps_queue_iff :
    DistinctIds pausedDevice.store.queued ∧ Endangered pausedDevice ∧
      ((∀ w r d' w', Prog.Run Mailbox.faulty (flushAndRehydrateNow pausedDevice) w r d' w' →
        QueueKept pausedDevice.store.queued d' w') ↔ ¬Endangered pausedDevice) :=
  ⟨distinctIds_pausedDevice, endangered_pausedDevice,
    flushAndRehydrateNow_keeps_queue_iff pausedDevice distinctIds_pausedDevice⟩

end Interocitor
