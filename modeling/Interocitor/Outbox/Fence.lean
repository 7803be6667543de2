import Interocitor.Core.Lifecycle
import Interocitor.Mailbox.Replacement

/-!
# The offline fence

A device that was away for longer than the mesh allows must not publish what it queued in
the meantime: its queue goes into quarantine and stays there for somebody to look at.
`flush`, `compact` and `connect` check the time since the last successful sync before they
publish anything.

`pull` does not check it, but a connected engine records a successful sync at the end of
every pull.  A device that wakes up after the limit and pulls before it flushes has
forgotten how long it was away.

A run here is a sequence of calls on one engine, with moments in between at which somebody
looks at the clock; while a call is under way nobody does.  Entries are followed by their ids,
which a batch keeps while it grows.
The state remembers which of them were queued at a moment beyond the limit, and what was in
quarantine when it was cleared.

* `fence_holds`: in every run in which no connected engine pulls while its queue is beyond
  the limit, and neither the clock nor a manifest brings such a queue back within it, no
  overdue entry is published, each stays queued until it is in quarantine, and the
  quarantine loses nothing.
* `pull_lifts_the_fence`: a run in which a pull comes first and the flush publishes.
-/

namespace Interocitor

open CodeUnits OrderedRecord Interaction Eng List Option
open Proc (wp_bind keeps_bind keeps_pure Keeps wp_mono wp_get wp_modify keeps_get wp_pure
  keeps_modify wp_when)

/-! ## Queues, quarantine and the limit -/

/-- The ids of the entries that wait to be published. -/
def queuedIds (d : Device) : List Text := d.store.queued.map ChangeEntry.id

/-- The ids of the entries in quarantine. -/
def quarantinedIds (d : Device) : List Text :=
  (quarantined d.store.metadata).map ChangeEntry.id

/-- The offline limit in force. -/
def limitOf (d : Device) : Option ℤ :=
  (resolveRetentionPolicy
    ((d.manifest.bind fun m => m.retention).or (some d.config.retention.toInput))).map
      fun policy => policy.maxOfflineDurationMs

/-- More than the limit has passed since the last successful sync. -/
def Overdue (d : Device) (now : ℕ) : Prop :=
  ∃ last limit, d.store.metadata.lastSuccessfulSyncAt = some last ∧ limitOf d = some limit ∧
    limit < (now : ℤ) - last

/-! ## Runs -/

/-- The calls on an engine. -/
inductive FenceAct where
  | put (table rowId : Text) (columns : List (Text × JsValue))
  | delete (table rowId : Text)
  | beginBatch
  | endBatch
  | batchTimer
  | flush (includePendingBatch : Bool)
  | pull
  | compact
  | connect
  | clearQuarantinedOfflineChanges

/-- The method of a call.  `batch` opens a batch, runs its writes and closes it. -/
def FenceAct.method : FenceAct → Eng Unit
  | put table rowId columns => do let _ ← putNow table rowId columns
  | delete table rowId => do let _ ← deleteNow table rowId
  | beginBatch => Proc.modify fun d => { d with batchDepth := d.batchDepth + 1 }
  | endBatch => do
    Proc.modify fun d => { d with batchDepth := d.batchDepth - 1 }
    let d ← Proc.get
    Proc.when (d.batchDepth = 0) flushPendingBatch
  | batchTimer => flushPendingBatch
  | flush includePendingBatch => flushQueued includePendingBatch
  | pull => pullNow
  | compact => Interocitor.compact
  | connect => Interocitor.connect
  | clearQuarantinedOfflineChanges =>
    setMeta fun m => { m with quarantinedOfflineChanges := none }

/-- An engine, the ids that were queued beyond the limit, the ids that were in quarantine,
those that were in it when it was cleared, and the overdue ids that were published. -/
structure FenceState where
  device : Device
  overdue : List Text
  held : List Text
  released : List Text
  leaked : List Text

namespace FenceState

/-- The start of a run. -/
def start (d : Device) : FenceState := ⟨d, [], quarantinedIds d, [], []⟩

/-- The ids that a request publishes. -/
def publishedBy : Call → List Text
  | .writeFile (.change _) (.change _ entry) => [entry.id]
  | _ => []

/-- New ids are new. -/
def Fresh (s : FenceState) : (c : Call) → Reply c → Prop
  | .uuid, uuid => changeKind ++ underscore :: uuid ∉ s.overdue
  | _, _ => True

/-- A remote that may answer anything; the world is the list of ids published so far. -/
def remote (s : FenceState) (ok : (c : Call) → Reply c → Prop) : Env Call Reply (List Text) where
  rely w w₁ := w₁ = w
  answer w c rep w' := w' = w ++ publishedBy c ∧ s.Fresh c rep ∧ ok c rep
  guar _ _ := True

/-- The state after a call. -/
def after (s : FenceState) (a : FenceAct) (d : Device) (published : List Text) : FenceState where
  device := d
  overdue := s.overdue
  held := match a with
    | .clearQuarantinedOfflineChanges => s.held
    | _ => s.held ++ quarantinedIds d
  released := match a with
    | .clearQuarantinedOfflineChanges => s.released ++ quarantinedIds s.device
    | _ => s.released
  leaked := s.leaked ++ published.filter fun id => decide (id ∈ s.overdue)

/-- The runs whose calls meet `careful` and whose answers meet `ok`. -/
inductive Reached (careful : FenceState → FenceAct → Prop)
    (ok : FenceState → (c : Call) → Reply c → Prop) (s₀ : FenceState) : FenceState → Prop
  | start : Reached careful ok s₀ s₀
  | moment {s : FenceState} {now : ℕ} (h : Reached careful ok s₀ s) (hnow : Overdue s.device now) :
      Reached careful ok s₀ { s with overdue := s.overdue ++ queuedIds s.device }
  | call {s : FenceState} {a : FenceAct} {r : Except Failure Unit} {d' : Device}
      {published : List Text} (h : Reached careful ok s₀ s) (hcareful : careful s a)
      (hrun : Prog.Run (s.remote (ok s)) (a.method s.device) [] r d' published) :
      Reached careful ok s₀ (s.after a d' published)

/-! ## The condition -/

/-- An overdue entry is queued. -/
def FencedQueue (s : FenceState) : Prop := ∃ id ∈ s.overdue, id ∈ queuedIds s.device

/-- No connected engine pulls while its queue is beyond the limit. -/
def NoBlindPull (s : FenceState) : FenceAct → Prop
  | .pull => s.device.connected = true → ¬s.FencedQueue
  | _ => True

/-- A manifest does not allow more time than the one in force. -/
def NotLater (d : Device) (m : Manifest) : Prop :=
  ∀ policy limit, resolveRetentionPolicy m.retention = some policy → limitOf d = some limit →
    policy.maxOfflineDurationMs ≤ limit

/-- A manifest does not make the device reset itself to another mesh. -/
def SameMesh (d : Device) (m : Manifest) : Prop :=
  d.config.joinExistingMeshPolicy = .resetToRemote →
    m.meshId = [] ∨ m.meshId = d.store.metadata.meshId.getD []

/-- While an overdue entry is queued, the clock stays beyond the limit and no manifest
extends it; while an entry is overdue or in quarantine, the mesh stays the same. -/
def Allowed (s : FenceState) : (c : Call) → Reply c → Prop
  | .now, now => s.FencedQueue → Overdue s.device now
  | .readFile (.rootFile _), .ok (.manifest m) =>
    (s.FencedQueue → NotLater s.device m) ∧
      (s.FencedQueue ∨ quarantinedIds s.device ≠ [] → SameMesh s.device m)
  | .writeFile (.rootFile (.manifest 1)) (.manifest m), _ =>
    s.FencedQueue → NotLater s.device m
  | _, _ => True

/-- The fence holds: nothing overdue was published, what is overdue is queued or in
quarantine, and what is in quarantine stays there until it is cleared. -/
structure Safe (s : FenceState) : Prop where
  leaked : s.leaked = []
  overdue : ∀ id ∈ s.overdue, id ∈ queuedIds s.device ∨ id ∈ quarantinedIds s.device ∨
    id ∈ s.released
  held : ∀ id ∈ s.held, id ∈ quarantinedIds s.device ∨ id ∈ s.released

variable {s : FenceState} {ok : (c : Call) → Reply c → Prop} {d : Device} {w : List Text}

/-! ## After the check -/

/-- No overdue entry is queued any more: each is in quarantine, or was cleared from it. -/
structure Clean (s : FenceState) (d : Device) (w : List Text) : Prop where
  unpublished : ∀ id ∈ s.overdue, id ∉ w
  notQueued : ∀ id ∈ s.overdue, id ∉ queuedIds d
  overdue : ∀ id ∈ s.overdue, id ∈ quarantinedIds d ∨ id ∈ s.released
  held : ∀ id ∈ s.held, id ∈ quarantinedIds d ∨ id ∈ s.released

variable {d' : Device}

theorem Clean.of_subset (h : Clean s d w)
    (hqueue : ∀ id ∈ s.overdue, id ∈ queuedIds d' → id ∈ queuedIds d)
    (hquarantine : ∀ id ∈ quarantinedIds d, id ∈ quarantinedIds d') : Clean s d' w where
  unpublished := h.unpublished
  notQueued id hid hq := h.notQueued id hid (hqueue id hid hq)
  overdue id hid := (h.overdue id hid).imp_left (hquarantine id)
  held id hid := (h.held id hid).imp_left (hquarantine id)

variable {I : Device → List Text → Prop}

theorem askKeeps_remote {c : Call} (hc : publishedBy c = []) : Proc.AskKeeps (s.remote ok) I c := by
  rintro d w w₁ rep w₂ hI rfl ⟨rfl, -, -⟩
  rw [hc, append_nil]
  exact ⟨trivial, hI⟩

theorem quiet_remote : Quiet (s.remote ok) I where
  now := askKeeps_remote rfl
  uuid := askKeeps_remote rfl
  isAuthenticated := askKeeps_remote rfl
  authenticate := askKeeps_remote rfl
  readFile _ := askKeeps_remote rfl
  listChanges := askKeeps_remote rfl
  listMainline := askKeeps_remote rfl
  ensureFolder _ := askKeeps_remote rfl

variable {id : Text}

theorem queuedIds_acknowledgeOutbox {ids : List Text}
    (h : id ∈ queuedIds (d.withStore fun s => s.acknowledgeOutbox ids)) : id ∈ queuedIds d := by
  obtain ⟨entry, hentry, rfl⟩ := mem_map.mp h
  refine mem_map.mpr ⟨entry, ?_, rfl⟩
  rcases mem_append.mp hentry with hout | hpending
  · exact mem_append_left _ (mem_of_mem_filter hout)
  · exact mem_append_right _ hpending

variable {entries : List ChangeEntry}

theorem mem_ids_byId :
    id ∈ (byId entries).values.map ChangeEntry.id ↔ id ∈ entries.map ChangeEntry.id := by
  have hget : ∀ (l : List ChangeEntry) (r : Record Text ChangeEntry),
      (∀ k e, r.get k = some e → e.id = k) →
      (∀ k e, (l.foldl (fun r entry => r.set entry.id entry) r).get k = some e → e.id = k) ∧
      ∀ k, (∃ e, (l.foldl (fun r entry => r.set entry.id entry) r).get k = some e) ↔
        (∃ e, r.get k = some e) ∨ k ∈ l.map ChangeEntry.id := by
    intro l
    induction l with
    | nil => exact fun r hr => ⟨hr, fun k => by simp⟩
    | cons a l ih =>
      intro r hr
      have hr' : ∀ k e, (r.set a.id a).get k = some e → e.id = k := by
        intro k e hk
        rw [Record.get_set] at hk
        split at hk
        · rename_i hka
          rw [← some.inj hk, hka]
        · exact hr k e hk
      obtain ⟨hids, hmem⟩ := ih (r.set a.id a) hr'
      refine ⟨hids, fun k => ?_⟩
      rw [foldl_cons, hmem k, map_cons, mem_cons, Record.get_set]
      by_cases hka : a.id = k
      · rw [if_pos hka]
        exact ⟨fun _ => .inr (.inl hka.symm), fun _ => .inl ⟨a, rfl⟩⟩
      · rw [if_neg hka]
        exact ⟨fun h => h.imp_right .inr, fun h => h.imp_right fun h =>
          h.resolve_left fun h => hka h.symm⟩
  obtain ⟨hids, hmem⟩ := hget entries ∅ (fun k e h => absurd h (by simp))
  constructor
  · intro h
    obtain ⟨e, he, rfl⟩ := mem_map.mp h
    obtain ⟨k, hk⟩ := Record.mem_values_iff.mp he
    have hek : e.id = k := hids k e hk
    rw [hek]
    rcases (hmem k).mp ⟨e, hk⟩ with hempty | hin
    · exact absurd hempty (by simp)
    · exact hin
  · intro h
    obtain ⟨e, he⟩ := (hmem id).mpr (.inr h)
    exact mem_map.mpr ⟨e, Record.mem_values_iff.mpr ⟨id, he⟩, hids id e he⟩

variable {pending : Bool}

/-- The quarantine of a device has its old ids and those of the queue. -/
theorem quarantinedIds_quarantineOutbox {now last : ℕ} {limit : ℤ} {count : ℕ} :
    id ∈ quarantinedIds
      { d with
        store := quarantineOutbox d.store now last limit
        pendingBatch := pending
        pendingCount := count } ↔
      id ∈ quarantinedIds d ∨ id ∈ d.store.outbox.map ChangeEntry.id := by
  show id ∈ (byId (quarantined d.store.metadata ++ d.store.outbox)).values.map _ ↔ _
  rw [mem_ids_byId, map_append, mem_append]
  rfl

/-- The queue of a device after its outbox went into quarantine. -/
theorem queuedIds_quarantineOutbox {now last : ℕ} {limit : ℤ} {count : ℕ}
    (h : id ∈ queuedIds { d with
        store := quarantineOutbox d.store now last limit
        pendingBatch := pending
        pendingCount := count }) :
    id ∈ d.store.pendingBatch.toList.map ChangeEntry.id := by
  obtain ⟨entry, hentry, rfl⟩ := mem_map.mp h
  rcases mem_append.mp hentry with hout | hpending
  · obtain ⟨hmem, hnot⟩ := mem_filter.mp hout
    have hin : entry.id ∈ d.store.outbox.map ChangeEntry.id := mem_map.mpr ⟨entry, hmem, rfl⟩
    exact absurd hin (of_decide_eq_true hnot)
  · exact mem_map.mpr ⟨entry, hpending, rfl⟩

theorem queuedIds_promoted : queuedIds d.promoted = queuedIds d := by
  rw [queuedIds, queued_promoted, queuedIds]

theorem quarantinedIds_promoted : quarantinedIds d.promoted = quarantinedIds d := by
  rw [quarantinedIds, promoted_eq, quarantinedIds]

theorem queuedIds_nil {store : LocalStore} (hout : store.outbox = [])
    (hpending : store.pendingBatch = none) : queuedIds (d.withStore fun _ => store) = [] := by
  show store.queued.map _ = []
  rw [LocalStore.queued, hout, hpending]
  rfl

theorem quarantinedIds_replacedStore {d₀ : Device} {snapshot : Snapshot} :
    quarantinedIds (d.withStore fun _ => replacedStore (preservedOf d₀) snapshot) =
      quarantinedIds d₀ := by
  show (quarantined (replacedStore _ _).metadata).map _ = _
  rw [metadata_replacedStore]
  rfl

theorem bootstrapFrame_remote :
    BootstrapFrame (s.remote ok) I where
  toQuiet := quiet_remote
  firstManifest _ _ := askKeeps_remote rfl
  firstPointer := askKeeps_remote rfl

theorem engineFrame_clean : EngineFrame (s.remote ok) (Clean s) where
  toQuiet := quiet_remote
  bootstrap := .inr bootstrapFrame_remote
  session _ _ _ _ _ _ _ h := h.of_subset (fun _ _ h => h) fun _ h => h
  meshId _ _ _ _ h := h.of_subset (fun _ _ h => h) fun _ h => h
  manifest _ _ _ _ h := h.of_subset (fun _ _ h => h) fun _ h => h
  manifestCache _ _ _ h := h.of_subset (fun _ _ h => h) fun _ h => h
  merged _ _ _ _ _ _ hmerge h := by
    obtain ⟨rows, rfl⟩ := exists_mergeEntry_eq hmerge
    exact h.of_subset (fun _ _ h => h) fun _ h => h
  progress _ _ _ _ h := h.of_subset (fun _ _ h => h) fun _ h => h
  clock _ _ _ h := h.of_subset (fun _ _ h => h) fun _ h => h
  syncTimes _ _ _ h := h.of_subset (fun _ _ h => h) fun _ h => h
  deviceRecords _ _ := askKeeps_remote rfl
  promoted d w h := by
    refine h.of_subset (fun id _ hq => ?_) fun id hq => ?_
    · rwa [queuedIds_promoted] at hq
    · rwa [quarantinedIds_promoted]
  quarantine d w now last limit h := by
    refine h.of_subset (fun id _ hq => ?_) fun id hq => quarantinedIds_quarantineOutbox.mpr (.inl hq)
    rw [queuedIds, LocalStore.queued, map_append]
    exact mem_append_right _ (queuedIds_quarantineOutbox hq)
  observation _ _ _ _ _ h := h.of_subset (fun _ _ h => h) fun _ h => h
  changeFile d w h entry hentry meshId := by
    -- what is in the outbox is not overdue
    have hnot : entry.id ∉ s.overdue := fun hid =>
      h.notQueued _ hid (mem_map.mpr ⟨entry, mem_append_left _ hentry, rfl⟩)
    rintro d' w' w₁ rep w₂ h' rfl ⟨rfl, -, -⟩
    refine ⟨trivial, fun id hid hw => ?_, h'.notQueued, h'.overdue, h'.held⟩
    rcases mem_append.mp hw with hw | hw
    · exact h'.unpublished id hid hw
    · exact hnot (mem_singleton.mp hw ▸ hid)
  head _ := askKeeps_remote rfl
  acknowledge _ _ _ h := h.of_subset (fun _ _ hq => queuedIds_acknowledgeOutbox hq) fun _ h => h
  replaced d₀ w₀ h₀ d w snapshot h := by
    refine ⟨h.unpublished, fun id hid hq => ?_, fun id hid => ?_, fun id hid => ?_⟩
    · rw [queuedIds_nil (outbox_replacedStore _ _) (pendingBatch_replacedStore _ _)] at hq
      exact absurd hq not_mem_nil
    · rw [quarantinedIds_replacedStore]
      exact h₀.overdue id hid
    · rw [quarantinedIds_replacedStore]
      exact h₀.held id hid
  restored _ _ _ _ h := h.of_subset (fun _ _ h => h) fun _ h => h
  cleared d w h := by
    refine h.of_subset (fun id _ hq => ?_) fun _ h => h
    rw [queuedIds_nil rfl rfl] at hq
    exact absurd hq not_mem_nil
  rebuilt d w entries count hids h := by
    refine h.of_subset (fun id hid hq => ?_) fun _ h => h
    obtain ⟨entry, hentry, rfl⟩ := mem_map.mp hq
    rcases mem_append.mp hentry with hout | hpending
    · rcases mem_append.mp hout with hold | hnew
      · exact mem_map.mpr ⟨entry, mem_append_left _ hold, rfl⟩
      · obtain ⟨w₁, uuid, w₂, ⟨-, hfresh, -⟩, heq⟩ := hids entry hnew
        exact absurd (heq ▸ hid) hfresh
    · exact mem_map.mpr ⟨entry, mem_append_right _ hpending, rfl⟩
  newSnapshot _ _ _ _ := askKeeps_remote rfl
  nextManifest _ _ := askKeeps_remote rfl
  nextPointer _ := askKeeps_remote rfl
  deleteFile _ := askKeeps_remote rfl
  epoch _ _ _ h := h.of_subset (fun _ _ h => h) fun _ h => h
  nextHeld _ _ _ h := h.of_subset (fun _ _ h => h) fun _ h => h
  connects _ _ h := h.of_subset (fun _ _ h => h) fun _ h => h

/-! ## Before the check -/

/-- The limit is measured from the same sync as at the start of the call, and has not
grown. -/
def Fenced (d₀ d : Device) : Prop :=
  ∃ last limit₀ limit, d₀.store.metadata.lastSuccessfulSyncAt = some last ∧
    limitOf d₀ = some limit₀ ∧ d.store.metadata.lastSuccessfulSyncAt = some last ∧
    limitOf d = some limit ∧ limit ≤ limit₀

/-- Overdue entries may be queued, but then the next check finds them. -/
structure Guarded (s : FenceState) (d : Device) (w : List Text) : Prop where
  unpublished : ∀ id ∈ s.overdue, id ∉ w
  overdue : ∀ id ∈ s.overdue, id ∈ queuedIds d ∨ id ∈ quarantinedIds d ∨ id ∈ s.released
  held : ∀ id ∈ s.held, id ∈ quarantinedIds d ∨ id ∈ s.released
  fenced : (∃ id ∈ s.overdue, id ∈ queuedIds d) → s.FencedQueue ∧ Fenced s.device d
  config : d.config = s.device.config

/-- A device with the same overdue entries in its queue, and the same limit. -/
theorem Guarded.congr (h : Guarded s d w)
    (hqueue : ∀ id ∈ s.overdue, id ∈ queuedIds d' ↔ id ∈ queuedIds d)
    (hquarantine : quarantinedIds d' = quarantinedIds d)
    (hlast : d'.store.metadata.lastSuccessfulSyncAt = d.store.metadata.lastSuccessfulSyncAt)
    (hlimit : limitOf d' = limitOf d) (hconfig : d'.config = d.config) : Guarded s d' w where
  unpublished := h.unpublished
  overdue id hid := by
    rw [hqueue id hid, hquarantine]
    exact h.overdue id hid
  held id hid := by
    rw [hquarantine]
    exact h.held id hid
  fenced := by
    rintro ⟨id, hid, hq⟩
    rw [Fenced, hlast, hlimit]
    exact h.fenced ⟨id, hid, (hqueue id hid).mp hq⟩
  config := hconfig.trans h.config

theorem Guarded.same (h : Guarded s d w) (hqueue : queuedIds d' = queuedIds d)
    (hquarantine : quarantinedIds d' = quarantinedIds d)
    (hlast : d'.store.metadata.lastSuccessfulSyncAt = d.store.metadata.lastSuccessfulSyncAt)
    (hlimit : limitOf d' = limitOf d) (hconfig : d'.config = d.config) : Guarded s d' w :=
  h.congr (fun _ _ => by rw [hqueue]) hquarantine hlast hlimit hconfig

theorem resolveRetentionPolicy_toInput {input : Option RetentionPolicyInput}
    {policy : RetentionPolicy} (h : resolveRetentionPolicy input = some policy) :
    resolveRetentionPolicy (some policy.toInput) = some policy := by
  rw [resolveRetentionPolicy] at h
  split at h
  · rename_i hpos
    obtain rfl := some.inj h
    exact if_pos hpos
  · exact absurd h (by simp)

theorem limitOf_completedManifest {m₀ m : Manifest} (h : completedManifest m₀ = .ok m)
    (d : Device) : ∃ policy, resolveRetentionPolicy m₀.retention = some policy ∧
      limitOf { d with manifest := some m } = some policy.maxOfflineDurationMs := by
  obtain ⟨policy, hpolicy, rfl⟩ := exists_completedManifest_eq h
  refine ⟨policy, hpolicy, ?_⟩
  show (resolveRetentionPolicy (some policy.toInput)).map _ = _
  rw [resolveRetentionPolicy_toInput hpolicy]
  rfl

/-- The clock, and the manifests that are read, keep the queue fenced. -/
def attentive (s : FenceState) : Env Call Reply (List Text) := s.remote s.Allowed

variable {m : Manifest}

theorem notLater_obtained (h : Obtained s.attentive I w m) :
    ∃ m₀, completedManifest m₀ = .ok m ∧
      (s.FencedQueue → NotLater s.device m₀) := by
  obtain ⟨⟨m₀, hsource, hcompleted⟩, -⟩ := h
  refine ⟨m₀, hcompleted, fun hfenced => ?_⟩
  rcases hsource with ⟨w₁, file, w₂, -, -, hallowed⟩ | ⟨w₁, rep, w₂, -, -, hallowed⟩
  · exact hallowed.1 hfenced
  · exact hallowed hfenced

theorem Guarded.loaded (h : Guarded s d w)
    (hm : ∃ m₀, completedManifest m₀ = .ok m ∧ (s.FencedQueue → NotLater s.device m₀)) :
    Guarded s { d with manifest := some m } w := by
  obtain ⟨m₀, hcompleted, hlater⟩ := hm
  obtain ⟨policy, hpolicy, hlimit⟩ := limitOf_completedManifest hcompleted d
  refine ⟨h.unpublished, h.overdue, h.held, fun hq => ?_, h.config⟩
  obtain ⟨hfenced, last, limit₀, limit, hlast₀, hlimit₀, hlast, -, -⟩ := h.fenced hq
  exact ⟨hfenced, last, limit₀, policy.maxOfflineDurationMs, hlast₀, hlimit₀, hlast, hlimit,
    hlater hfenced policy limit₀ hpolicy hlimit₀⟩

theorem manifestFrame_guarded {P : LocalStore → Prop}
    (hcache : ∀ store cached, P store →
      P { store with metadata := { store.metadata with manifestCache := cached } }) :
    ManifestFrame s.attentive (fun d w => Guarded s d w ∧ P d.store) where
  toQuiet := quiet_remote
  bootstrap := .inr bootstrapFrame_remote
  session _ _ _ _ _ _ _ h := ⟨h.1.same rfl rfl rfl rfl rfl, h.2⟩
  manifest _ _ _ hm h := ⟨h.1.loaded (notLater_obtained hm), h.2⟩
  manifestCache _ _ _ h := ⟨h.1.same rfl rfl rfl rfl rfl, hcache _ _ h.2⟩

theorem loadFrame_guarded {P : List ChangeEntry → Prop} :
    LoadFrame s.attentive (fun d w => Guarded s d w ∧ P d.store.outbox) where
  toManifestFrame := manifestFrame_guarded (P := fun store => P store.outbox) fun _ _ h => h
  meshId _ _ _ _ h := ⟨h.1.same rfl rfl rfl rfl rfl, h.2⟩

theorem Guarded.clean_of_nil (h : Guarded s d w) (hnone : queuedIds d = []) : Clean s d w where
  unpublished := h.unpublished
  notQueued _ _ hq := absurd (hnone ▸ hq) not_mem_nil
  overdue id hid := (h.overdue id hid).resolve_left (hnone ▸ not_mem_nil)
  held := h.held

theorem wp_quarantine_guarded (h : Guarded s d w ∧ d.store.outbox = entries) :
    quarantineExpiredOfflineWrites.wp s.attentive
      (fun expired d' w' => Clean s d' w' ∧ (expired = false → d'.store.outbox = entries))
      (fun _ => Guarded s) d w := by
  rw [quarantineExpiredOfflineWrites, wp_bind, wp_now]
  rintro w₁ rfl now w₂ ⟨rfl, -, hnow⟩
  rw [show publishedBy .now = [] from rfl, append_nil]
  refine ⟨trivial, ?_⟩
  rw [wp_bind, offlineRetentionState, wp_bind, activeRetentionPolicy, wp_bind, wp_get]
  have hquiet : (¬∃ id ∈ s.overdue, id ∈ queuedIds d) → Clean s d w₁ := fun hnone =>
    ⟨h.1.unpublished, fun id hid hq => hnone ⟨id, hid, hq⟩,
      fun id hid => (h.1.overdue id hid).resolve_left fun hq => hnone ⟨id, hid, hq⟩, h.1.held⟩
  split
  · exact h.1
  · rename_i policy hpolicy
    have hlimit : limitOf d = some policy.maxOfflineDurationMs := by rw [limitOf, hpolicy]; rfl
    rw [wp_pure, wp_bind, wp_metadata]
    cases hlast : d.store.metadata.lastSuccessfulSyncAt with
    | none =>
      refine ⟨hquiet fun hq => ?_, fun _ => h.2⟩
      obtain ⟨-, last, _, _, -, -, hlast', -⟩ := h.1.fenced hq
      exact absurd (hlast.symm.trans hlast') (by simp)
    | some last =>
      rw [wp_pure]
      by_cases hexpired : policy.maxOfflineDurationMs < (now : ℤ) - last
      · rw [decide_eq_true hexpired]
        show (_ >>= _ : Eng _).wp _ _ _ _ _
        rw [wp_bind, flushPendingBatch, wp_modify, wp_bind, wp_modify, wp_pure]
        -- the whole queue is in the outbox now, and goes into quarantine
        have hout : d.promoted.store.outbox.map ChangeEntry.id = queuedIds d := by
          rw [outbox_promoted, queuedIds]
        refine ⟨⟨h.1.unpublished, fun id hid hq => ?_, fun id hid => ?_, fun id hid => ?_⟩,
          fun hf => absurd hf (by simp)⟩
        · have hpending := queuedIds_quarantineOutbox hq
          rw [pendingBatch_promoted] at hpending
          exact absurd hpending not_mem_nil
        · rw [quarantinedIds_quarantineOutbox, quarantinedIds_promoted, hout]
          rcases h.1.overdue id hid with hq | hq | hq
          · exact .inl (.inr hq)
          · exact .inl (.inl hq)
          · exact .inr hq
        · rw [quarantinedIds_quarantineOutbox, quarantinedIds_promoted]
          exact (h.1.held id hid).imp_left .inl
      · rw [decide_eq_false hexpired]
        refine ⟨hquiet fun hq => hexpired ?_, fun _ => h.2⟩
        obtain ⟨hfenced, last', limit₀, limit, hlast₀, hlimit₀, hlast', hlimit', hle⟩ :=
          h.1.fenced hq
        obtain ⟨last'', limit'', hl, hm, hlt⟩ := hnow hfenced
        obtain rfl := some.inj (hlast₀.symm.trans hl)
        obtain rfl := some.inj (hlimit₀.symm.trans hm)
        obtain rfl := some.inj (hlast.symm.trans hlast')
        obtain rfl := some.inj (hlimit.symm.trans hlimit')
        exact lt_of_le_of_lt hle hlt

/-! ## Local writes -/

theorem keeps_clock {f : Device → Device} (hf : ∀ d, ∃ hlc, f d = { d with hlc := hlc }) :
    Keeps s.attentive (Guarded s) (Proc.modify f : Eng Unit) := by
  refine keeps_modify fun d w h => ?_
  obtain ⟨hlc, heq⟩ := hf d
  rw [heq]
  exact h.same rfl rfl rfl rfl rfl

theorem keeps_refreshHlcFromLocal : Keeps s.attentive (Guarded s) refreshHlcFromLocal := by
  refine keeps_clock fun d => ?_
  split
  · exact ⟨d.hlc, rfl⟩
  · split
    · exact ⟨d.hlc, rfl⟩
    · exact ⟨_, rfl⟩

theorem keeps_promote : Keeps s.attentive (Guarded s) flushPendingBatch := by
  refine keeps_flushPendingBatch fun d w h => ?_
  refine h.same queuedIds_promoted quarantinedIds_promoted ?_ ?_ ?_
  all_goals rw [promoted_eq]
  rfl

/-- The queue after a local write: the pending batch keeps its id, and a new one has a new
id. -/
theorem mem_queuedIds_commit {row : Row} {change : ChangeEntry} (hid : change.id ≠ id) :
    id ∈ queuedIds { d with store := d.store.commitLocalMutation row change
                            pendingBatch := pending } ↔ id ∈ queuedIds d := by
  show id ∈ (d.store.outbox ++ [LocalStore.joinBatch d.store.pendingBatch change]).map _ ↔
    id ∈ (d.store.outbox ++ d.store.pendingBatch.toList).map _
  rw [map_append, mem_append, map_append, mem_append]
  refine or_congr_right ?_
  cases d.store.pendingBatch with
  | some p => exact Iff.rfl
  | none =>
    refine ⟨fun h => absurd (mem_singleton.mp h).symm hid, fun h => ?_⟩
    exact absurd h not_mem_nil

theorem keeps_commitLocalMutation (row : Row) (op : Op) (hlc : Text) :
    Keeps s.attentive (Guarded s) (commitLocalMutation row op hlc) := by
  intro d w h
  rw [commitLocalMutation, wp_bind, wp_generateId]
  rintro w₁ rfl uuid w₂ ⟨rfl, hfresh, -⟩
  rw [show publishedBy .uuid = [] from rfl, append_nil]
  refine ⟨trivial, ?_⟩
  rw [wp_bind]
  refine (keeps_now quiet_remote.now).wp h ?_ fun _ _ _ hx => hx
  intro ts d₁ w₃ h₁
  rw [wp_bind, wp_modify, wp_bind, wp_get]
  refine Proc.keeps_when keeps_promote _ _ ?_
  refine h₁.congr (fun id hid => mem_queuedIds_commit ?_) rfl rfl rfl rfl
  show changeKind ++ underscore :: uuid ≠ id
  exact fun heq => hfresh (heq ▸ hid)

theorem keeps_storeMutation (row : Row) : Keeps s.attentive (Guarded s) (storeMutation row) := by
  rw [storeMutation]
  split
  · exact keeps_commitLocalMutation _ _ _
  · exact keeps_modifyStore fun d w h => h.same rfl rfl rfl rfl rfl

theorem keeps_putNow (table rowId : Text) (columns : List (Text × JsValue)) :
    Keeps s.attentive (Guarded s) (putNow table rowId columns) := by
  refine keeps_bind keeps_refreshHlcFromLocal fun _ => ?_
  refine keeps_bind (keeps_now quiet_remote.now) fun wall => ?_
  refine keeps_bind (keeps_clock fun d => ⟨_, rfl⟩) fun _ => ?_
  refine keeps_bind keeps_get fun d => ?_
  exact keeps_bind (keeps_storeMutation _) fun _ => keeps_pure _

theorem keeps_deleteNow (table rowId : Text) :
    Keeps s.attentive (Guarded s) (deleteNow table rowId) := by
  refine keeps_bind keeps_refreshHlcFromLocal fun _ => ?_
  refine keeps_bind keeps_get fun d => ?_
  split
  · exact keeps_pure _
  · split
    · exact keeps_pure _
    · refine keeps_bind (keeps_now quiet_remote.now) fun wall => ?_
      refine keeps_bind (keeps_clock fun d => ⟨_, rfl⟩) fun _ => ?_
      refine keeps_bind keeps_get fun d => ?_
      exact keeps_bind (keeps_storeMutation _) fun _ => keeps_pure _

/-! ## Pull -/

theorem keeps_pullNow_disconnected :
    Keeps s.attentive (fun d w => Guarded s d w ∧ d.connected = false) pullNow := by
  have hload : LoadFrame s.attentive (fun d w => Guarded s d w ∧ d.connected = false) :=
    { quiet_remote with
      bootstrap := .inr bootstrapFrame_remote
      session := fun d w poison connected access count hc h =>
        ⟨h.1.same rfl rfl rfl rfl rfl, Bool.eq_false_iff.mpr fun hconnected =>
          Bool.eq_false_iff.mp h.2 (hc hconnected)⟩
      manifest := fun d w m hm h => ⟨h.1.loaded (notLater_obtained hm), h.2⟩
      manifestCache := fun d w cached h => ⟨h.1.same rfl rfl rfl rfl rfl, h.2⟩
      meshId := fun d w meshId _ h => ⟨h.1.same rfl rfl rfl rfl rfl, h.2⟩ }
  have hmerge : MergeFrame s.attentive (fun d w => Guarded s d w ∧ d.connected = false) :=
    { hload with
      merged := fun d w entry v store _ hmerge h => by
        obtain ⟨rows, rfl⟩ := exists_mergeEntry_eq hmerge
        exact ⟨h.1.same rfl rfl rfl rfl rfl, h.2⟩
      progress := fun d w ledger saved h => ⟨h.1.same rfl rfl rfl rfl rfl, h.2⟩ }
  refine keeps_bind keeps_requireAdapter fun _ => keeps_attempt ?_ fun e =>
    keeps_bind (keeps_handleRemoteAccessError hload.session e) fun _ => keeps_fail _
  refine keeps_bind (keeps_pull hmerge ?_) fun hlc => ?_
  · exact keeps_bind (keeps_doLoadOrCreateManifest hload _ _) fun _ => keeps_pure _
  refine keeps_bind (keeps_modify fun d w h => ⟨h.1.same rfl rfl rfl rfl rfl, h.2⟩) fun _ => ?_
  intro d w h
  rw [wp_bind, wp_get, wp_bind, wp_when]
  refine ⟨fun hconnected => absurd (h.2.symm.trans hconnected) Bool.noConfusion, fun _ => ?_⟩
  exact keeps_acknowledgeManifest quiet_remote (fun _ _ => askKeeps_remote rfl) d w h

/-! ## Flush and compact -/

/-- A call leaves every overdue entry where the next check finds it. -/
def Kept (s : FenceState) (d : Device) (w : List Text) : Prop := Guarded s d w ∨ Clean s d w

theorem wp_load_guarded (h : Guarded s d w ∧ d.store.outbox = entries) :
    (doLoadOrCreateManifest true {}).wp s.attentive
      (fun _ d' w' => Guarded s d' w' ∧ d'.store.outbox = entries) (fun _ d' w' => Guarded s d' w')
      d w :=
  wp_mono (keeps_doLoadOrCreateManifest
    (loadFrame_guarded (P := fun outbox => outbox = entries)) true {} d w h)
    (fun _ _ _ hq => hq) fun _ _ _ hx => hx.1

/-- A flush that is not skipped leaves no overdue entry in the queue. -/
theorem wp_doFlush_guarded (h : Guarded s d w) :
    doFlush.wp s.attentive
      (fun _ d' w' => Kept s d' w' ∧ (d.adapter = true → d.remoteAccessError = none →
        d.store.pendingBatch = none → Clean s d' w'))
      (fun _ => Kept s) d w := by
  rw [doFlush, wp_bind, wp_get]
  split
  · rename_i hskip
    refine ⟨.inl h, fun hadapter haccess => ?_⟩
    rw [hadapter, haccess] at hskip
    exact absurd hskip (by simp)
  · dsimp only
    split
    · rename_i hempty
      rw [wp_bind, wp_modify]
      refine ⟨.inl (h.same rfl rfl rfl rfl rfl), fun _ _ hpending => ?_⟩
      -- nothing is queued
      have hnone : queuedIds d = [] := by
        rw [queuedIds, LocalStore.queued, hpending, List.isEmpty_iff.mp hempty]
        rfl
      exact (h.clean_of_nil hnone).of_subset (fun _ _ h => h) fun _ h => h
    · rw [wp_bind]
      refine wp_mono (wp_load_guarded ⟨h, rfl⟩) ?_ fun _ _ _ hx => .inl hx
      intro _ d₁ w₁ h₁
      rw [wp_bind]
      refine wp_mono (wp_quarantine_guarded h₁) ?_ fun _ _ _ hx => .inl hx
      rintro expired d₂ w₂ ⟨h₂, hsame⟩
      split
      · exact ⟨.inr h₂, fun _ _ _ => h₂⟩
      · rename_i hexpired
        have hwritable : Writable s.attentive (Clean s) d.store.outbox := by
          rw [← hsame (Bool.eq_false_iff.mpr hexpired)]
          exact engineFrame_clean.changeFile d₂ w₂ h₂
        have hflush : FlushFrame s.attentive (Clean s) := engineFrame_clean.toFlushFrame
        have hkeeps : Keeps s.attentive (Clean s) (do
            Proc.modify fun d => { d with pendingCount := 0 }
            attempt (publish d.store.outbox) fun e => do
              handleRemoteAccessError e
              Proc.modify fun d' => { d' with pendingCount := d.store.outbox.length }
              fail e
            pure d.pendingCount : Eng ℕ) := by
          refine keeps_bind (keeps_pendingCount hflush.session _) fun _ => ?_
          refine keeps_bind (keeps_attempt (keeps_publish hflush hwritable) fun e => ?_)
            fun _ => keeps_pure _
          refine keeps_bind (keeps_handleRemoteAccessError hflush.session e) fun _ => ?_
          exact keeps_bind (keeps_pendingCount hflush.session _) fun _ => keeps_fail _
        refine hkeeps.wp h₂ ?_ fun _ _ _ hx => .inr hx
        exact fun _ d₃ w₃ h₃ => ⟨.inr h₃, fun _ _ _ => h₃⟩

/-- A flush of the whole queue that is not skipped leaves no overdue entry in it. -/
theorem wp_flushQueued_guarded (h : Guarded s d w) (includePendingBatch : Bool) :
    (flushQueued includePendingBatch).wp s.attentive
      (fun _ d' w' => Kept s d' w' ∧ (includePendingBatch = true → d.adapter = true →
        d.remoteAccessError = none → Clean s d' w'))
      (fun _ => Kept s) d w := by
  rw [flushQueued, wp_bind, wp_when]
  refine ⟨fun _ => ?_, fun hnot => ?_⟩
  · rw [flushPendingBatch, wp_modify, wp_bind]
    have hpromoted : Guarded s d.promoted w := keeps_promote d w h
    refine wp_mono (wp_doFlush_guarded hpromoted) ?_ fun _ _ _ hx => hx
    rintro _ d₁ w₁ ⟨hkept, hclean⟩
    refine ⟨hkept, fun _ hadapter haccess => hclean ?_ ?_ (pendingBatch_promoted d)⟩
    · rwa [promoted_eq]
    · rwa [promoted_eq]
  · rw [wp_bind]
    refine wp_mono (wp_doFlush_guarded h) ?_ fun _ _ _ hx => hx
    exact fun _ d₁ w₁ hkept => ⟨hkept.1, fun hinclude => absurd hinclude hnot⟩

theorem wp_compact_guarded (h : Guarded s d w) :
    compact.wp s.attentive (fun _ => Clean s) (fun _ => Kept s) d w := by
  rw [compact_eq, wp_bind]
  refine wp_mono (wp_load_guarded ⟨h, rfl⟩) ?_ fun _ _ _ hx => .inl hx
  intro _ d₁ w₁ h₁
  rw [wp_bind]
  refine wp_mono (wp_quarantine_guarded h₁) ?_ fun _ _ _ hx => .inl hx
  rintro expired d₂ w₂ ⟨h₂, -⟩
  split
  · exact (keeps_resetExpiredClientFromRemote engineFrame_clean.toConnectFrame).wp h₂
      (fun _ _ _ hq => hq)
      fun _ _ _ hx => .inr hx
  · exact (keeps_compactUnfenced engineFrame_clean).wp h₂ (fun _ _ _ hq => hq)
      fun _ _ _ hx => .inr hx

/-! ## Connect -/

/-- The mesh id and the quarantine are those that the call started with. -/
def Undisturbed (s : FenceState) (store : LocalStore) : Prop :=
  store.metadata.meshId = s.device.store.metadata.meshId ∧
    store.metadata.quarantinedOfflineChanges =
      s.device.store.metadata.quarantinedOfflineChanges

/-- A guarded device that has not settled its mesh yet. -/
def Approaching (s : FenceState) (d : Device) (w : List Text) : Prop :=
  Guarded s d w ∧ Undisturbed s d.store

theorem manifestFrame_approaching : ManifestFrame s.attentive (Approaching s) :=
  manifestFrame_guarded fun _ _ h => h

theorem wp_tryConnectFastPath (h : Approaching s d w) :
    tryConnectFastPath.wp s.attentive
      (fun connected d' w' => if connected then Clean s d' w' else Approaching s d' w')
      (fun _ => Approaching s) d w := by
  rw [tryConnectFastPath, wp_bind, wp_get]
  split
  · exact h
  · split
    · exact h
    · rw [wp_bind]
      refine Keeps.wp (I := Approaching s) ?_ h ?_ fun _ _ _ hx => hx
      · refine keeps_attempt ?_ fun _ => keeps_pure _
        refine keeps_bind (fun d w h => ?_) fun _ => keeps_pure _
        exact wp_mono (wp_doLoadOrCreateManifest manifestFrame_approaching h _
          fun hassert => absurd hassert (by simp)) (fun _ _ _ hq => hq.1) fun _ _ _ hx => hx
      intro verified d₁ w₁ h₁
      rw [wp_bind, wp_get]
      dsimp only
      split
      · exact h₁
      · -- the store does not change until the engine connects
        let I : Device → List Text → Prop := fun d' w' => Approaching s d' w' ∧ d'.store = d₁.store
        rw [wp_bind]
        refine Keeps.wp (I := I) (keeps_now quiet_remote.now) ⟨h₁, rfl⟩ ?_ fun _ _ _ hx => hx.1
        intro now d₂ w₂ h₂
        rw [wp_bind]
        refine (keeps_offlineRetentionState now).wp h₂ ?_ fun _ _ _ hx => hx.1
        rintro ⟨expired, _⟩ d₃ w₃ h₃
        dsimp only
        split
        · exact h₃.1
        · rename_i hidle
          rw [Bool.or_eq_true, Bool.or_eq_true, not_or, not_or, Bool.not_eq_true', Bool.not_eq_false,
            not_isSome_iff_eq_none] at hidle
          rw [wp_attempt, wp_bind]
          refine Keeps.wp (I := I) (keeps_readFile (quiet_remote.readFile _)) h₃ ?_
            (fun failure _ _ hx => by cases failure <;> exact hx.1)
          intro content d₄ w₄ h₄
          split
          · split
            · rw [wp_bind]
              refine Keeps.wp (I := I) (keeps_listChanges quiet_remote.listChanges) h₄ ?_
                (fun failure _ _ hx => by cases failure <;> exact hx.1)
              intro files d₅ w₅ h₅
              split
              · exact h₅.1
              · have hnone : queuedIds d₅ = [] := by
                  rw [queuedIds, h₅.2, LocalStore.queued, hidle.2, List.isEmpty_iff.mp hidle.1.2]
                  rfl
                have hclean : Clean s { d₅ with connected := true, remoteAccessError := none } w₅ :=
                  (h₅.1.1.clean_of_nil hnone).of_subset (fun _ _ h => h) fun _ h => h
                rw [wp_bind, wp_modify, wp_bind, markSuccessfulRemoteSync, wp_bind, wp_now]
                rintro w₆ rfl now w₇ ⟨rfl, -, -⟩
                rw [show publishedBy .now = [] from rfl, append_nil]
                exact ⟨trivial, hclean.of_subset (fun _ _ h => h) fun _ h => h⟩
            · exact h₄.1
          · exact h₄.1

theorem sameMesh_passedReading (h : PassedReading s.attentive m)
    (hstake : s.FencedQueue ∨ quarantinedIds s.device ≠ []) : SameMesh s.device m := by
  obtain ⟨m₀, ⟨w₁, file, w₂, -, -, hallowed⟩, hcompleted⟩ := h
  intro hpolicy
  rw [meshId_completedManifest hcompleted]
  exact hallowed.2 hstake hpolicy

/-- Joining a mesh: a reset drops the queue and the quarantine, so nothing may be in
them. -/
theorem wp_applyJoinExistingMeshPolicy (h : Approaching s d w) (hm : d.manifest = some m)
    {bootstrapped : Bool} (hread : bootstrapped = false → PassedReading s.attentive m) :
    (applyJoinExistingMeshPolicy bootstrapped).wp s.attentive (fun _ => Guarded s) (fun _ => Kept s)
      d w := by
  have hbind : ∀ meshId, Guarded s (d.withMeta fun m => { m with meshId := meshId }) w :=
    fun meshId => h.1.same rfl rfl rfl rfl rfl
  rw [applyJoinExistingMeshPolicy, wp_bind, wp_get, hm]
  split
  · exact h.1
  · rename_i nextMeshId hnext
    obtain ⟨hnext, hne⟩ := truthy_eq_some hnext
    have hmesh : m.meshId = nextMeshId := some.inj hnext
    dsimp only
    split
    · exact hbind _
    · rename_i hboot
      split
      · exact h.1
      · rename_i hprevious
        split
        · exact hbind _
        · split
          · exact hbind _
          · rename_i hpolicy
            -- the mesh is another one, so nothing is at stake
            have hstake : ¬(s.FencedQueue ∨ quarantinedIds s.device ≠ []) := by
              intro hstake
              have hsame := sameMesh_passedReading (hread (Bool.eq_false_iff.mpr hboot)) hstake
                (h.1.config ▸ hpolicy)
              rw [hmesh, ← h.2.1] at hsame
              rcases hsame with hnil | hsame
              · exact hne hnil
              · exact hprevious hsame.symm
            obtain ⟨hqueue, hquarantine⟩ := not_or.mp hstake
            have hquarantine : quarantinedIds d = [] := by
              rw [quarantinedIds, quarantined, h.2.2]
              exact not_not.mp hquarantine
            have hreleased : ∀ id ∈ s.overdue, id ∈ s.released := by
              intro id hid
              rcases h.1.overdue id hid with hq | hq | hq
              · exact absurd (h.1.fenced ⟨id, hid, hq⟩).1 hqueue
              · exact absurd (hquarantine ▸ hq) not_mem_nil
              · exact hq
            refine ⟨h.1.unpublished, fun id hid => .inr (.inr (hreleased id hid)), fun id hid => ?_,
              fun hq => ?_, h.1.config⟩
            · rcases h.1.held id hid with hq | hq
              · exact absurd (hquarantine ▸ hq) not_mem_nil
              · exact .inr hq
            · obtain ⟨id, hid, hq⟩ := hq
              exact absurd hq not_mem_nil

theorem keeps_applyMeshEvictionPolicy (bootstrapped : Bool) (remembered : Text × Option ℤ) :
    Keeps s.attentive (Guarded s) (applyMeshEvictionPolicy bootstrapped remembered) := by
  refine keeps_bind keeps_get fun d => ?_
  split
  · exact keeps_pure _
  · split
    · exact keeps_pure _
    · refine keeps_bind (keeps_setMeta fun d w h => h.same rfl rfl rfl rfl rfl) fun _ => ?_
      split
      · refine keeps_bind ?_ fun _ => ?_
        · exact keeps_attempt (keeps_bind (keeps_readFile (quiet_remote.readFile _))
            fun _ => keeps_pure _) fun _ => keeps_pure _
        split
        · refine keeps_bind (keeps_modify fun d w h => ?_) fun _ => keeps_pure _
          exact h.same rfl rfl rfl rfl rfl
        · exact keeps_pure _
      · exact keeps_pure _

theorem wp_connectToManifest (h : Approaching s d w) (hm : d.manifest = some m)
    {bootstrapped : Bool} (hread : bootstrapped = false → PassedReading s.attentive m)
    (remembered : Text × Option ℤ) :
    (connectToManifest remembered bootstrapped).wp s.attentive (fun _ => Kept s) (fun _ => Kept s)
      d w := by
  rw [connectToManifest_eq, wp_bind]
  refine wp_mono (wp_applyJoinExistingMeshPolicy h hm hread) ?_ fun _ _ _ hx => hx
  intro _ d₁ w₁ h₁
  rw [wp_bind]
  refine (keeps_applyMeshEvictionPolicy _ _).wp h₁ ?_ fun _ _ _ hx => .inl hx
  intro refill d₂ w₂ h₂
  rw [wp_bind]
  refine wp_mono (wp_quarantine_guarded ⟨h₂, rfl⟩) ?_ fun _ _ _ hx => .inl hx
  rintro expired d₃ w₃ ⟨h₃, -⟩
  exact (keeps_connectFenced engineFrame_clean.toConnectFrame _ _ _).wp h₃ (fun _ _ _ hq => .inr hq)
    fun _ _ _ hx => .inr hx

theorem wp_connect_guarded (h : Approaching s d w) :
    connect.wp s.attentive (fun _ => Kept s) (fun _ => Kept s) d w := by
  have hframe := manifestFrame_approaching (s := s)
  rw [connect, wp_bind, wp_get]
  split
  · exact .inl h.1
  rw [doConnect, wp_bind]
  refine wp_requireAdapter_of ?_ fun _ => .inl h.1
  rw [wp_bind]
  refine (keeps_authenticateStage hframe.toQuiet hframe.session).wp h ?_ fun _ _ _ hx => .inl hx.1
  intro authenticated d₁ w₁ h₁
  split
  swap
  · exact .inl h₁.1
  rw [wp_bind]
  refine wp_mono (wp_tryConnectFastPath h₁) ?_ fun _ _ _ hx => .inl hx.1
  intro fast d₂ w₂ h₂
  split
  · rename_i hfast
    rw [if_pos hfast] at h₂
    exact .inr h₂
  rename_i hfast
  rw [if_neg hfast] at h₂
  rw [wp_bind]
  refine (keeps_ensureFolders hframe.toQuiet hframe.session _).wp h₂ ?_ fun _ _ _ hx => .inl hx.1
  intro folders d₃ w₃ h₃
  split
  swap
  · exact .inl h₃.1
  rw [wp_bind, rememberedMeshIdentity, wp_bind, wp_metadata, wp_pure, wp_bind,
    connectStage, Proc.wp_tryCatch, wp_bind]
  refine wp_mono (wp_doLoadOrCreateManifest hframe h₃ _ fun hassert => absurd hassert (by simp))
    ?_ ?_
  · rintro bootstrapped d₄ w₄ ⟨h₄, m, hm, -, hread⟩
    exact wp_connectToManifest h₄ hm hread _
  · intro failure d₄ w₄ h₄
    cases failure with
    | stalled => exact .inl h₄.1
    | thrown e =>
      show ((handleRemoteAccessError e >>= fun _ => fail e : Eng (Option Bool))).wp _ _ _ _ _
      rw [wp_bind]
      exact (keeps_handleRemoteAccessError hframe.session e).wp h₄ (fun _ _ _ hq => .inl hq.1)
        fun _ _ _ hx => .inl hx.1

/-! ## Whole runs -/

variable {a : FenceAct}

theorem wp_method (hcareful : s.NoBlindPull a) (ha : a ≠ .clearQuarantinedOfflineChanges)
    (h : Guarded s s.device []) :
    a.method.wp s.attentive (fun _ => Kept s) (fun _ => Kept s) s.device [] := by
  have hkept : ∀ {m : Eng Unit}, Keeps s.attentive (Guarded s) m →
      m.wp s.attentive (fun _ => Kept s) (fun _ => Kept s) s.device [] := fun hm =>
    hm.wp h (fun _ _ _ hq => .inl hq) fun _ _ _ hx => .inl hx
  cases a with
  | put table rowId columns =>
    exact hkept (keeps_bind (keeps_putNow _ _ _) fun _ => keeps_pure _)
  | delete table rowId =>
    exact hkept (keeps_bind (keeps_deleteNow _ _) fun _ => keeps_pure _)
  | beginBatch => exact .inl (h.same rfl rfl rfl rfl rfl)
  | endBatch =>
    refine hkept (keeps_bind ?_ fun _ => ?_)
    · exact keeps_modify fun d w h => h.same rfl rfl rfl rfl rfl
    · exact keeps_bind keeps_get fun _ => Proc.keeps_when keeps_promote
  | batchTimer => exact hkept keeps_promote
  | flush includePendingBatch =>
    exact wp_mono (wp_flushQueued_guarded h _) (fun _ _ _ hq => hq.1) fun _ _ _ hx => hx
  | pull =>
    cases hconnected : s.device.connected with
    | true =>
      -- nothing overdue is queued, so the sync time may be refreshed
      have hclean : Clean s s.device [] :=
        ⟨h.unpublished, fun id hid hq => hcareful hconnected ⟨id, hid, hq⟩,
          fun id hid => (h.overdue id hid).resolve_left fun hq => hcareful hconnected ⟨id, hid, hq⟩,
          h.held⟩
      exact (keeps_pullNow engineFrame_clean.toPullFrame).wp hclean (fun _ _ _ hq => .inr hq)
        fun _ _ _ hx => .inr hx
    | false =>
      exact keeps_pullNow_disconnected.wp ⟨h, hconnected⟩ (fun _ _ _ hq => .inl hq.1)
        fun _ _ _ hx => .inl hx.1
  | compact =>
    exact wp_mono (wp_compact_guarded h) (fun _ _ _ hq => .inr hq) fun _ _ _ hx => hx
  | connect => exact wp_connect_guarded ⟨h, rfl, rfl⟩
  | clearQuarantinedOfflineChanges => exact absurd rfl ha

variable {published : List Text}

theorem guarded_after (ha : a ≠ .clearQuarantinedOfflineChanges) (h : Kept s d' published) :
    Guarded (s.after a d' published) d' [] := by
  have hreleased : (s.after a d' published).released = s.released := by
    cases a <;> first | rfl | exact absurd rfl ha
  have hheld : (s.after a d' published).held = s.held ++ quarantinedIds d' := by
    cases a <;> first | rfl | exact absurd rfl ha
  refine ⟨fun _ _ => not_mem_nil, fun id hid => ?_, fun id hid => ?_, fun hq => ⟨hq, ?_⟩, rfl⟩
  · rw [hreleased]
    rcases h with h | h
    · exact h.overdue id hid
    · exact .inr (h.overdue id hid)
  · rw [hreleased]
    rw [hheld] at hid
    rcases mem_append.mp hid with hid | hid
    · exact h.elim (fun h => h.held id hid) fun h => h.held id hid
    · exact .inl hid
  · obtain ⟨id, hid, hqueued⟩ := hq
    rcases h with h | h
    · obtain ⟨-, last, _, limit, -, -, hlast, hlimit, -⟩ := h.fenced ⟨id, hid, hqueued⟩
      exact ⟨last, limit, limit, hlast, hlimit, hlast, hlimit, le_refl _⟩
    · exact absurd hqueued (h.notQueued id hid)

theorem leaked_after (hs : s.leaked = []) (h : ∀ id ∈ s.overdue, id ∉ published) :
    (s.after a d' published).leaked = [] := by
  show s.leaked ++ published.filter _ = []
  rw [hs, nil_append, filter_eq_nil_iff]
  exact fun id hid hoverdue => h id (of_decide_eq_true hoverdue) hid

theorem guarded_clear (h : Guarded s s.device []) {r : Except Failure Unit}
    (hrun : Prog.Run s.attentive (FenceAct.clearQuarantinedOfflineChanges.method s.device) [] r d'
      published) :
    published = [] ∧
      Guarded (s.after .clearQuarantinedOfflineChanges d' published) d' [] := by
  cases hrun
  refine ⟨rfl, fun _ _ => not_mem_nil, fun id hid => ?_, fun id hid => ?_, fun hq => ?_, rfl⟩
  · rcases h.overdue id hid with hq | hq | hq
    · exact .inl hq
    · exact .inr (.inr (mem_append_right _ hq))
    · exact .inr (.inr (mem_append_left _ hq))
  · rcases h.held id hid with hq | hq
    · exact .inr (mem_append_right _ hq)
    · exact .inr (mem_append_left _ hq)
  · obtain ⟨-, last, _, limit, -, -, hlast, hlimit, -⟩ := h.fenced hq
    exact ⟨hq, last, limit, limit, hlast, hlimit, hlast, hlimit, le_refl _⟩

theorem guarded_reached (h : Reached NoBlindPull Allowed (start d) s) :
    Guarded s s.device [] ∧ s.leaked = [] := by
  induction h with
  | start =>
    refine ⟨⟨fun _ _ => not_mem_nil, fun id hid => ?_, fun id hid => .inl hid, fun hq => ?_, rfl⟩,
      rfl⟩
    · exact absurd hid not_mem_nil
    · obtain ⟨id, hid, -⟩ := hq
      exact absurd hid not_mem_nil
  | @moment s now _ hnow ih =>
    obtain ⟨last, limit, hlast, hlimit, -⟩ := hnow
    refine ⟨⟨fun _ _ => not_mem_nil, fun id hid => ?_, ih.1.held, fun hq => ⟨hq, ?_⟩, rfl⟩, ih.2⟩
    · rcases mem_append.mp hid with hid | hid
      · exact ih.1.overdue id hid
      · exact .inl hid
    · exact ⟨last, limit, limit, hlast, hlimit, hlast, hlimit, le_refl _⟩
  | @call s a r d' published _ hcareful hrun ih =>
    by_cases ha : a = .clearQuarantinedOfflineChanges
    · subst ha
      obtain ⟨rfl, hguarded⟩ := guarded_clear ih.1 hrun
      exact ⟨hguarded, leaked_after ih.2 fun _ _ => not_mem_nil⟩
    · have hkept : Kept s d' published := Proc.wp_run_ends (wp_method hcareful ha ih.1) hrun
      refine ⟨guarded_after ha hkept, leaked_after ih.2 ?_⟩
      exact hkept.elim (fun h => h.unpublished) fun h => h.unpublished

/-- **The offline fence.**  From any engine, through any sequence of calls in which no
connected engine pulls while an overdue entry is queued, and in which the clock and the
manifests that are read keep such an entry overdue: no entry that was queued beyond the
limit is published, each is queued or in quarantine, and what is in quarantine stays there
until it is cleared.  A flush of the whole queue that is not skipped, and a compaction, put
every overdue entry into quarantine. -/
theorem fence_holds (d : Device) {s : FenceState} (h : Reached NoBlindPull Allowed (start d) s) :
    Safe s ∧ ∀ d' published,
      (Prog.Run (s.remote s.Allowed) (flushQueued true s.device) [] (.ok ()) d' published →
        s.device.adapter = true → s.device.remoteAccessError = none → Clean s d' published) ∧
      (Prog.Run (s.remote s.Allowed) (Interocitor.compact s.device) [] (.ok ()) d' published →
        Clean s d' published) := by
  obtain ⟨hguarded, hleaked⟩ := guarded_reached h
  refine ⟨⟨hleaked, hguarded.overdue, hguarded.held⟩, fun d' published =>
    ⟨fun hrun => ?_, fun hrun => ?_⟩⟩
  · exact (Proc.wp_run_ok (wp_flushQueued_guarded hguarded true) hrun).2 rfl
  · exact Proc.wp_run_ok (Q := fun _ => Clean s) (wp_compact_guarded hguarded) hrun

/-! ## A device that was away -/

/-- The first manifest of the mesh `"mesh"`. -/
def awayManifest : Manifest :=
  let payload := bootstrapPayload (defaultConfig [97]) 0 meshKind 1
  { payload with contentHash := computeContentHash payload }

/-- The change that the device made while it was away. -/
def awayEntry : ChangeEntry :=
  ⟨changeKind ++ [95, 49], 5, [97], hlcSerialize (hlcInit 5 [97]),
    [.delete [116] [114] (hlcSerialize (hlcInit 5 [97]))]⟩

/-- The mailbox that the device comes back to. -/
def awayMailbox : Mailbox :=
  ⟨((∅ : Objects).set .manifestPointer (.pointer ⟨1, .manifest 1⟩)).set
    (.rootFile (.manifest 1)) (.manifest awayManifest), []⟩

/-- A connected device that was away since time zero, with one queued change. -/
def awayDevice : Device :=
  { openEngine (defaultConfig [97]) 5
      { LocalStore.empty with
        outbox := [awayEntry]
        metadata :=
          { Metadata.empty with
            meshId := some meshKind
            lastSuccessfulSyncAt := some 0 } } with
    manifest := some awayManifest
    connected := true }

/-- It comes back after 31 days. -/
def awayUntil : ℕ := 31 * 24 * 60 * 60 * 1000

theorem overdue_awayDevice : Overdue awayDevice awayUntil :=
  ⟨0, _, rfl, rfl, by decide⟩

/-- The clock stands still, and the mailbox shows its first manifest. -/
def awayReply (w : List Text) (c : Call) : Reply c × List Text :=
  ((Mailbox.reply awayUntil (fun _ => none) awayMailbox c).1, w ++ publishedBy c)

/-- The clock reads the same at every call. -/
def StillClock : (c : Call) → Reply c → Prop
  | .now, now => now = awayUntil
  | _, _ => True

/-- The state at the moment of the return. -/
def awayState : FenceState :=
  { start awayDevice with overdue := (start awayDevice).overdue ++ queuedIds awayDevice }

/-- A pull of the device, from that moment on. -/
def pulledDevice : Device := ((pullNow awayDevice).exec awayReply []).2.1

theorem answer_awayReply (hs : s.overdue = [awayEntry.id]) (w : List Text) (c : Call) :
    (s.remote StillClock).answer w c (awayReply w c).1 (awayReply w c).2 := by
  refine ⟨rfl, ?_, ?_⟩
  · cases c with
    | uuid =>
      show changeKind ++ underscore :: [0] ∉ s.overdue
      rw [hs]
      decide
    | _ => trivial
  · cases c with
    | now => rfl
    | _ => trivial

/-- **A pull lifts the fence.**  The device comes back after 31 days with one queued change,
still connected, and the limit is 30 days.  It pulls, then it flushes: the change is
published. -/
theorem pull_lifts_the_fence :
    ∃ s, Reached (fun _ _ => True) (fun _ => StillClock) (start awayDevice) s ∧
      awayEntry.id ∈ s.leaked := by
  let pulled := awayState.after .pull pulledDevice []
  have haway : Reached (fun _ _ => True) (fun _ => StillClock) (start awayDevice) awayState :=
    .moment .start overdue_awayDevice
  have hpull : Reached (fun _ _ => True) (fun _ => StillClock) (start awayDevice) pulled :=
    .call haway trivial
      (Prog.run_exec (fun _ => rfl) (answer_awayReply rfl) (pullNow awayDevice) [])
  refine ⟨_, .call hpull (a := .flush true) trivial
    (Prog.run_exec (fun _ => rfl) (answer_awayReply rfl) (flushQueued true pulledDevice) []), ?_⟩
  decide

/-- If the same device flushes first, the change goes into quarantine. -/
theorem flush_first_quarantines :
    ∃ s, Reached NoBlindPull Allowed (start awayDevice) s ∧ awayEntry.id ∈ s.overdue ∧
      Safe s ∧ queuedIds s.device = [] ∧ quarantinedIds s.device = [awayEntry.id] := by
  have haway : Reached NoBlindPull Allowed (start awayDevice) awayState :=
    .moment .start overdue_awayDevice
  let E := awayState.remote awayState.Allowed
  have hpointer : E.answer [] (.readFile .manifestPointer) (.ok (.pointer ⟨1, .manifest 1⟩)) [] :=
    ⟨rfl, trivial, trivial⟩
  have hmanifest : E.answer [] (.readFile (.rootFile (.manifest 1)))
      (.ok (.manifest awayManifest)) [] := by
    refine ⟨rfl, trivial, fun _ policy limit hpolicy hlimit => ?_, fun _ _ => .inr rfl⟩
    obtain rfl := some.inj hpolicy
    obtain rfl := some.inj hlimit
    decide
  have hnow : E.answer [] .now awayUntil [] := ⟨rfl, trivial, fun _ => overdue_awayDevice⟩
  obtain ⟨d', hrun, hqueue, hquarantine⟩ : ∃ d', Prog.Run E (flushQueued true awayDevice) []
      (.ok ()) d' [] ∧ queuedIds d' = [] ∧ quarantinedIds d' = [awayEntry.id] :=
    ⟨_, .ask rfl hpointer (.ask rfl hmanifest (.ask rfl hnow (.done _ _ _))), rfl, rfl⟩
  have hflushed := Reached.call haway (a := .flush true) trivial hrun
  exact ⟨_, hflushed, mem_singleton.mpr rfl, (fence_holds _ hflushed).1, hqueue, hquarantine⟩

end FenceState

end Interocitor
