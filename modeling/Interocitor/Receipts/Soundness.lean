import Interocitor.Receipts.Mesh

/-!
# Receipts stay behind rows

Receipts are written in three places: by a flush, before it publishes what it committed; by
a pull, after it has stored the rows; and by the restore of a snapshot, which takes over the
receipts of the device that made the snapshot.  Rows and receipts are separate records of
the store, and the process may stop between any two transactions.

Each method is shown to keep the mesh sound.  What it knows about its own store on the way,
the entries it is about to publish or the names it has merged, is the invariant in between.

* `receipts_sound`: in every reachable state, each receipt names a change that was queued
  somewhere in the mesh, and the ops of this change are among those that went into the rows,
  if no row is stored under a name that plain objects inherit.
* `constructor_row_is_lost`: otherwise `compact` leaves the row out of the snapshot.
-/

namespace Interocitor

open CodeUnits OrderedRecord Interaction List

namespace Mesh

variable {ι : Type} [DecidableEq ι] {α : Type} {i : ι} {w : Mesh ι} {f : LocalStore → LocalStore}
  {K : Annals → Traced → Prop} {s : Memory}

/-- A method keeps the mesh sound. -/
abbrev Keeping (i : ι) (m : Aw α) : Prop :=
  Proc.Keeps (party i) (fun _ : Memory => Knows i Nothing) m

/-- A method, for a device that knows `K`, and `L` after it. -/
abbrev Leads (i : ι) (K : Annals → Traced → Prop) (m : Aw α) (L : α → Annals → Traced → Prop) :
    Prop :=
  Proc.Leads (party i) Ok (fun _ w => K w.annals (w.stores i)) m
    fun a _ w => L a w.annals (w.stores i)

variable {m : Aw α}

theorem leads_of_keeps (h : Proc.Keeps (party i) (fun _ : Memory => Knows i K) m) :
    Leads i K m fun _ => K := Proc.leads_of_keeps h

variable {L : α → Annals → Traced → Prop}

theorem leads_bind {β : Type} {m : Aw β} {g : β → Aw α} {M : β → Annals → Traced → Prop}
    (hm : Leads i K m M) (hg : ∀ b, Leads i (M b) (g b) L) :
    Leads i K (m >>= g) L := Proc.leads_bind hm hg

theorem leads_pure (a : α) (h : ∀ A t, K A t → L a A t) :
    Leads i K (pure a) L := Proc.leads_pure a fun _ _ _ hk => h _ _ hk

theorem leads_get {g : Memory → Aw α} (h : ∀ s, Leads i K (g s) L) : Leads i K (Proc.get >>= g) L :=
  Proc.leads_get fun s => (h s).conseq (fun _ _ _ hk => hk.2) fun _ _ _ _ hl => hl

theorem leads_fail (e : EngineError) :
    Leads i K (Aw.fail e : Aw α) L := Aw.leads_fail e

theorem Leads.conseq {N : Annals → Traced → Prop} {M : α → Annals → Traced → Prop}
    (h : Leads i K m M) (hpre : ∀ A t, DeviceOk A t → N A t → K A t)
    (hpost : ∀ a A t, M a A t → L a A t) : Leads i N m L :=
  Proc.Leads.conseq h (fun _ _ hok hn => hpre _ _ (hok.devices i) hn) fun a _ _ _ hm =>
    hpost a _ _ hm

theorem Leads.keeping (h : Leads i Nothing m fun _ => Nothing) : Keeping i m :=
  fun s w hw => Proc.wp_mono (h s w hw.1 hw.2) (fun _ _ _ hq => hq) fun _ _ _ hok => ⟨hok, trivial⟩

theorem leads_forget (h : Keeping i m) : Leads i K m fun _ => Nothing :=
  (leads_of_keeps h).conseq (fun _ _ _ _ => trivial) fun _ _ _ hl => hl

theorem leads_transact (hK : Monotone K) {L : LocalStore → Annals → Traced → Prop}
    (hf : ∀ A t, DeviceOk A t → K A t → DeviceOk (A.record (t.after f)) (t.after f) ∧
      L t.toLocalStore (A.record (t.after f)) (t.after f)) :
    Leads i K (Aw.transact f) L := by
  intro s w hok hk
  refine wp_transact_knows hK ⟨hok, hk⟩ (fun A t hd hk => (hf A t hd hk).1) ?_ ?_
  · intro w₁ h₁ hok
    refine ⟨hok, ?_⟩
    show L _ _ (Function.update w₁.stores i _ i)
    rw [Function.update_self]
    exact (hf _ _ (h₁.1.devices i) h₁.2).2
  · exact fun w' hok => hok

theorem leads_find (hK : Monotone K) (hstable : Stable K) :
    Leads i K (Aw.transact id) fun found A t => K A t ∧ t.toLocalStore = found := by
  refine leads_transact hK fun A t hd hk => ?_
  exact ⟨hd.bookkeeping bookkeeping_id, hstable _ _ _ bookkeeping_id hk, rfl⟩

theorem leads_read (hK : Monotone K) (hstable : Stable K) {g : LocalStore → α} :
    Leads i K (Aw.read g) fun a A t => K A t ∧ g t.toLocalStore = a := by
  refine leads_bind (leads_find hK hstable) fun found => leads_pure _ ?_
  rintro A t ⟨hk, rfl⟩
  exact ⟨hk, rfl⟩

theorem leads_write (hK : Monotone K) {L : Unit → Annals → Traced → Prop}
    (hf : ∀ A t, DeviceOk A t → K A t → DeviceOk (A.record (t.after f)) (t.after f) ∧
      L () (A.record (t.after f)) (t.after f)) :
    Leads i K (Aw.write f) L :=
  leads_bind (leads_transact hK (L := fun _ => L ()) hf) fun _ => leads_pure _ fun _ _ h => h

theorem monotone_deviceOk : Monotone DeviceOk := fun _ _ _ hAB h => h.mono hAB

theorem stable_deviceOk : Stable DeviceOk := fun _ _ _ hf h => h.bookkeeping hf

theorem leads_now (hK : Monotone K) : Leads i K Aw.now fun _ => K :=
  leads_of_keeps (Proc.keeps_ask (askKeeps_harmless hK trivial))

theorem leads_generateId (hK : Monotone K) (kind : Text) :
    Leads i K (Aw.generateId kind) fun _ => K :=
  leads_of_keeps (Aw.keeps_remotely fun n =>
    keeps_generateId (Aw.askKeeps_at n (askKeeps_harmless (c := .uuid) hK trivial)))

theorem leads_config : Leads i K Aw.config fun _ => K := fun _ _ hok hk => ⟨hok, hk⟩

theorem leads_memory (g : Memory → Memory) :
    Leads i K (Proc.modify g : Aw Unit) fun _ => K := fun _ _ hok hk => ⟨hok, hk⟩

theorem leads_when {c : Prop} [Decidable c] {m : Aw Unit} {L : Unit → Annals → Traced → Prop}
    (hm : c → Leads i K m L) (hskip : ¬c → ∀ A t, K A t → L () A t) : Leads i K (Proc.when c m) L :=
  Proc.leads_when hm fun hc _ _ _ hk => hskip hc _ _ hk

theorem leads_attempt {g : EngineError → Aw α} (hm : Leads i K m L)
    (hg : ∀ e, Leads i Nothing (g e) L) : Leads i K (Aw.attempt m g) L :=
  Aw.leads_attempt hm hg

/-! ## Local writes -/

theorem keeping_flushPendingBatch : Keeping i Aw.flushPendingBatch := by
  refine Leads.keeping (leads_bind (leads_transact monotone_nothing (L := fun _ => Nothing)
    fun A t hd _ => ⟨deviceOk_promote hd, trivial⟩) fun found => ?_)
  exact leads_when (fun _ => leads_memory _) fun _ _ _ h => h

/-- The store is the one that was found. -/
def Found (found : LocalStore) (_ : Annals) (t : Traced) : Prop := t.toLocalStore = found

theorem monotone_found (found : LocalStore) : Monotone (Found found) := fun _ _ _ _ h => h

variable {found : LocalStore}

theorem leads_commitLocalMutation {row : Row} {op : Op} (hlc : Text)
    (hrow : ∀ A past log, Built snapshotTables A found.rows past log →
      Built snapshotTables A (found.putRow row).rows (found.rows :: past) (log ++ [op])) :
    Leads i (Found found) (Aw.commitLocalMutation row op hlc) fun _ => Nothing := by
  refine leads_bind (leads_generateId (monotone_found found) _) fun id => ?_
  refine leads_bind (leads_now (monotone_found found)) fun ts => ?_
  refine leads_bind leads_config fun config => ?_
  refine leads_bind (leads_write (monotone_found found) (L := fun _ => Nothing) ?_) fun _ => ?_
  · rintro A t hd rfl
    exact ⟨deviceOk_commit rfl (hrow A t.past) hd, trivial⟩
  refine leads_bind (leads_memory _) fun _ => leads_get fun s => ?_
  exact leads_when (fun _ => leads_forget keeping_flushPendingBatch) fun _ _ _ h => h

theorem leads_storeMutation {row : Row}
    (hrow : ∀ A past log, Built snapshotTables A found.rows past log →
      Built snapshotTables A (found.putRow row).rows (found.rows :: past)
        (log ++ (rowToSyncOp row).toList)) :
    Leads i (Found found) (Aw.storeMutation row) fun _ => Nothing := by
  rw [Aw.storeMutation]
  split
  · rename_i op hlc hop _
    refine leads_commitLocalMutation hlc fun A past log hbuilt => ?_
    have hbuilt' := hrow A past log hbuilt
    rwa [hop] at hbuilt'
  · refine leads_write (monotone_found found) ?_
    rintro A t hd rfl
    exact ⟨deviceOk_putRow (hrow A t.past) hd, trivial⟩

theorem leads_tick (hK : Monotone K) : Leads i K Aw.tick fun _ => K := by
  refine leads_bind (leads_now hK) fun wall => ?_
  refine leads_bind (leads_memory _) fun _ => ?_
  exact leads_get fun s => leads_pure _ fun _ _ h => h

theorem keeping_putNow (table rowId : Text) (columns : List (Text × JsValue)) :
    Keeping i (Aw.putNow table rowId columns) := by
  refine Leads.keeping (leads_bind
    (leads_of_keeps (Aw.keeps_refreshHlcFromLocal ambient_nothing)) fun _ => ?_)
  refine leads_bind (leads_find monotone_nothing stable_nothing) fun found => ?_
  have hfound : Leads i (Found found) (do
      let stamp ← Aw.tick
      let s ← Proc.get
      Aw.storeMutation (putRowOf (s.over found) table rowId columns stamp)) fun _ => Nothing := by
    refine leads_bind (leads_tick (monotone_found found)) fun stamp => leads_get fun s => ?_
    exact leads_storeMutation fun A past log hbuilt =>
      Built.put (d := s.over found) table rowId columns stamp hbuilt
  exact hfound.conseq (fun _ _ _ h => h.2) fun _ _ _ h => h

theorem keeping_deleteNow (table rowId : Text) : Keeping i (Aw.deleteNow table rowId) := by
  refine Leads.keeping (leads_bind
    (leads_of_keeps (Aw.keeps_refreshHlcFromLocal ambient_nothing)) fun _ => ?_)
  -- the row that is deleted is a row of the store that was found
  refine leads_bind (M := fun current _ t => t.getRow table rowId = current)
    ((leads_read monotone_nothing stable_nothing).conseq (fun _ _ _ h => h) fun _ _ _ h => h.2)
    fun current => ?_
  split
  · exact leads_pure _ fun _ _ _ => trivial
  · rename_i row
    split
    · exact leads_pure _ fun _ _ _ => trivial
    · have hmono : Monotone fun _ t => t.getRow table rowId = some row :=
        fun _ _ _ _ h => h
      refine leads_bind (leads_tick hmono) fun stamp => leads_get fun s => ?_
      intro s' w hok hrow
      have hstore : Leads i (Found (w.stores i).toLocalStore)
          (Aw.storeMutation (tombstoneOf row s.config.deviceId stamp)) fun _ => Nothing :=
        leads_storeMutation fun _ _ _ hbuilt => .delete _ _ hrow hbuilt
      exact hstore s' w hok rfl

/-! ## Flush -/

theorem leads_quarantineExpiredOfflineWrites (hK : Monotone K) (hstable : Stable K) :
    Leads i K Aw.quarantineExpiredOfflineWrites fun expired A t =>
      expired = false → K A t := by
  have hambient := ambient (i := i) hK hstable
  refine leads_bind (leads_now hK) fun now => ?_
  refine leads_bind (leads_of_keeps (Aw.keeps_offlineRetentionState hambient now)) fun state => ?_
  split
  · refine leads_bind (leads_forget keeping_flushPendingBatch) fun _ => ?_
    refine leads_bind (leads_of_keeps (Aw.keeps_reading ambient_nothing _)) fun queued => ?_
    refine leads_bind (leads_of_keeps (Aw.keeps_getMeta ambient_nothing _)) fun existing => ?_
    refine leads_bind (leads_of_keeps (Aw.keeps_setMeta ambient_nothing fun _ => rfl)) fun _ => ?_
    refine leads_bind (leads_of_keeps (Aw.keeps_setMeta ambient_nothing fun _ => rfl)) fun _ => ?_
    refine leads_bind (leads_write monotone_nothing (L := fun _ => Nothing) ?_) fun _ => ?_
    · exact fun A t hd _ => ⟨deviceOk_acknowledge hd _, trivial⟩
    · exact leads_bind (leads_memory _) fun _ => leads_pure _ fun _ _ _ hf => absurd hf (by simp)
  · exact leads_pure _ fun _ _ h _ => h

/-- Entries are in the outbox. -/
def Queued (entries : List ChangeEntry) (_ : Annals) (t : Traced) : Prop :=
  ∀ entry ∈ entries, entry ∈ t.outbox

theorem monotone_queued (entries : List ChangeEntry) : Monotone (Queued entries) :=
  fun _ _ _ _ h => h

theorem stable_queued (entries : List ChangeEntry) : Stable (Queued entries) := by
  intro A t f hf h entry hentry
  show entry ∈ (f t.toLocalStore).outbox
  rw [(hf t.toLocalStore).2.1]
  exact h entry hentry

/-- The rows hold what the receipts and a ledger say, and entries are in the outbox. -/
def Observed (ledger : ChangeObservationLedger) (entries : List ChangeEntry)
    (A : Annals) (t : Traced) : Prop :=
  Holds A t (receiptsOf t.toLocalStore ++ ledger.seenChangeFiles) ∧ Queued entries A t

theorem monotone_observed (ledger : ChangeObservationLedger) (entries : List ChangeEntry) :
    Monotone (Observed ledger entries) :=
  fun _ _ _ hAB h => ⟨h.1.mono hAB fun _ hn => hn, h.2⟩

theorem stable_observed (ledger : ChangeObservationLedger) (entries : List ChangeEntry) :
    Stable (Observed ledger entries) := by
  intro A t f hf h
  refine ⟨Holds.mono (A.le_record _) ?_ (h.1.bookkeeping hf), stable_queued entries A t f hf h.2⟩
  show receiptsOf (f t.toLocalStore) ++ _ ⊆ _
  rw [receiptsOf_bookkeeping hf]
  exact List.Subset.refl _

theorem leads_persist (ledger : ChangeObservationLedger) (entries : List ChangeEntry) :
    Leads i (Observed ledger entries) (Aw.persist ledger) fun _ => Queued entries := by
  have hmono := monotone_observed ledger entries
  refine leads_bind (leads_of_keeps (Aw.keeps_getMeta (ambient hmono (stable_observed _ _)) _))
    fun generation => ?_
  split
  · exact leads_pure _ fun _ _ h => h.2
  refine leads_bind (leads_read hmono (stable_observed _ _)) fun durable => ?_
  split
  · exact leads_pure _ fun _ _ h => h.1.2
  · rename_i merged hmerged
    refine leads_bind (leads_write (L := fun _ => Queued entries)
      (fun _ _ _ hc h => ⟨hmono _ _ _ hc h.1, h.2⟩) ?_) fun _ => leads_pure _ fun _ _ h => h
    rintro A t hd ⟨⟨hholds, hqueued⟩, hdurable⟩
    refine ⟨.of_holds (Holds.mono (A.le_record _) ?_ (hholds.after rfl fun _ h => h)), hqueued⟩
    -- the receipts that are written are the union of both
    show ∀ name ∈ receipts (some merged), name ∈ _
    intro name hname
    rw [ChangeObservationLedger.mem_persist hmerged, ← hdurable] at hname
    exact mem_append.mpr hname

theorem mem_observeFlushed {entries : List ChangeEntry} {ledger ledger' : ChangeObservationLedger}
    (h : observeFlushed entries ledger = .ok ledger') {name : Text}
    (hname : name ∈ ledger'.seenChangeFiles) :
    name ∈ ledger.seenChangeFiles ++ entries.map changeFileName := by
  induction entries generalizing ledger with
  | nil =>
    obtain rfl := Except.ok.inj h
    exact mem_append_left _ hname
  | cons entry entries ih =>
    rw [map_cons]
    rw [observeFlushed] at h
    split at h
    · rcases mem_append.mp (ih h) with hold | hnew
      · exact mem_append_left _ hold
      · exact mem_append_right _ (mem_cons_of_mem _ hnew)
    · split at h
      · exact absurd h (by simp)
      · rename_i ledger₁ hobserve
        rcases mem_append.mp (ih h) with hold | hnew
        · rcases (ChangeObservationLedger.mem_observe hobserve).mp hold with rfl | hold
          · exact mem_append_right _ mem_cons_self
          · exact mem_append_left _ hold
        · exact mem_append_right _ (mem_cons_of_mem _ hnew)

theorem leads_recordFlushedChanges (entries : List ChangeEntry) :
    Leads i (Queued entries) (Aw.recordFlushedChanges entries) fun _ => Queued entries := by
  refine leads_bind (leads_read (monotone_queued entries) (stable_queued entries)) fun stored => ?_
  split
  · exact leads_fail _
  · rename_i ledger hledger
    have hpersist := (leads_persist (i := i) ledger entries).conseq
      (N := fun A t => Queued entries A t ∧ t.metadata.changeObservation = stored) ?_
      fun _ _ _ h => h
    · refine leads_bind hpersist fun persisted => ?_
      split
      · exact leads_pure _ fun _ _ h => h
      · exact leads_fail _
    · rintro A t hd ⟨hqueued, hstored⟩
      refine ⟨(hd.holds.queued hqueued hd.known).mono le_rfl fun name hname => ?_, hqueued⟩
      rcases mem_append.mp hname with hold | hnew
      · exact mem_append_left _ hold
      · have hmem := mem_observeFlushed hledger hnew
        rwa [ChangeObservationLedger.seenChangeFiles_load, ← hstored] at hmem

theorem askKeeps_changeFile {entries : List ChangeEntry} {entry : ChangeEntry}
    (hentry : entry ∈ entries) (meshId : Text) :
    Proc.AskKeeps (party i) (fun _ : Memory => Knows i (Queued entries))
      (.remote none (.writeFile (.change (changeFileName entry)) (.change meshId entry))) := by
  refine askKeeps_request (monotone_queued entries) fun w rep remote h htruthful => ?_
  have hknown : entry ∈ w.annals.changes := (h.1.devices i).known entry (h.2 entry hentry)
  rcases applied_or_not htruthful with rfl | rfl
  · exact h.1.remote
  · refine h.1.remote.write (fun name meshId' entry' hpath hcontent => ?_) fun _ _ hcontent => ?_
    · obtain ⟨-, rfl⟩ := Content.change.inj hcontent
      exact ⟨ObjectPath.change.inj hpath, hknown⟩
    · exact absurd hcontent (by simp)

theorem leads_flushToAdapter (manifest : Option Manifest) (entries : List ChangeEntry) :
    Leads i (Queued entries) (Aw.remotely none (flushToAdapter manifest entries)) fun _ =>
      Queued entries := by
  have hambient := ambient (i := i) (monotone_queued entries) (stable_queued entries)
  refine leads_of_keeps (Aw.keeps_remotely fun n => ?_)
  have hquiet := Aw.quiet_at hambient n
  refine Proc.keeps_bind (keeps_ensureFolder (hquiet.ensureFolder _)) fun _ => ?_
  refine Proc.keeps_bind (Proc.keeps_forEach fun entry hentry => ?_) fun _ => ?_
  · rw [writeChangeFile]
    split
    · exact keeps_fail _
    · exact keeps_writeFile (Aw.askKeeps_at n (askKeeps_changeFile hentry _))
  refine Proc.keeps_bind (Proc.keeps_when (keeps_writeHead hquiet (fun _ => ?_) _)) fun _ => ?_
  · exact Aw.askKeeps_at n (hambient.harmless (.writeFile changesHead (.head _)) trivial)
  · exact keeps_upsertDeviceMetadata hquiet (Aw.deviceRecords_at hambient n) _

theorem leads_flushPrimary (manifest : Option Manifest) (entries : List ChangeEntry) :
    Leads i (Queued entries) (Aw.flushPrimary manifest entries) fun _ => Queued entries := by
  refine leads_bind (leads_recordFlushedChanges entries) fun _ => ?_
  refine leads_bind (leads_flushToAdapter manifest entries) fun _ => leads_get fun s => ?_
  have hambient := ambient (i := i) (monotone_queued entries) (stable_queued entries)
  exact leads_of_keeps (Proc.keeps_forEach fun replica _ => Aw.keeps_mirror hambient _ _ _)

theorem leads_publish (entries : List ChangeEntry) :
    Leads i (Queued entries) (Aw.publish entries) fun _ => Nothing := by
  refine leads_get fun s => leads_bind (leads_flushPrimary _ entries) fun _ => ?_
  refine leads_bind (leads_write (monotone_queued entries) (L := fun _ => Nothing) ?_) fun _ => ?_
  · exact fun A t hd _ => ⟨deviceOk_acknowledge hd _, trivial⟩
  · exact leads_of_keeps (Aw.keeps_markSuccessfulRemoteSync ambient_nothing)

theorem keeping_doFlush : Keeping i Aw.doFlush := by
  refine Leads.keeping (leads_get fun s => ?_)
  split
  · exact leads_pure _ fun _ _ h => h
  refine leads_bind (M := fun entries => Queued entries)
    ((leads_read monotone_nothing stable_nothing).conseq (fun _ _ _ h => h) ?_) fun entries => ?_
  · rintro entries A t ⟨-, rfl⟩ entry hentry
    exact hentry
  split
  · exact leads_bind (leads_memory _) fun _ => leads_pure _ fun _ _ _ => trivial
  have hambient := ambient (i := i) (monotone_queued entries) (stable_queued entries)
  refine leads_bind (leads_of_keeps (Aw.keeps_doLoadOrCreateManifest hambient _ _)) fun _ => ?_
  refine leads_bind (leads_quarantineExpiredOfflineWrites (monotone_queued entries)
    (stable_queued entries)) fun expired => ?_
  split
  · exact leads_pure _ fun _ _ _ => trivial
  · rename_i hexpired
    have hpublish : Leads i (Queued entries) (do
        Proc.modify fun s => { s with pendingCount := 0 }
        Aw.attempt (Aw.publish entries) fun e => do
          Aw.handleRemoteAccessError e
          Proc.modify fun s => { s with pendingCount := entries.length }
          Aw.fail e
        pure s.pendingCount : Aw ℕ) fun _ => Nothing := by
      refine leads_bind (leads_memory _) fun _ => ?_
      refine leads_bind (leads_attempt (leads_publish entries) fun e => ?_) fun _ =>
        leads_pure _ fun _ _ h => h
      refine leads_bind (leads_of_keeps (Aw.keeps_handleRemoteAccessError ambient_nothing.memory e))
        fun _ => ?_
      exact leads_bind (leads_memory _) fun _ => leads_fail _
    exact hpublish.conseq (fun _ _ _ h => h (Bool.eq_false_iff.mpr hexpired)) fun _ _ _ h => h

/-! ## Pull -/

/-- An object that was read is one of a sound remote. -/
def Read (path : ObjectPath) (content : Content) (A : Annals) : Prop :=
  ∃ objects, RemoteOk A objects ∧ objects.get path = some content

theorem Read.mono {path : ObjectPath} {content : Content} {A B : Annals} (hAB : A ≤ B)
    (h : Read path content A) : Read path content B := by
  obtain ⟨objects, hok, hget⟩ := h
  exact ⟨objects, hok.mono hAB, hget⟩

theorem leads_readFile (hK : Monotone K) (path : ObjectPath) :
    Leads i K (Aw.remotely none (Eng.readFile path)) fun content A t =>
      K A t ∧ Read path content A := by
  intro s w hok hk
  rw [Aw.wp_remotely, wp_readFile]
  intro w₁ hr rep w₂ hans
  have h₁ : Knows i K w₁ := Knows.rely hK ⟨hok, hk⟩ hr
  obtain ⟨remote, ⟨rfl, hread⟩, rfl⟩ := hans
  have hguar : (party i).guar w₁ w₁ := ⟨h₁.1, fun j _ => ⟨rfl, le_rfl⟩⟩
  refine ⟨hguar, ?_⟩
  cases rep with
  | error e => cases e <;> exact h₁.1
  | ok content => exact ⟨h₁.1, h₁.2, w₁.remote.objects, h₁.1.remote, hread⟩

theorem leads_decodeChangePayload (hK : Monotone K) (hstable : Stable K)
    (manifest : Option Manifest) (content : Content) :
    Leads i K (Aw.decodeChangePayload manifest content) fun entry A t =>
      K A t ∧ ∃ meshId, content = .change meshId entry := by
  unfold Aw.decodeChangePayload
  split
  · rename_i meshId entry
    refine leads_bind (leads_of_keeps (Aw.keeps_assertExpectedMeshId (ambient hK hstable) _ _))
      fun _ => leads_pure _ fun _ _ h => ⟨h, meshId, rfl⟩
  · exact leads_fail _
  · exact leads_fail _

/-- Rows are what an entry changes in a store. -/
def Changes (entry : ChangeEntry) (affected : List Row) (store : LocalStore) : Prop :=
  ∃ schemaVersion schema tables,
    applyChangeEntry (cachedRows store entry.ops) entry schemaVersion schema =
      .ok (affected, tables)

theorem leads_affectedRows (hK : Monotone K) (hstable : Stable K) (manifest : Option Manifest)
    (entry : ChangeEntry) :
    Leads i K (Aw.affectedRows manifest entry) fun affected A t =>
      K A t ∧ Changes entry affected t.toLocalStore := by
  refine leads_bind (leads_find hK hstable) fun found => leads_bind leads_config fun config => ?_
  dsimp only
  split
  · exact leads_fail _
  · rename_i affected tables hmerge
    refine leads_pure _ ?_
    rintro A t ⟨hk, rfl⟩
    exact ⟨hk, _, _, tables, hmerge⟩

/-- A change that is known, beside what is held already. -/
def Pulled (ledger : ChangeObservationLedger) (entry : ChangeEntry) (A : Annals) (t : Traced) :
    Prop :=
  Observed ledger [] A t ∧ entry ∈ A.changes

theorem monotone_pulled (ledger : ChangeObservationLedger) (entry : ChangeEntry) :
    Monotone (Pulled ledger entry) :=
  fun _ _ _ hAB h => ⟨monotone_observed _ _ _ _ _ hAB h.1, hAB.1 h.2⟩

theorem stable_pulled (ledger : ChangeObservationLedger) (entry : ChangeEntry) :
    Stable (Pulled ledger entry) :=
  fun A _ _ hf h => ⟨stable_observed _ _ _ _ _ hf h.1, (A.le_record _).1 h.2⟩

/-- A change that is held, beside what was held already. -/
def Merged (ledger : ChangeObservationLedger) (entry : ChangeEntry) (A : Annals) (t : Traced) :
    Prop :=
  Holds A t (receiptsOf t.toLocalStore ++ ledger.seenChangeFiles ++ [changeFileName entry])

/-- The rows of a change are stored before its name is observed. -/
theorem leads_putAffected (ledger : ChangeObservationLedger) (entry : ChangeEntry)
    (affected : List Row) :
    Leads i (fun A t => Pulled ledger entry A t ∧ Changes entry affected t.toLocalStore)
      (Proc.when (affected.isEmpty = false) (Aw.write fun store => store.putRows affected))
      fun _ => Merged ledger entry := by
  have hmono := monotone_pulled ledger entry
  refine leads_when (fun _ => leads_write ?_ ?_) ?_
  · exact fun A B t hAB h => ⟨hmono _ _ _ hAB h.1, h.2⟩
  · rintro A t hd ⟨hpulled, schemaVersion, schema, tables, hmerge⟩
    have hreceipts : receiptsOf (t.putRows affected) = receiptsOf t.toLocalStore := by
      rw [LocalStore.putRows_eq]
      rfl
    have hqueued : (t.putRows affected).queued = t.queued := by
      rw [LocalStore.putRows_eq]
      rfl
    have hheld : Holds A (t.after fun store => store.putRows affected)
        (receiptsOf t.toLocalStore ++ ledger.seenChangeFiles ++ [changeFileName entry]) :=
      hpulled.1.1.logged hqueued (fun log hbuilt => .merge hmerge hbuilt) hpulled.2
    have hmerged : Merged ledger entry (A.record (t.after fun store => store.putRows affected))
        (t.after fun store => store.putRows affected) := by
      refine hheld.mono (A.le_record _) ?_
      show receiptsOf (t.putRows affected) ++ _ ++ _ ⊆ _
      rw [hreceipts]
      exact List.Subset.refl _
    refine ⟨.of_holds (hmerged.mono le_rfl fun name hname => ?_), hmerged⟩
    exact mem_append_left _ (mem_append_left _ hname)
  · -- nothing is written, but the change is in the rows all the same
    rintro hempty A t ⟨hpulled, schemaVersion, schema, tables, hmerge⟩
    obtain rfl : affected = [] := List.isEmpty_iff.mp (by simpa using hempty)
    exact hpulled.1.1.logged rfl (fun log hbuilt => .mergeNothing hmerge hbuilt) hpulled.2

theorem Merged.observed {ledger ledger' : ChangeObservationLedger} {entry : ChangeEntry}
    {A : Annals} {t : Traced} (h : Merged ledger entry A t)
    (hobserve : ledger.observe (changeFileName entry) entry.hlc = some ledger') :
    Observed ledger' [] A t := by
  refine ⟨h.mono le_rfl fun name hname => ?_, fun _ hq => absurd hq not_mem_nil⟩
  rcases mem_append.mp hname with hold | hnew
  · exact mem_append_left _ (mem_append_left _ hold)
  · rcases (ChangeObservationLedger.mem_observe hobserve).mp hnew with rfl | hseen
    · exact mem_append_right _ (mem_singleton.mpr rfl)
    · exact mem_append_left _ (mem_append_right _ hseen)

theorem leads_pullFile (manifest : Option Manifest) (name : Text)
    (progress : Hlc × ChangeObservationLedger) :
    Leads i (Observed progress.2 []) (Aw.pullFile manifest name progress) fun result =>
      Observed result.2 [] := by
  refine leads_bind (leads_readFile (monotone_observed progress.2 []) _) fun content => ?_
  refine leads_bind (leads_decodeChangePayload ?_ ?_ manifest content) fun entry => ?_
  · exact fun _ _ _ hAB h => ⟨monotone_observed _ _ _ _ _ hAB h.1, h.2.mono hAB⟩
  · exact fun A _ f hf h => ⟨stable_observed _ _ _ _ _ hf h.1, h.2.mono (A.le_record _)⟩
  by_cases hname : changeFileName entry = name
  · subst hname
    refine Leads.conseq (K := Pulled progress.2 entry) ?_ ?_ fun _ _ _ h => h
    · refine leads_bind (leads_now (monotone_pulled _ _)) fun wall => ?_
      dsimp only
      refine leads_bind (leads_affectedRows (monotone_pulled _ _) (stable_pulled _ _) manifest entry)
        fun affected => ?_
      refine leads_bind (leads_putAffected _ _ affected) fun _ => ?_
      split
      · exact leads_fail _
      · rename_i ledger hledger
        exact leads_pure _ fun A t h => h.observed hledger
    · rintro A t - ⟨⟨hobserved, objects, hok, hget⟩, meshId, rfl⟩
      exact ⟨hobserved, (hok.change _ _ _ hget).2⟩
  · -- no file holds a change of another name
    rintro s w - ⟨⟨-, objects, hok, hget⟩, meshId, rfl⟩
    exact absurd (hok.change _ _ _ hget).1 hname

theorem leads_pullFiles (manifest : Option Manifest) (files : List Text)
    (progress : Hlc × ChangeObservationLedger) :
    Leads i (Observed progress.2 []) (Aw.pullFiles manifest files progress) fun result =>
      Observed result.2 [] := by
  induction files generalizing progress with
  | nil => exact leads_pure _ fun _ _ h => h
  | cons name rest ih =>
    refine leads_bind (leads_attempt (leads_pullFile manifest name progress) fun e => ?_) ih
    exact leads_bind (leads_of_keeps (Aw.keeps_poisonRemote ambient_nothing e)) fun _ =>
      leads_fail _

theorem keeping_pull {loadManifest : Aw Unit} (hload : Keeping i loadManifest) :
    Keeping i (Aw.pull loadManifest) := by
  refine Leads.keeping (leads_get fun s => leads_bind (leads_forget hload) fun _ => ?_)
  -- a ledger starts with the receipts that are there
  refine leads_bind (M := fun ledger => Observed ledger [])
    ((leads_read monotone_deviceOk stable_deviceOk).conseq (fun _ _ hd _ => hd) ?_)
    fun ledger => ?_
  · rintro ledger A t ⟨hd, rfl⟩
    refine ⟨hd.holds.mono le_rfl fun name hname => ?_, fun _ h => absurd h not_mem_nil⟩
    rcases mem_append.mp hname with hname | hname
    · exact hname
    · rwa [ChangeObservationLedger.seenChangeFiles_load] at hname
  have hambient := ambient (i := i) (monotone_observed ledger []) (stable_observed ledger [])
  refine leads_bind (leads_of_keeps (Aw.keeps_remotely fun n =>
    keeps_readHeadIfExists (Aw.quiet_at hambient n))) fun _ => ?_
  refine leads_bind (leads_of_keeps (Aw.keeps_remotely fun n =>
    keeps_listChangesIfExists (Aw.quiet_at hambient n))) fun files => ?_
  split
  · exact leads_pure _ fun _ _ _ => trivial
  · refine leads_bind (leads_pullFiles s.manifest _ (s.hlc, ledger)) fun progress => ?_
    refine leads_bind (leads_persist progress.2 []) fun _ => ?_
    refine leads_bind (leads_forget (Aw.keeps_setMeta ambient_nothing fun _ => rfl)) fun _ => ?_
    exact leads_pure _ fun _ _ _ => trivial

/-! ## Compaction -/

/-- What a snapshot of a store covers, whatever happens to the store. -/
def Captured (found : LocalStore) (names : List Text) (A : Annals) (_ : Traced) : Prop :=
  ∃ past log, (found.rows, past) ∈ A.states ∧ Built snapshotTables A found.rows past log ∧
    ∀ name ∈ names, Receipted A.changes log name

theorem monotone_captured (found : LocalStore) (names : List Text) :
    Monotone (Captured found names) := by
  rintro A B t hAB ⟨past, log, hstate, hbuilt, hnames⟩
  exact ⟨past, log, hAB.2 hstate, hbuilt.mono hAB, fun name hname => (hnames name hname).mono hAB⟩

/-- A snapshot of a store may be written if the rows hold what it covers. -/
theorem askKeeps_snapshot {names : List Text} {snapshot : Snapshot}
    (htables : snapshot.tables = snapshotTables found.getAllRows)
    (hcovered : snapshot.coveredChangeFiles = some names) (path : ObjectPath) (meshId : Text) :
    Proc.AskKeeps (party i) (fun _ : Memory => Knows i (Captured found names))
      (.remote none (.writeFile path (.snapshot meshId snapshot))) := by
  refine askKeeps_request (monotone_captured found names) fun w rep remote h htruthful => ?_
  rcases applied_or_not htruthful with rfl | rfl
  · exact h.1.remote
  · refine h.1.remote.write (fun name meshId' entry' hpath hcontent => ?_) fun _ _ hcontent => ?_
    · exact absurd hcontent (by simp)
    · obtain ⟨-, rfl⟩ := Content.snapshot.inj hcontent
      obtain ⟨past, log, hstate, hbuilt, hnames⟩ := h.2
      refine ⟨found.rows, past, log, hstate, hbuilt, htables, fun name hname => hnames name ?_⟩
      rwa [hcovered, Option.getD_some] at hname

theorem keeping_compactWith (manifest : Manifest) (hlc : Hlc) (retention : RetentionPolicy)
    {pull : Aw Unit} (hpull : Keeping i pull) :
    Keeping i (Aw.compactWith manifest hlc retention pull) := by
  refine Leads.keeping (leads_bind leads_config fun config => ?_)
  split
  · exact leads_fail _
  refine leads_bind (leads_forget hpull) fun _ => ?_
  -- what is covered is what the receipts say
  refine leads_bind (M := fun covered A t => DeviceOk A t ∧
      ∀ name ∈ covered, name ∈ receiptsOf t.toLocalStore)
    ((leads_read monotone_deviceOk stable_deviceOk).conseq (fun _ _ hd _ => hd) ?_)
    fun covered => ?_
  · rintro covered A t ⟨hd, rfl⟩
    refine ⟨hd, fun name hname => ?_⟩
    rwa [ChangeObservationLedger.mem_capturedChangeFileNames,
      ChangeObservationLedger.seenChangeFiles_load] at hname
  have hmono : Monotone fun A t => DeviceOk A t ∧
      ∀ name ∈ covered, name ∈ receiptsOf t.toLocalStore :=
    fun _ _ _ hAB h => ⟨h.1.mono hAB, h.2⟩
  have hstable : Stable fun A t => DeviceOk A t ∧
      ∀ name ∈ covered, name ∈ receiptsOf t.toLocalStore := by
    intro A t f hf h
    refine ⟨h.1.bookkeeping hf, fun name hname => ?_⟩
    show name ∈ receiptsOf (f t.toLocalStore)
    rw [receiptsOf_bookkeeping hf]
    exact h.2 name hname
  refine leads_bind (leads_now hmono) fun now => ?_
  refine leads_bind (M := fun found => Captured found covered)
    ((leads_find hmono hstable).conseq (fun _ _ _ h => h) ?_) fun found => ?_
  · rintro found A t ⟨⟨hd, hcovered⟩, rfl⟩
    obtain ⟨log, hbuilt, -, hnames⟩ := hd.holds
    exact ⟨t.past, log, hd.recorded, hbuilt, fun name hname => hnames name (hcovered name hname)⟩
  refine leads_bind (leads_generateId (monotone_captured found covered) _) fun snapshotId => ?_
  split
  · exact leads_fail _
  refine leads_bind (leads_of_keeps (Aw.keeps_remotely fun n =>
    keeps_writeFile (Aw.askKeeps_at n (askKeeps_snapshot rfl rfl _ _)))) fun _ => ?_
  exact leads_forget (Aw.keeps_installManifest ambient_nothing _ covered _)

/-! ## Restoring a snapshot -/

theorem leads_decodeSnapshotPayload (hK : Monotone K) (hstable : Stable K)
    (manifest : Option Manifest) (content : Content) :
    Leads i K (Aw.decodeSnapshotPayload manifest content) fun snapshot A t =>
      K A t ∧ ∃ meshId, content = .snapshot meshId snapshot := by
  unfold Aw.decodeSnapshotPayload
  split
  · rename_i meshId snapshot
    refine leads_bind (leads_of_keeps (Aw.keeps_assertExpectedMeshId (ambient hK hstable) _ _))
      fun _ => leads_pure _ fun _ _ h => ⟨h, meshId, rfl⟩
  · exact leads_fail _
  · exact leads_fail _

/-- Some tables of a snapshot are restored, and nothing else is there. -/
structure Restoring (snapshot : Snapshot) (front : List (Record Text Row)) (A : Annals)
    (t : Traced) : Prop where
  covers : Covers A snapshot
  rows : RowsRestored front t.rows t.past
  outbox : t.outbox = []
  pendingBatch : t.pendingBatch = none
  observation : t.metadata.changeObservation = none

section Restoring

variable {snapshot : Snapshot} {front : List (Record Text Row)} {A : Annals} {t : Traced}

theorem monotone_restoring : Monotone (Restoring snapshot front) :=
  fun _ _ _ hAB h => ⟨h.covers.mono hAB, h.rows, h.outbox, h.pendingBatch, h.observation⟩

theorem stable_restoring : Stable (Restoring snapshot front) := by
  intro A t f hf h
  obtain ⟨hrows, hout, hpending, hobservation⟩ := hf t.toLocalStore
  refine ⟨h.covers.mono (A.le_record _), ?_, hout.trans h.outbox, hpending.trans h.pendingBatch,
    hobservation.trans h.observation⟩
  show RowsRestored front (f t.toLocalStore).rows (t.rows :: t.past)
  rw [hrows]
  exact .kept h.rows

theorem Restoring.queued (h : Restoring snapshot front A t) : t.queued = [] := by
  rw [LocalStore.queued, h.outbox, h.pendingBatch]
  rfl

theorem Restoring.holds (h : Restoring snapshot front A t) :
    Holds A t (receiptsOf t.toLocalStore) := by
  refine ⟨[], .restoring h.rows, ?_, ?_⟩
  · rw [h.queued]
    exact fun _ hentry => absurd hentry not_mem_nil
  · rw [receiptsOf, h.observation]
    exact fun _ hname => absurd hname not_mem_nil

theorem Restoring.putRows (h : Restoring snapshot front A t) (rows : Record Text Row) :
    Restoring snapshot (front ++ [rows]) A (t.after fun store => store.putRows rows.values) := by
  refine ⟨h.covers, .table rows h.rows, ?_, ?_, ?_⟩
  · show (t.putRows rows.values).outbox = []
    rw [LocalStore.putRows_eq]
    exact h.outbox
  · show (t.putRows rows.values).pendingBatch = none
    rw [LocalStore.putRows_eq]
    exact h.pendingBatch
  · show (t.putRows rows.values).metadata.changeObservation = none
    rw [LocalStore.putRows_eq]
    exact h.observation

/-- The receipts of a snapshot, once all its rows are there. -/
theorem Restoring.restored {generation : ℕ} {stored : StoredObservationState}
    (h : Restoring snapshot snapshot.tables.values A t)
    (hstored : ChangeObservationLedger.restored generation snapshot.hlc
      (snapshot.coveredChangeFiles.getD []) = some stored) :
    Holds A t (receipts (some stored)) := by
  obtain ⟨there, before, log, hthere, hbuilt, htables, hnames⟩ := h.covers
  refine ⟨log, .restored hthere hbuilt (htables ▸ h.rows), ?_, fun name hname => hnames name ?_⟩
  · rw [h.queued]
    exact fun _ hentry => absurd hentry not_mem_nil
  · exact (ChangeObservationLedger.mem_restored hstored).mp hname

end Restoring

theorem leads_replaceLocalState (preserved : PreservedMeta) (snapshot : Snapshot) :
    Leads i (fun A _ => Covers A snapshot) (Aw.replaceLocalState preserved snapshot)
      fun _ => Restoring snapshot snapshot.tables.values := by
  refine leads_bind (leads_write (L := fun _ => Restoring snapshot [])
    (fun _ _ _ hAB h => h.mono hAB) fun A t _ hcovers => ?_) fun _ => ?_
  · exact ⟨deviceOk_empty, hcovers.mono (A.le_record _), .cleared, rfl, rfl, rfl⟩
  have hmono : Monotone (Restoring snapshot []) := monotone_restoring
  have hambient := ambient (i := i) hmono stable_restoring
  refine leads_bind (leads_of_keeps (Aw.keeps_writePreserved hambient preserved)) fun _ => ?_
  refine Proc.leads_forEach (J := fun front (_ : Memory) (w : Mesh ι) =>
    Restoring snapshot front w.annals (w.stores i)) fun front rows back hsplit => ?_
  refine leads_write (L := fun _ => Restoring snapshot (front ++ [rows])) monotone_restoring
    fun A t _ h => ?_
  have hput := monotone_restoring _ _ _
    (A.le_record (t.after fun store => store.putRows rows.values)) (h.putRows rows)
  exact ⟨.of_holds hput.holds, hput⟩

theorem keeping_restoreSnapshot (manifest : Option Manifest) (preserved : PreservedMeta) (hlc : Hlc)
    (path : ObjectPath) : Keeping i (Aw.restoreSnapshot manifest preserved hlc path) := by
  refine Leads.keeping (leads_bind (leads_readFile monotone_nothing path) fun content => ?_)
  refine leads_bind (leads_decodeSnapshotPayload ?_ ?_ manifest content) fun snapshot => ?_
  · exact fun _ _ _ hAB h => ⟨h.1, h.2.mono hAB⟩
  · exact fun A _ _ _ h => ⟨h.1, h.2.mono (A.le_record _)⟩
  -- the snapshot was made by a sound device
  refine Leads.conseq (K := fun A _ => Covers A snapshot) ?_ ?_ fun _ _ _ h => h
  · have hmono : Monotone fun A _ => Covers A snapshot := fun _ _ _ hAB h => h.mono hAB
    have hambient := ambient (i := i) hmono fun A _ _ _ h => h.mono (A.le_record _)
    refine leads_bind (leads_of_keeps (Aw.keeps_getMeta hambient _)) fun generation => ?_
    refine leads_bind (leads_replaceLocalState preserved snapshot) fun _ => ?_
    split
    · exact leads_fail _
    · rename_i stored hstored
      refine leads_bind (leads_write (L := fun _ => Nothing) monotone_restoring
        fun A t _ h => ⟨.of_holds ?_, trivial⟩) fun _ => ?_
      · exact ((h.restored hstored).after rfl fun _ hq => hq).mono (A.le_record _) fun _ hn => hn
      refine leads_bind (leads_of_keeps (Aw.keeps_setMeta ambient_nothing fun _ => rfl)) fun _ => ?_
      exact leads_bind leads_config fun config => leads_pure _ fun _ _ h => h
  · rintro A t - ⟨⟨-, objects, hok, hget⟩, meshId, rfl⟩
    exact hok.snapshot _ _ _ hget

theorem keeping_clearAll : Keeping i Aw.clearAll :=
  Leads.keeping (leads_write monotone_nothing fun _ _ _ _ => ⟨deviceOk_empty, trivial⟩)

theorem keeping_quarantineExpiredOfflineWrites : Keeping i Aw.quarantineExpiredOfflineWrites :=
  Leads.keeping ((leads_quarantineExpiredOfflineWrites monotone_nothing fun _ _ _ _ h => h).conseq
    (fun _ _ _ h => h) fun _ _ _ _ => trivial)

/-! ## Connect -/

theorem keeping_rebuildOutboxFromLocalState : Keeping i Aw.rebuildOutboxFromLocalState := by
  refine Leads.keeping (leads_bind (M := fun rows _ t => t.getAllRows = rows)
    ((leads_read monotone_nothing stable_nothing).conseq (fun _ _ _ h => h) fun _ _ _ h => h.2)
    fun rows => ?_)
  have hmono : Monotone fun _ t => t.getAllRows = rows := fun _ _ _ _ h => h
  have hambient := ambient (i := i) hmono fun _ t f hf h => by
    show (f t.toLocalStore).rows.values = rows
    rw [(hf t.toLocalStore).1]
    exact h
  refine leads_bind (M := fun entries _ t => t.getAllRows = rows ∧
    ∀ entry ∈ entries, ReadOff rows entry) ?_ fun entries => ?_
  · intro s w hok hk
    rw [Aw.wp_remotely]
    refine Proc.wp_mono (wp_rebuildEntries (Aw.quiet_at hambient s.replicas) ⟨hok, hk⟩ rows) ?_
      fun _ _ _ hx => hx.1
    rintro entries d w₁ ⟨h₁, -, hentries⟩
    exact ⟨h₁.1, h₁.2, fun entry hentry => (hentries entry hentry).2⟩
  split
  · exact leads_pure _ fun _ _ _ => trivial
  refine leads_bind (leads_write (L := fun _ => Nothing) (fun _ _ _ _ h => h) ?_) fun _ => ?_
  · rintro A t hd ⟨rfl, hentries⟩
    exact ⟨deviceOk_push hentries hd, trivial⟩
  · exact leads_bind (leads_of_keeps (Aw.keeps_reading ambient_nothing _)) fun _ => leads_memory _

/-! ## The mesh -/

theorem routine : Routine (party i) fun _ => Knows i Nothing where
  toAmbient := ambient_nothing
  flushPendingBatch := keeping_flushPendingBatch
  quarantine := keeping_quarantineExpiredOfflineWrites
  doFlush := keeping_doFlush
  pull _ hload := keeping_pull hload
  compactWith manifest hlc retention _ hpull := keeping_compactWith manifest hlc retention hpull
  restoreSnapshot := keeping_restoreSnapshot
  rebuildOutboxFromLocalState := keeping_rebuildOutboxFromLocalState
  clearAll := keeping_clearAll
  clearObservation _ := by
    refine Leads.keeping (leads_write monotone_nothing fun A t hd _ => ⟨.of_holds ?_, trivial⟩)
    -- the receipts that are written are none
    exact (hd.holds.after rfl fun _ hq => hq).mono (A.le_record _) (nil_subset _)

theorem keeping_method (op : Operation) : Keeping i op.method :=
  op.keeps_method routine (fun _ _ _ _ => keeping_putNow _ _ _) fun _ _ _ => keeping_deleteNow _ _

theorem ok_of_reachable {P : Pool Await Answer Memory (Except Failure Unit) (Mesh ι) ι}
    (h : Pool.Reachable (rules ι) fresh P) : Ok P.world := by
  have hrefl : ∀ (i : ι) (w : Mesh ι), Own i w w := fun i w => ⟨rfl, le_rfl⟩
  refine Pool.invariant hrefl ?_ ?_ ?_ ok_fresh h
  · exact fun i w₀ w₁ w₂ h₁ h₂ => ⟨h₂.1.trans h₁.1, le_trans h₁.2 h₂.2⟩
  · rintro i p w ⟨op, s, rfl⟩ hok
    exact Prog.wp_mono (keeping_method op s w (knows_nothing hok)) fun _ _ _ _ => trivial
  · rintro w w₁ hok ⟨path, rfl⟩
    exact ⟨⟨hok.devices, hok.remote.delete path⟩, fun i => ⟨rfl, le_rfl⟩⟩

/-- Every receipt of a device names a change whose ops went into its rows. -/
def ReceiptsSound (w : Mesh ι) (i : ι) : Prop :=
  ∃ log, Built rowsByTable w.annals (w.stores i).rows (w.stores i).past log ∧
    ∀ name ∈ receiptsOf (w.stores i).toLocalStore, Receipted w.annals.changes log name

/-- **Receipts are sound.**  Whatever the devices of a mesh do, and wherever they stop, every
receipt of every device names a change that was queued in the mesh, and the ops of this
change went into the rows of the device after these were last cleared, as long as no row
with an inherited name is stored. -/
theorem receipts_sound {P : Pool Await Answer Memory (Except Failure Unit) (Mesh ι) ι}
    (h : Pool.Reachable (rules ι) fresh P) (hordinary : P.world.annals.Ordinary) (i : ι) :
    ReceiptsSound P.world i := by
  obtain ⟨log, hbuilt, -, hnames⟩ := ((ok_of_reachable h).devices i).holds
  exact ⟨log, hbuilt.whole hordinary, hnames⟩

/-- A device whose store and whose remote work. -/
def working (wall : ℕ) (i : ι) (w : Mesh ι) : (a : Await) → Answer a × Mesh ι
  | .transact f => (some (w.stores i).toLocalStore, w.transacted i f)
  | .remote none c =>
    ((w.remote.reply wall (fun _ => none) c).1,
      { w with remote := (w.remote.reply wall (fun _ => none) c).2 })
  | .remote (some _) c => ((w.remote.reply wall (fun _ => none) c).1, w)

theorem answers_working (wall : ℕ) (w : Mesh ι) (a : Await) :
    Answers i w a (w.working wall i a).1 (w.working wall i a).2 := by
  cases a with
  | transact f => exact .inr ⟨rfl, rfl⟩
  | remote replica c =>
    cases replica with
    | some j => rfl
    | none => exact ⟨_, Mailbox.truthful_reply (fun _ => by simp) w.remote c, rfl⟩

/-- An engine that has just been opened. -/
def openedMemory (deviceId : Text) : Memory :=
  (openEngine (defaultConfig deviceId) 1000 .empty).memory 0

/-- One operation of a device that has just been opened. -/
def perform (w : Mesh ι) (i : ι) (deviceId : Text) (op : Operation) : Mesh ι :=
  ((op.method (openedMemory deviceId)).exec (fun w => w.working 1000 i) w).2.2

theorem reachable_perform (i : ι) (deviceId : Text) (op : Operation)
    (h : Pool.Reachable (rules ι) fresh ⟨w, fun _ => none⟩) :
    Pool.Reachable (rules ι) fresh ⟨w.perform i deviceId op, fun _ => none⟩ :=
  h.exec (i := i) (answers_working 1000) rfl ⟨op, openedMemory deviceId, rfl⟩

/-- A device that has put one row and flushed it. -/
def flushedMesh (table : Text) : Mesh Bool :=
  (fresh.perform false [97] (.put table [49] [([120], .null)])).perform false [97] (.flush true)

theorem reachable_flushedMesh (table : Text) :
    Pool.Reachable (rules Bool) fresh ⟨flushedMesh table, fun _ => none⟩ :=
  reachable_perform _ _ _ (reachable_perform _ _ _ .start)

/-- The receipt of the row that was put and flushed. -/
theorem receipts_sound_flushed :
    receiptsOf ((flushedMesh [116]).stores false).toLocalStore ≠ [] ∧
      ReceiptsSound (flushedMesh [116]) false := by
  have hordinary : (flushedMesh [116]).annals.Ordinary := by
    unfold Annals.Ordinary
    decide +kernel
  exact ⟨by decide +kernel, receipts_sound (reachable_flushedMesh [116]) hordinary false⟩

/-! ## A row that is left out -/

/-- A device has put a row into the table `constructor`, flushed it and compacted, and another one
connects. -/
def constructorMesh : Mesh Bool :=
  ((flushedMesh constructorName).perform false [97] .compact).perform true [98] .connect

theorem reachable_constructorMesh :
    Pool.Reachable (rules Bool) fresh ⟨constructorMesh, fun _ => none⟩ :=
  reachable_perform _ _ _ (reachable_perform _ _ _ (reachable_flushedMesh constructorName))

theorem noRows_constructorMesh : NoRows (constructorMesh.stores true).rows := by
  have hempty : (constructorMesh.stores true).rows.entries.length = 0 := by decide +kernel
  intro key
  rw [Record.get, length_eq_zero_iff.mp hempty]
  rfl

theorem ops_constructorMesh : ∀ entry ∈ constructorMesh.annals.changes, entry.ops ≠ [] := by
  decide +kernel

omit [DecidableEq ι] in
theorem not_receiptsSound (hrows : NoRows (w.stores i).rows)
    (hops : ∀ entry ∈ w.annals.changes, entry.ops ≠ [])
    (hreceipt : receiptsOf (w.stores i).toLocalStore ≠ []) : ¬ ReceiptsSound w i := by
  rintro ⟨log, hbuilt, hreceipts⟩
  obtain ⟨name, hname⟩ := exists_mem_of_ne_nil _ hreceipt
  obtain ⟨entry, hentry, -, hlog⟩ := hreceipts name hname
  obtain ⟨op, hop⟩ := exists_mem_of_ne_nil _ (hops entry hentry)
  exact absurd (hbuilt.noRows hrows ▸ hlog op hop) not_mem_nil

/-- **The row is lost.**  The second device has the receipt of a change, and no row. -/
theorem constructor_row_is_lost :
    ∃ P : Pool Await Answer Memory (Except Failure Unit) (Mesh Bool) Bool,
      Pool.Reachable (rules Bool) fresh P ∧ ¬ ReceiptsSound P.world true := by
  have hlost : ¬ ReceiptsSound constructorMesh true :=
    not_receiptsSound noRows_constructorMesh ops_constructorMesh (by decide +kernel)
  refine ⟨⟨constructorMesh, fun _ => none⟩, reachable_constructorMesh, ?_⟩
  dsimp only
  exact hlost

end Mesh

end Interocitor
