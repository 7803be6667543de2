import Interocitor.Awaits.Lifecycle
import Interocitor.Foundation.Pool
import Interocitor.Mailbox.World

/-!
# Sound receipts, and a mesh of devices

A receipt says that a change need not be read any more.  It is sound if the ops of the
change went into the rows of the device after these were last cleared.  Here this is made
precise, for one store and for what a remote holds, and it is shown which transactions of a
store and which requests keep it.

A mesh is any number of devices, each with its own store, around one remote.  A device does
one operation at a time, as the lock of its store demands; every transaction of the store
may fail, every request may fail, and a device may stop anywhere.

* `Built`: the rows of a store, with the ops that went into them since they were cleared.
* `DeviceOk`, `RemoteOk`: sound receipts, and sound snapshots.
* `Mesh.rules`: the mesh as a pool of programs.
* `Mesh.Knows`: what a device knows about its own store in the middle of an operation.
-/

namespace Interocitor

open CodeUnits OrderedRecord Interaction List Function

/-! ## Rows and the ops that went into them -/

/-- A store, and what its rows were before each of its transactions, newest first. -/
structure Traced extends LocalStore where
  past : List (Record Text Row)

/-- A store after a transaction. -/
def Traced.after (t : Traced) (f : LocalStore → LocalStore) : Traced :=
  ⟨f t.toLocalStore, t.rows :: t.past⟩

/-- Every change that was queued in a mesh, and every state in which the rows of a store
were. -/
structure Annals where
  changes : List ChangeEntry
  states : List (Record Text Row × List (Record Text Row))

instance : Preorder Annals where
  le A B := A.changes ⊆ B.changes ∧ A.states ⊆ B.states
  le_refl _ := ⟨List.Subset.refl _, List.Subset.refl _⟩
  le_trans _ _ _ h₁ h₂ := ⟨List.Subset.trans h₁.1 h₂.1, List.Subset.trans h₁.2 h₂.2⟩

/-- The annals after a transaction. -/
def Annals.record (A : Annals) (t : Traced) : Annals :=
  ⟨A.changes ++ t.outbox, A.states ++ [(t.rows, t.past)]⟩

theorem Annals.le_record (A : Annals) (t : Traced) : A ≤ A.record t :=
  ⟨subset_append_left _ _, subset_append_left _ _⟩

/-- Rows that hold the tables of a snapshot, which were stored one after the other since the
rows were cleared. -/
inductive RowsRestored : List (Record Text Row) → Record Text Row → List (Record Text Row) → Prop
  | cleared {past : List (Record Text Row)} : RowsRestored [] ∅ past
  | kept {tables : List (Record Text Row)} {rows : Record Text Row} {past : List (Record Text Row)}
      (h : RowsRestored tables rows past) : RowsRestored tables rows (rows :: past)
  | table {tables past : List (Record Text Row)} {store : LocalStore} (rows : Record Text Row)
      (h : RowsRestored tables store.rows past) :
      RowsRestored (tables ++ [rows]) (store.putRows rows.values).rows (store.rows :: past)

/-- Rows with their past, and the ops that went into them since they were cleared: by an own
`put` or `delete`, by the merge of a change that was pulled, or inside a snapshot that
captures rows which were there in the mesh.  An op that is read off a row is in the row. -/
inductive Built (captured : List Row → Tables) (A : Annals) :
    Record Text Row → List (Record Text Row) → List Op → Prop
  | cleared {past : List (Record Text Row)} : Built captured A ∅ past []
  | kept {rows : Record Text Row} {past : List (Record Text Row)} {log : List Op}
      (h : Built captured A rows past log) : Built captured A rows (rows :: past) log
  | put {d : Device} {past : List (Record Text Row)} {log : List Op} (table rowId : Text)
      (columns : List (Text × JsValue)) (stamp : Text)
      (h : Built captured A d.store.rows past log) :
      Built captured A (d.store.putRow (putRowOf d table rowId columns stamp)).rows
        (d.store.rows :: past)
        (log ++ (rowToSyncOp (putRowOf d table rowId columns stamp)).toList)
  | delete {store : LocalStore} {past : List (Record Text Row)} {log : List Op}
      {table rowId : Text} {row : Row} (deviceId stamp : Text)
      (hrow : store.getRow table rowId = some row) (h : Built captured A store.rows past log) :
      Built captured A (store.putRow (tombstoneOf row deviceId stamp)).rows (store.rows :: past)
        (log ++ (rowToSyncOp (tombstoneOf row deviceId stamp)).toList)
  | merge {store : LocalStore} {past : List (Record Text Row)} {log : List Op}
      {entry : ChangeEntry} {schemaVersion : ℕ} {schema : Option DatabaseSchemaDefinition}
      {affected : List Row} {tables : Tables}
      (hmerge : applyChangeEntry (cachedRows store entry.ops) entry schemaVersion schema =
        .ok (affected, tables)) (h : Built captured A store.rows past log) :
      Built captured A (store.putRows affected).rows (store.rows :: past) (log ++ entry.ops)
  | mergeNothing {store : LocalStore} {past : List (Record Text Row)} {log : List Op}
      {entry : ChangeEntry} {schemaVersion : ℕ} {schema : Option DatabaseSchemaDefinition}
      {tables : Tables}
      (hmerge : applyChangeEntry (cachedRows store entry.ops) entry schemaVersion schema =
        .ok ([], tables)) (h : Built captured A store.rows past log) :
      Built captured A store.rows past (log ++ entry.ops)
  | readOff {rows : Record Text Row} {past : List (Record Text Row)} {log : List Op} {row : Row}
      {op : Op} (hrow : row ∈ rows.values) (hop : rowToSyncOp row = some op)
      (h : Built captured A rows past log) : Built captured A rows past (log ++ [op])
  | restoring {tables : List (Record Text Row)} {rows : Record Text Row}
      {past : List (Record Text Row)} (h : RowsRestored tables rows past) :
      Built captured A rows past []
  | restored {there : Record Text Row} {before : List (Record Text Row)} {log : List Op}
      {rows : Record Text Row} {past : List (Record Text Row)}
      (hthere : (there, before) ∈ A.states) (hbuilt : Built captured A there before log)
      (h : RowsRestored (captured there.values).values rows past) : Built captured A rows past log

/-- No row that was ever in the mesh has a table or an id whose name plain objects inherit. -/
def Annals.Ordinary (A : Annals) : Prop :=
  ∀ state ∈ A.states, ∀ row ∈ state.1.values,
    row._meta.table ∉ inheritedNames ∧ row._meta.rowId ∉ inheritedNames

/-- All ops of an entry are in a log. -/
def InLog (log : List Op) (entry : ChangeEntry) : Prop := ∀ op ∈ entry.ops, op ∈ log

/-- A name is that of a change whose ops are in a log. -/
def Receipted (changes : List ChangeEntry) (log : List Op) (name : Text) : Prop :=
  ∃ entry ∈ changes, changeFileName entry = name ∧ InLog log entry

/-- The rows of a store hold what its queue and the changes of some names say. -/
def Holds (A : Annals) (t : Traced) (names : List Text) : Prop :=
  ∃ log, Built snapshotTables A t.rows t.past log ∧ (∀ entry ∈ t.queued, InLog log entry) ∧
    ∀ name ∈ names, Receipted A.changes log name

/-- The receipts of a store. -/
def receiptsOf (store : LocalStore) : List Text := receipts store.metadata.changeObservation

/-- The receipts of a store are sound, and what it queues is known. -/
structure DeviceOk (A : Annals) (t : Traced) : Prop where
  holds : Holds A t (receiptsOf t.toLocalStore)
  known : ∀ entry ∈ t.outbox, entry ∈ A.changes
  recorded : (t.rows, t.past) ∈ A.states

/-- The tables of a snapshot are those of rows that hold what the names it covers say. -/
def Covers (A : Annals) (snapshot : Snapshot) : Prop :=
  ∃ there before log, (there, before) ∈ A.states ∧ Built snapshotTables A there before log ∧
    snapshot.tables = snapshotTables there.values ∧
    ∀ name ∈ snapshot.coveredChangeFiles.getD [], Receipted A.changes log name

/-- Every change file holds the change it is named after, and every snapshot covers what it
says. -/
structure RemoteOk (A : Annals) (objects : Objects) : Prop where
  change : ∀ name meshId entry, objects.get (.change name) = some (.change meshId entry) →
    changeFileName entry = name ∧ entry ∈ A.changes
  snapshot : ∀ path meshId snapshot, objects.get path = some (.snapshot meshId snapshot) →
    Covers A snapshot

section Stores

variable {A B : Annals} {t : Traced} {names names' : List Text} {log : List Op}
  {past : List (Record Text Row)}

/-- The same rows are built in a mesh that has all the states, if snapshots capture the same of
them. -/
theorem Built.change {captured captured' : List Row → Tables} {rows : Record Text Row}
    (hstates : ∀ state ∈ A.states, state ∈ B.states ∧
      captured' state.1.values = captured state.1.values)
    (h : Built captured A rows past log) : Built captured' B rows past log := by
  induction h with
  | cleared => exact .cleared
  | kept _ ih => exact .kept ih
  | put table rowId columns stamp _ ih => exact .put table rowId columns stamp ih
  | delete deviceId stamp hrow _ ih => exact .delete deviceId stamp hrow ih
  | merge hmerge _ ih => exact .merge hmerge ih
  | mergeNothing hmerge _ ih => exact .mergeNothing hmerge ih
  | readOff hrow hop _ ih => exact .readOff hrow hop ih
  | restoring h => exact .restoring h
  | restored hthere _ h ih =>
    obtain ⟨hstate, hcaptured⟩ := hstates _ hthere
    exact .restored hstate ih (hcaptured ▸ h)

theorem Built.mono {rows : Record Text Row} (hAB : A ≤ B)
    (h : Built snapshotTables A rows past log) : Built snapshotTables B rows past log :=
  h.change fun _ hstate => ⟨hAB.2 hstate, rfl⟩

theorem Built.whole {rows : Record Text Row} (hA : A.Ordinary)
    (h : Built snapshotTables A rows past log) : Built rowsByTable A rows past log := by
  refine h.change fun state hstate => ⟨hstate, ?_⟩
  rw [snapshotTables, filter_eq_self.mpr fun row hrow => ?_]
  obtain ⟨htable, hrowId⟩ := hA _ hstate row hrow
  exact decide_eq_true ⟨htable, fun hproto => hrowId (hproto ▸ by decide)⟩

theorem Receipted.mono {name : Text} (hAB : A ≤ B) (h : Receipted A.changes log name) :
    Receipted B.changes log name := by
  obtain ⟨entry, hentry, hname, hlog⟩ := h
  exact ⟨entry, hAB.1 hentry, hname, hlog⟩

theorem Receipted.more {name : Text} {extra : List Op} (h : Receipted A.changes log name) :
    Receipted A.changes (log ++ extra) name := by
  obtain ⟨entry, hentry, hname, hlog⟩ := h
  exact ⟨entry, hentry, hname, fun op hop => mem_append_left _ (hlog op hop)⟩

theorem Holds.mono (hAB : A ≤ B) (hn : names' ⊆ names) (h : Holds A t names) :
    Holds B t names' := by
  obtain ⟨log, hbuilt, hqueue, hnames⟩ := h
  exact ⟨log, hbuilt.mono hAB, hqueue, fun name hname => (hnames name (hn hname)).mono hAB⟩

theorem Covers.mono {snapshot : Snapshot} (hAB : A ≤ B) (h : Covers A snapshot) :
    Covers B snapshot := by
  obtain ⟨there, before, log, hthere, hbuilt, htables, hnames⟩ := h
  exact ⟨there, before, log, hAB.2 hthere, hbuilt.mono hAB, htables,
    fun name hname => (hnames name hname).mono hAB⟩

theorem DeviceOk.mono (hAB : A ≤ B) (h : DeviceOk A t) : DeviceOk B t :=
  ⟨h.holds.mono hAB (fun _ hn => hn), fun entry hentry => hAB.1 (h.known entry hentry),
    hAB.2 h.recorded⟩

theorem RemoteOk.mono {objects : Objects} (hAB : A ≤ B) (h : RemoteOk A objects) :
    RemoteOk B objects where
  change name meshId entry hget :=
    ⟨(h.change name meshId entry hget).1, hAB.1 (h.change name meshId entry hget).2⟩
  snapshot path meshId snapshot hget := (h.snapshot path meshId snapshot hget).mono hAB

variable {f : LocalStore → LocalStore}

theorem Holds.after (hrows : (f t.toLocalStore).rows = t.rows)
    (hqueue : ∀ entry ∈ (f t.toLocalStore).queued, entry ∈ t.queued) (h : Holds A t names) :
    Holds A (t.after f) names := by
  obtain ⟨log, hbuilt, hlog, hnames⟩ := h
  refine ⟨log, ?_, fun entry hentry => hlog entry (hqueue entry hentry), hnames⟩
  show Built snapshotTables A (f t.toLocalStore).rows (t.rows :: t.past) log
  rw [hrows]
  exact .kept hbuilt

theorem Holds.queued {entries : List ChangeEntry} (h : Holds A t names)
    (hqueued : ∀ entry ∈ entries, entry ∈ t.outbox)
    (hknown : ∀ entry ∈ t.outbox, entry ∈ A.changes) :
    Holds A t (names ++ entries.map changeFileName) := by
  obtain ⟨log, hbuilt, hlog, hnames⟩ := h
  refine ⟨log, hbuilt, hlog, fun name hname => ?_⟩
  rcases mem_append.mp hname with hname | hname
  · exact hnames name hname
  · obtain ⟨entry, hentry, rfl⟩ := mem_map.mp hname
    have hout := hqueued entry hentry
    exact ⟨entry, hknown entry hout, rfl, hlog entry (mem_append_left _ hout)⟩

theorem Holds.bookkeeping (hf : Bookkeeping f) (h : Holds A t names) :
    Holds A (t.after f) names := by
  obtain ⟨hrows, hout, hpending, -⟩ := hf t.toLocalStore
  refine h.after hrows fun entry hentry => ?_
  rwa [LocalStore.queued, hout, hpending] at hentry

theorem receiptsOf_bookkeeping (hf : Bookkeeping f) (store : LocalStore) :
    receiptsOf (f store) = receiptsOf store := by
  rw [receiptsOf, (hf store).2.2.2, receiptsOf]

/-! ## Transactions -/

theorem DeviceOk.of_holds (h : Holds (A.record t) t (receiptsOf t.toLocalStore)) :
    DeviceOk (A.record t) t :=
  ⟨h, fun _ hentry => mem_append_right _ hentry,
    mem_append_right _ (mem_singleton.mpr rfl)⟩

theorem DeviceOk.bookkeeping (hf : Bookkeeping f) (h : DeviceOk A t) :
    DeviceOk (A.record (t.after f)) (t.after f) := by
  refine .of_holds (Holds.mono (A.le_record _) ?_ (h.holds.bookkeeping hf))
  show receiptsOf (f t.toLocalStore) ⊆ _
  rw [receiptsOf_bookkeeping hf]
  exact List.Subset.refl _

theorem queued_promotePendingBatch (store : LocalStore) :
    store.promotePendingBatch.queued = store.queued := by
  cases h : store.pendingBatch with
  | none => simp [LocalStore.promotePendingBatch, h]
  | some p => simp [LocalStore.promotePendingBatch, LocalStore.queued, h]

theorem deviceOk_promote (h : DeviceOk A t) :
    DeviceOk (A.record (t.after LocalStore.promotePendingBatch))
      (t.after LocalStore.promotePendingBatch) := by
  have hrows : t.promotePendingBatch.rows = t.rows := by
    rw [LocalStore.promotePendingBatch]
    split <;> rfl
  have hreceipts : receiptsOf t.promotePendingBatch = receiptsOf t.toLocalStore := by
    rw [receiptsOf, LocalStore.promotePendingBatch]
    split <;> rfl
  refine .of_holds (Holds.mono (A.le_record _) ?_ (Holds.after hrows ?_ h.holds))
  · exact hreceipts ▸ List.Subset.refl _
  · rw [queued_promotePendingBatch]
    exact fun _ hentry => hentry

theorem deviceOk_acknowledge (h : DeviceOk A t) (ids : List Text) :
    DeviceOk (A.record (t.after fun store => store.acknowledgeOutbox ids))
      (t.after fun store => store.acknowledgeOutbox ids) := by
  have hholds : Holds A (t.after fun store => store.acknowledgeOutbox ids)
      (receiptsOf t.toLocalStore) := by
    refine Holds.after rfl (fun entry hentry => ?_) h.holds
    rcases mem_append.mp hentry with hout | hpending
    · exact mem_append_left _ (mem_of_mem_filter hout)
    · exact mem_append_right _ hpending
  exact .of_holds (hholds.mono (A.le_record _) fun _ hn => hn)

theorem deviceOk_commit {row : Row} {op : Op} {change : ChangeEntry} (hops : change.ops = [op])
    (hrow : ∀ log, Built snapshotTables A t.rows t.past log →
      Built snapshotTables A (t.putRow row).rows (t.rows :: t.past) (log ++ [op])) (h : DeviceOk A t) :
    DeviceOk (A.record (t.after fun store => store.commitLocalMutation row change))
      (t.after fun store => store.commitLocalMutation row change) := by
  obtain ⟨log, hbuilt, hqueue, hnames⟩ := h.holds
  have hgrow := A.le_record (t.after fun store => store.commitLocalMutation row change)
  refine .of_holds ⟨log ++ [op], (hrow log hbuilt).mono hgrow, fun entry hentry => ?_,
    fun name hname => ((hnames name hname).mono hgrow).more⟩
  rcases mem_append.mp hentry with hout | hpending
  · exact fun o ho => mem_append_left _ (hqueue entry (mem_append_left _ hout) o ho)
  · obtain rfl := mem_singleton.mp hpending
    intro o ho
    cases hp : t.pendingBatch with
    | none =>
      rw [hp, LocalStore.joinBatch, hops] at ho
      exact mem_append_right _ ho
    | some p =>
      rw [hp, LocalStore.joinBatch, hops] at ho
      rcases mem_append.mp ho with ho | ho
      · have hqueued : p ∈ t.queued := by
          rw [LocalStore.queued, hp]
          exact mem_append_right _ (mem_singleton.mpr rfl)
        exact mem_append_left _ (hqueue p hqueued o ho)
      · exact mem_append_right _ ho

theorem deviceOk_putRow {row : Row} {extra : List Op}
    (hrow : ∀ log, Built snapshotTables A t.rows t.past log →
      Built snapshotTables A (t.putRow row).rows (t.rows :: t.past) (log ++ extra)) (h : DeviceOk A t) :
    DeviceOk (A.record (t.after fun store => store.putRow row))
      (t.after fun store => store.putRow row) := by
  obtain ⟨log, hbuilt, hqueue, hnames⟩ := h.holds
  have hgrow := A.le_record (t.after fun store => store.putRow row)
  refine .of_holds ⟨log ++ extra, (hrow log hbuilt).mono hgrow, fun entry hentry op hop => ?_,
    fun name hname => ((hnames name hname).mono hgrow).more⟩
  exact mem_append_left _ (hqueue entry hentry op hop)

theorem Holds.logged {entry : ChangeEntry} {t' : Traced} (hqueued : t'.queued = t.queued)
    (hbuilt : ∀ log, Built snapshotTables A t.rows t.past log →
      Built snapshotTables A t'.rows t'.past (log ++ entry.ops))
    (hentry : entry ∈ A.changes) (h : Holds A t names) :
    Holds A t' (names ++ [changeFileName entry]) := by
  obtain ⟨log, hlog, hqueue, hnames⟩ := h
  refine ⟨log ++ entry.ops, hbuilt log hlog, ?_, fun name hname => ?_⟩
  · rw [hqueued]
    exact fun e he op hop => mem_append_left _ (hqueue e he op hop)
  · rcases mem_append.mp hname with hname | hname
    · exact (hnames name hname).more
    · obtain rfl := mem_singleton.mp hname
      exact ⟨entry, hentry, rfl, fun op hop => mem_append_right _ hop⟩

theorem deviceOk_push {entries : List ChangeEntry}
    (hentries : ∀ entry ∈ entries, ReadOff t.getAllRows entry) (h : DeviceOk A t) :
    DeviceOk (A.record (t.after fun store => store.pushOutboxEntries entries))
      (t.after fun store => store.pushOutboxEntries entries) := by
  obtain ⟨log, hbuilt, hqueue, hnames⟩ := h.holds
  -- the ops are in the rows already
  have hread : ∃ extra, Built snapshotTables A t.rows t.past (log ++ extra) ∧
      ∀ entry ∈ entries, InLog extra entry := by
    clear hqueue hnames h
    induction entries with
    | nil => exact ⟨[], by rwa [append_nil], fun _ hentry => absurd hentry not_mem_nil⟩
    | cons entry entries ih =>
      obtain ⟨extra, hextra, hin⟩ := ih fun e he => hentries e (mem_cons_of_mem _ he)
      obtain ⟨row, hrow, op, hop, hops⟩ := hentries entry mem_cons_self
      refine ⟨extra ++ [op], ?_, fun e he o ho => ?_⟩
      · rw [← append_assoc]
        exact .readOff hrow hop hextra
      · rcases mem_cons.mp he with rfl | he
        · exact mem_append_right _ (hops ▸ ho)
        · exact mem_append_left _ (hin e he o ho)
  obtain ⟨extra, hextra, hin⟩ := hread
  have hgrow := A.le_record (t.after fun store => store.pushOutboxEntries entries)
  refine .of_holds ⟨log ++ extra, (Built.kept hextra).mono hgrow, fun entry hentry op hop => ?_,
    fun name hname => ((hnames name hname).mono hgrow).more⟩
  rcases mem_append.mp hentry with hout | hpending
  · rcases mem_append.mp hout with hold | hnew
    · exact mem_append_left _ (hqueue entry (mem_append_left _ hold) op hop)
    · exact mem_append_right _ (hin entry hnew op hop)
  · exact mem_append_left _ (hqueue entry (mem_append_right _ hpending) op hop)

theorem deviceOk_empty : DeviceOk (A.record ⟨.empty, past⟩) ⟨.empty, past⟩ :=
  .of_holds ⟨[], .cleared, fun _ hentry => absurd hentry not_mem_nil,
    fun _ hname => absurd hname not_mem_nil⟩

end Stores

/-! ## Empty rows -/

/-- Nothing is in the rows. -/
def NoRows (rows : Record Text Row) : Prop := ∀ key, rows.get key = none

theorem noRows_putRows {store : LocalStore} {rows : List Row}
    (h : NoRows (store.putRows rows).rows) : rows = [] ∧ NoRows store.rows := by
  induction rows generalizing store with
  | nil => exact ⟨rfl, h⟩
  | cons row rows ih =>
    have hput : (store.putRow row).rows.get (LocalStore.keyOf row) = none := (ih h).2 _
    rw [show (store.putRow row).rows.get (LocalStore.keyOf row) = some row from
      Record.get_set_self _ _ _] at hput
    exact absurd hput (by simp)

theorem RowsRestored.noRows {tables past : List (Record Text Row)} {rows : Record Text Row}
    (h : RowsRestored tables rows past) (hrows : NoRows rows) : ∀ t ∈ tables, t.values = [] := by
  induction h with
  | cleared => exact fun _ ht => absurd ht not_mem_nil
  | kept _ ih => exact ih hrows
  | table rows _ ih =>
    obtain ⟨hnone, hold⟩ := noRows_putRows hrows
    intro t ht
    rcases mem_append.mp ht with ht | ht
    · exact ih hold t ht
    · exact mem_singleton.mp ht ▸ hnone

theorem ops_eq_nil {store : LocalStore} {entry : ChangeEntry} {v : ℕ}
    {schema : Option DatabaseSchemaDefinition} {tables : Tables} (hrows : NoRows store.rows)
    (h : applyChangeEntry (cachedRows store entry.ops) entry v schema = .ok ([], tables)) :
    entry.ops = [] := by
  have hcached : cachedRows store entry.ops = ∅ := by
    have hcache : cacheRow store = fun tables _ => tables := by
      funext tables op
      rw [cacheRow, LocalStore.getRow, hrows]
    rw [cachedRows, hcache, foldl_const]
    exact iterate_fixed rfl _
  rw [hcached, applyChangeEntry] at h
  cases hops : entry.ops with
  | nil => rfl
  | cons op ops =>
    rw [hops, applyOpsLoop] at h
    split at h
    · exact absurd h (by simp)
    · rename_i res tables₁ hop
      -- the first op makes a row
      have hsome := applyToRow_none (rowAt_applyOp hop [] []).1
      obtain ⟨row, rfl⟩ := Option.isSome_iff_exists.mp hsome
      exact absurd (prefix_applyOpsLoop h) (by simp)

variable {A : Annals}

/-- **Into rows that are empty nothing went**, if snapshots capture all rows. -/
theorem Built.noRows {rows : Record Text Row} {past : List (Record Text Row)} {log : List Op}
    (h : Built rowsByTable A rows past log) (hrows : NoRows rows) : log = [] := by
  induction h with
  | cleared => rfl
  | kept _ ih => exact ih hrows
  | put table rowId columns stamp _ _ =>
    exact absurd ((Record.get_set_self _ _ _).symm.trans (hrows _)) (by simp)
  | delete deviceId stamp _ _ _ =>
    exact absurd ((Record.get_set_self _ _ _).symm.trans (hrows _)) (by simp)
  | merge hmerge _ ih =>
    obtain ⟨rfl, hold⟩ := noRows_putRows hrows
    rw [ih hold, ops_eq_nil hold hmerge]
    rfl
  | mergeNothing hmerge _ ih =>
    rw [ih hrows, ops_eq_nil hrows hmerge]
    rfl
  | readOff hrow _ _ _ =>
    obtain ⟨key, hget⟩ := Record.mem_values_iff.mp hrow
    exact absurd (hget.symm.trans (hrows key)) (by simp)
  | restoring _ => rfl
  | @restored there _ _ _ _ _ _ hrestored ih =>
    refine ih fun key => ?_
    by_contra hsome
    obtain ⟨row, hget⟩ := Option.ne_none_iff_exists'.mp hsome
    -- the last row of the snapshot is in one of its tables
    rcases eq_nil_or_concat there.values with hnil | ⟨front, last, hlast⟩
    · exact absurd (Record.mem_values_iff.mpr ⟨key, hget⟩) (hnil ▸ not_mem_nil)
    · have htables := hrestored.noRows hrows
      rw [concat_eq_append] at hlast
      rw [hlast, rowsByTable, foldl_append] at htables
      have htable := htables _ (Record.mem_values_iff.mpr ⟨_, Record.get_set_self _ _ _⟩)
      exact eq_nil_iff_forall_not_mem.mp htable last
        (Record.mem_values_iff.mpr ⟨_, Record.get_set_self _ _ _⟩)

/-! ## The remote -/

variable {remote : Mailbox}

theorem RemoteOk.delete (h : RemoteOk A remote.objects) (path : ObjectPath) :
    RemoteOk A (remote.delete path).objects := by
  have hold : ∀ path' content, (remote.delete path).objects.get path' = some content →
      remote.objects.get path' = some content := by
    intro path' content hget
    rw [Mailbox.objects_delete, Record.get_erase] at hget
    split at hget
    · exact absurd hget (by simp)
    · exact hget
  exact ⟨fun name meshId entry hget => h.change name meshId entry (hold _ _ hget),
    fun path' meshId snapshot hget => h.snapshot path' meshId snapshot (hold _ _ hget)⟩

theorem RemoteOk.write (h : RemoteOk A remote.objects) {path : ObjectPath} {content : Content}
    (hchange : ∀ name meshId entry, path = .change name → content = .change meshId entry →
      changeFileName entry = name ∧ entry ∈ A.changes)
    (hsnapshot : ∀ meshId snapshot, content = .snapshot meshId snapshot → Covers A snapshot) :
    RemoteOk A (remote.write path content).objects where
  change name meshId entry hget := by
    rw [Mailbox.objects_write, Record.get_set] at hget
    split at hget
    · rename_i hpath
      exact hchange name meshId entry hpath (Option.some.inj hget)
    · exact h.change name meshId entry hget
  snapshot path' meshId snapshot hget := by
    rw [Mailbox.objects_write, Record.get_set] at hget
    split at hget
    · exact hsnapshot meshId snapshot (Option.some.inj hget)
    · exact h.snapshot path' meshId snapshot hget

theorem RemoteOk.harmless {remote' : Mailbox} (h : RemoteOk A remote.objects) {c : Call}
    (hc : Harmless c) {rep : Reply c} (htruthful : remote.Truthful c rep remote') :
    RemoteOk A remote'.objects := by
  cases c with
  | writeFile path content =>
    rcases applied_or_not htruthful with rfl | rfl
    · exact h
    · refine h.write (fun _ _ _ _ hcontent => ?_) fun _ _ hcontent => ?_
      · subst hcontent
        exact hc.elim
      · subst hcontent
        exact hc.elim
  | deleteFile path =>
    rcases applied_or_not htruthful with rfl | rfl
    · exact h
    · exact h.delete path
  | readFile path => exact htruthful.1 ▸ h
  | listChanges => exact htruthful.1 ▸ h
  | listMainline => exact htruthful.1 ▸ h
  | now => exact htruthful ▸ h
  | uuid => exact htruthful ▸ h
  | isAuthenticated => exact htruthful ▸ h
  | authenticate => exact htruthful ▸ h
  | ensureFolder folder => exact htruthful ▸ h

/-! ## The mesh -/

/-- The stores of the devices, the remote, and the annals. -/
structure Mesh (ι : Type) where
  stores : ι → Traced
  remote : Mailbox
  annals : Annals

namespace Mesh

variable {ι : Type} [DecidableEq ι]

/-- Nothing has happened yet. -/
def fresh : Mesh ι := ⟨fun _ => ⟨.empty, []⟩, ⟨∅, []⟩, ⟨[], [(∅, [])]⟩⟩

/-- A transaction of a device. -/
def transacted (w : Mesh ι) (i : ι) (f : LocalStore → LocalStore) : Mesh ι where
  stores := update w.stores i ((w.stores i).after f)
  remote := w.remote
  annals := w.annals.record ((w.stores i).after f)

/-- What a device is answered: a transaction may fail, and then it may have happened or
not; the remote does not lie; a replica answers anything. -/
def Answers (i : ι) (w : Mesh ι) : (a : Await) → Answer a → Mesh ι → Prop
  | .transact f, found, w' =>
    (found = none ∧ (w' = w ∨ w' = w.transacted i f)) ∨
      (found = some (w.stores i).toLocalStore ∧ w' = w.transacted i f)
  | .remote none c, rep, w' => ∃ remote, w.remote.Truthful c rep remote ∧ w' = { w with remote := remote }
  | .remote (some _) _, _, w' => w' = w

/-- The operations of a device. -/
inductive Operation where
  | put (table rowId : Text) (columns : List (Text × JsValue))
  | delete (table rowId : Text)
  | flushPendingBatch
  | flush (includePendingBatch : Bool)
  | pull
  | rehydrate
  | compact
  | connect
  | refillEvictedMesh
  | clearQuarantinedOfflineChanges

/-- The method of an operation. -/
def Operation.method : Operation → Aw Unit
  | put table rowId columns => Aw.putNow table rowId columns
  | delete table rowId => Aw.deleteNow table rowId
  | flushPendingBatch => Aw.flushPendingBatch
  | flush includePendingBatch => Aw.flushQueued includePendingBatch
  | pull => Aw.pullNow
  | rehydrate => Aw.flushAndRehydrateNow
  | compact => Aw.compact
  | connect => Aw.connect
  | refillEvictedMesh => Aw.refillEvictedMesh
  | clearQuarantinedOfflineChanges =>
    Aw.setMeta fun m => { m with quarantinedOfflineChanges := none }

omit [DecidableEq ι] in
/-- What the routine of an engine keeps, every operation keeps, if the two writes do. -/
theorem Operation.keeps_method {W : Type} {E : Env Await Answer W} {I : Memory → W → Prop}
    (op : Operation) (h : Routine E I)
    (hput : ∀ table rowId columns, op = .put table rowId columns →
      Proc.Keeps E I (Aw.putNow table rowId columns))
    (hdelete : ∀ table rowId, op = .delete table rowId →
      Proc.Keeps E I (Aw.deleteNow table rowId)) : Proc.Keeps E I op.method := by
  cases op with
  | put table rowId columns => exact hput table rowId columns rfl
  | delete table rowId => exact hdelete table rowId rfl
  | flushPendingBatch => exact h.flushPendingBatch
  | flush includePendingBatch => exact Aw.keeps_flushQueued h includePendingBatch
  | pull => exact Aw.keeps_pullNow h
  | rehydrate => exact Aw.keeps_flushAndRehydrateNow h
  | compact => exact Aw.keeps_compact h
  | connect => exact Aw.keeps_connect h
  | refillEvictedMesh => exact Aw.keeps_refillEvictedMesh h
  | clearQuarantinedOfflineChanges =>
    rw [Operation.method]
    exact Aw.keeps_setMeta h.toAmbient fun _ => rfl

/-- The rules of a mesh: a device starts any operation, with anything in memory, and the
remote may lose any object. -/
def rules (ι : Type) [DecidableEq ι] :
    Pool.Rules Await Answer Memory (Except Failure Unit) (Mesh ι) ι where
  starts _ _ p := ∃ (op : Operation) (s : Memory), p = op.method s
  answer := Answers
  outside w w' := ∃ path, w' = { w with remote := w.remote.delete path }

/-- Every receipt is sound, and so is what the remote holds. -/
structure Ok (w : Mesh ι) : Prop where
  devices : ∀ i, DeviceOk w.annals (w.stores i)
  remote : RemoteOk w.annals w.remote.objects

/-- The store of a device stays as it is, and the annals grow. -/
def Own (i : ι) (w w' : Mesh ι) : Prop := w'.stores i = w.stores i ∧ w.annals ≤ w'.annals

/-- A device in the mesh. -/
abbrev party (i : ι) : Env Await Answer (Mesh ι) := Pool.party (rules ι) Ok Own i

variable {i : ι} {w : Mesh ι} {f : LocalStore → LocalStore}

omit [DecidableEq ι] in
theorem ok_fresh : Ok (fresh : Mesh ι) where
  devices _ := ⟨⟨[], .cleared, fun _ hentry => absurd hentry not_mem_nil,
    fun _ hname => absurd hname not_mem_nil⟩, fun _ hentry => absurd hentry not_mem_nil,
    mem_singleton.mpr rfl⟩
  remote := ⟨fun _ _ _ h => absurd h (by simp [fresh]), fun _ _ _ h => absurd h (by simp [fresh])⟩

theorem Ok.transacted (h : Ok w)
    (hf : DeviceOk (w.annals.record ((w.stores i).after f)) ((w.stores i).after f)) :
    Ok (w.transacted i f) ∧ ∀ j, j ≠ i → Own j w (w.transacted i f) := by
  have hgrow : w.annals ≤ (w.transacted i f).annals := w.annals.le_record _
  refine ⟨⟨fun j => ?_, h.remote.mono hgrow⟩, fun j hj => ⟨update_of_ne hj _ _, hgrow⟩⟩
  by_cases hj : j = i
  · subst hj
    show DeviceOk _ (update w.stores j _ j)
    rw [update_self]
    exact hf
  · show DeviceOk _ (update w.stores i _ j)
    rw [update_of_ne hj]
    exact (h.devices j).mono hgrow

/-- What a device knows about its own store, beside the soundness of the mesh. -/
def Knows (i : ι) (K : Annals → Traced → Prop) (w : Mesh ι) : Prop :=
  Ok w ∧ K w.annals (w.stores i)

/-- Longer annals do no harm. -/
def Monotone (K : Annals → Traced → Prop) : Prop := ∀ A B t, A ≤ B → K A t → K B t

variable {K K' : Annals → Traced → Prop}

theorem Knows.rely {w₁ : Mesh ι} (hK : Monotone K) (h : Knows i K w) (hr : (party i).rely w w₁) :
    Knows i K w₁ := by
  obtain ⟨hok, hstore, hannals⟩ := hr
  refine ⟨hok, ?_⟩
  rw [hstore]
  exact hK _ _ _ hannals h.2

theorem wp_transact_knows {Q : LocalStore → Memory → Mesh ι → Prop}
    {X : Failure → Memory → Mesh ι → Prop} {s : Memory} (hK : Monotone K) (h : Knows i K w)
    (hf : ∀ A t, DeviceOk A t → K A t → DeviceOk (A.record (t.after f)) (t.after f))
    (hQ : ∀ w₁ : Mesh ι, Knows i K w₁ → Ok (w₁.transacted i f) →
      Q (w₁.stores i).toLocalStore s (w₁.transacted i f))
    (hX : ∀ w', Ok w' → X (.thrown .localStore) s w') : (Aw.transact f).wp (party i) Q X s w := by
  rw [Aw.wp_transact]
  intro w₁ hr found w₂ hans
  have h₁ := h.rely hK hr
  obtain ⟨hok, hown⟩ := h₁.1.transacted (f := f) (hf _ _ (h₁.1.devices i) h₁.2)
  rcases hans with ⟨rfl, rfl | rfl⟩ | ⟨rfl, rfl⟩
  · exact ⟨⟨h₁.1, fun j _ => ⟨rfl, le_refl _⟩⟩, fun _ hs => absurd hs (by simp), fun _ => hX _ h₁.1⟩
  · exact ⟨⟨hok, hown⟩, fun _ hs => absurd hs (by simp), fun _ => hX _ hok⟩
  · refine ⟨⟨hok, hown⟩, fun store hs => ?_, fun hn => absurd hn (by simp)⟩
    obtain rfl := Option.some.inj hs
    exact hQ w₁ h₁ hok

theorem askKeeps_transact (hK : Monotone K)
    (hf : ∀ A t, DeviceOk A t → K A t →
      DeviceOk (A.record (t.after f)) (t.after f) ∧ K (A.record (t.after f)) (t.after f)) :
    Proc.AskKeeps (party i) (fun _ : Memory => Knows i K) (.transact f) := by
  intro s w w₁ found w₂ h hr hans
  have h₁ := h.rely hK hr
  obtain ⟨hdevice, hknown⟩ := hf _ _ (h₁.1.devices i) h₁.2
  obtain ⟨hok, hown⟩ := h₁.1.transacted (f := f) hdevice
  have hknows : Knows i K (w₁.transacted i f) := by
    refine ⟨hok, ?_⟩
    show K _ (update w₁.stores i _ i)
    rw [update_self]
    exact hknown
  rcases hans with ⟨rfl, rfl | rfl⟩ | ⟨rfl, rfl⟩
  · exact ⟨⟨h₁.1, fun j _ => ⟨rfl, le_refl _⟩⟩, h₁⟩
  · exact ⟨⟨hok, hown⟩, hknows⟩
  · exact ⟨⟨hok, hown⟩, hknows⟩

theorem askKeeps_request {c : Call} (hK : Monotone K)
    (hc : ∀ (w : Mesh ι) rep remote, Knows i K w → w.remote.Truthful c rep remote →
      RemoteOk w.annals remote.objects) :
    Proc.AskKeeps (party i) (fun _ : Memory => Knows i K) (.remote none c) := by
  intro s w w₁ rep w₂ h hr hans
  have h₁ := h.rely hK hr
  obtain ⟨remote, htruthful, rfl⟩ := hans
  have hok : Ok { w₁ with remote := remote } := ⟨h₁.1.devices, hc w₁ rep remote h₁ htruthful⟩
  exact ⟨⟨hok, fun j _ => ⟨rfl, le_refl _⟩⟩, hok, h₁.2⟩

theorem askKeeps_harmless {c : Call} (hK : Monotone K) (hc : Harmless c) :
    Proc.AskKeeps (party i) (fun _ : Memory => Knows i K) (.remote none c) :=
  askKeeps_request hK fun _ _ _ h htruthful => h.1.remote.harmless hc htruthful

/-- Bookkeeping does not matter for what is known. -/
def Stable (K : Annals → Traced → Prop) : Prop :=
  ∀ A t f, Bookkeeping f → K A t → K (A.record (t.after f)) (t.after f)

/-- What is known survives everything that neither publishes nor changes rows, queue or
receipts. -/
theorem ambient (hK : Monotone K) (hstable : Stable K) :
    Ambient (party i) fun _ => Knows i K where
  bookkeeping f hf := askKeeps_transact hK fun A t hdevice hknown =>
    ⟨hdevice.bookkeeping hf, hstable A t f hf hknown⟩
  harmless c hc := askKeeps_harmless hK hc
  replica j c := by
    intro s w w₁ rep w₂ h hr hans
    obtain rfl : w₂ = w₁ := hans
    have h₁ := h.rely hK hr
    exact ⟨⟨h₁.1, fun k _ => ⟨rfl, le_refl _⟩⟩, h₁⟩
  memory _ _ _ _ h := h

/-- Nothing is known but that the mesh is sound. -/
def Nothing (_ : Annals) (_ : Traced) : Prop := True

omit [DecidableEq ι] in
theorem knows_nothing (h : Ok w) : Knows i Nothing w := ⟨h, trivial⟩

theorem monotone_nothing : Monotone Nothing := fun _ _ _ _ h => h

theorem stable_nothing : Stable Nothing := fun _ _ _ _ h => h

theorem ambient_nothing : Ambient (party i) fun _ => Knows i Nothing :=
  ambient monotone_nothing stable_nothing

end Mesh

end Interocitor
