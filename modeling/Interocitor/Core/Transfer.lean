import Interocitor.Core.Manifest

/-!
# `flush.ts` and `pull.ts`: moving change files

`flushPrimary` records receipts for the entries it is about to publish, writes one
change file per entry and then moves the head hint forward.  `pull` lists the change
files, reads those that the device has no receipt for in the order of their stamps,
merges them, and persists the receipts and the clock at the very end.

The source keeps up to four reads in flight ahead of the file being merged; here each
file is read when its turn comes.  The manifest that a transfer encodes and decodes
with is the one the engine held when the transfer began, so it is a parameter.
-/

namespace Interocitor

open CodeUnits OrderedRecord Interaction Eng

/-- The test `c >= 0`, false of `NaN`. -/
def isNonNeg (c : Option ℤ) : Bool := c.any fun z => decide (0 ≤ z)

/-! ## Flush -/

/-- What `observe` throws for a name that it does not record. -/
def observeError (fileName : Text) : EngineError :=
  if (changeFileHlc fileName).isNone then .invalidChangeFilename fileName else .typeError

/-- The loop of `recordFlushedChanges`. -/
def observeFlushed : List ChangeEntry → ChangeObservationLedger → Except Text ChangeObservationLedger
  | [], ledger => .ok ledger
  | entry :: rest, ledger =>
    if entry.hlc = [] then observeFlushed rest ledger
    else
      match ledger.observe (changeFileName entry) entry.hlc with
      | none => .error (changeFileName entry)
      | some ledger => observeFlushed rest ledger

/-- `recordFlushedChanges`. -/
def recordFlushedChanges (entries : List ChangeEntry) : Eng Unit := do
  let stored := (← metadata).changeObservation
  match observeFlushed entries (.load stored) with
  | .error name => fail (observeError name)
  | .ok ledger =>
    match ledger.persist stored with
    | none => fail .observationStateChanged
    | some stored => setMeta fun m => { m with changeObservation := some stored }

/-- `encodeChangePayload`, then the write of one change file. -/
def writeChangeFile (manifest : Option Manifest) (entry : ChangeEntry) : Eng Unit :=
  match truthy (manifest.map fun m => m.meshId) with
  | none => fail .encodeBeforeManifest
  | some meshId => writeFile (.change (changeFileName entry)) (.change meshId entry)

/-- The latest stamp among entries, as `flushToAdapter` accumulates it. -/
def lastWrittenHlc (entries : List ChangeEntry) : Text :=
  entries.foldl (fun last entry =>
    if last = [] ∨ isPos (hlcCompareStr entry.hlc last) then entry.hlc else last) []

/-- `readHeadIfExists`: the `latestHlc` of the head, if there is one. -/
def readHeadIfExists : Eng (Option Text) :=
  attempt (do
    match ← readFile changesHead with
    | .head latestHlc => pure latestHlc
    | .malformed => fail .malformedJson
    | _ => pure none) fun _ => pure none

/-- Move the head hint forward, unless it is already at or beyond `last`. -/
def writeHead (last : Text) : Eng Unit := do
  let priorHlc ← readHeadIfExists
  let current := (truthy priorHlc).any fun prior => isNonNeg (hlcCompareStr prior last)
  if current then pure () else writeFile changesHead (.head (some last))

/-- `flushToAdapter` for the authoritative remote. -/
def flushToAdapter (manifest : Option Manifest) (entries : List ChangeEntry) : Eng Unit := do
  ensureFolder .changes
  Proc.forEach entries (writeChangeFile manifest)
  Proc.when (lastWrittenHlc entries ≠ []) (writeHead (lastWrittenHlc entries))
  upsertDeviceMetadata {}

/-- `flushPrimary`, without replicas. -/
def flushPrimary (manifest : Option Manifest) (entries : List ChangeEntry) : Eng Unit := do
  recordFlushedChanges entries
  flushToAdapter manifest entries

/-! ## Pull -/

/-- `decodeChangePayload`. -/
def decodeChangePayload (manifest : Option Manifest) (content : Content) : Eng ChangeEntry :=
  match content with
  | .change meshId entry => do
    assertExpectedMeshId manifest meshId
    pure entry
  | .malformed => fail .malformedJson
  | _ => fail .invalidChangePayload

/-- Load the row that an op addresses. -/
def cacheRow (store : LocalStore) (tables : Tables) (op : Op) : Tables :=
  match store.getRow op.table op.rowId with
  | some row => tables.set op.table (((tables.get op.table).getD ∅).set op.rowId row)
  | none => tables

/-- `ensureRowsCached`: the rows that the ops address, as tables. -/
def cachedRows (store : LocalStore) (ops : List Op) : Tables := ops.foldl (cacheRow store) ∅

/-- Merge one entry into the rows of a store. -/
def mergeEntry (store : LocalStore) (entry : ChangeEntry) (schemaVersion : ℕ)
    (schema : Option DatabaseSchemaDefinition) : Except MergeError LocalStore :=
  match applyChangeEntry (cachedRows store entry.ops) entry schemaVersion schema with
  | .error e => .error e
  | .ok (affected, _) => .ok (store.putRows affected)

/-- What `getRows` hands out: `IndexedDbLocalStore` copies of its rows, `MemoryLocalStore` the rows
that it holds. -/
inductive HandedOut where
  | copies
  | held

/-- The store after a merge that threw: the rows it holds have been changed in place. -/
def HandedOut.afterThrow (handed : HandedOut) (store : LocalStore) (entry : ChangeEntry)
    (schemaVersion : ℕ) (schema : Option DatabaseSchemaDefinition) : LocalStore :=
  match handed with
  | .copies => store
  | .held =>
    let tables := reachedTables schemaVersion schema entry.ops (cachedRows store entry.ops)
    { store with
      rows := entry.ops.foldl (fun rows op =>
        match store.getRow op.table op.rowId, rowAt tables op.table op.rowId with
        | some _, some row => rows.set (LocalStore.rowKey op.table op.rowId) row
        | _, _ => rows) store.rows }

theorem exists_mergeEntry_eq {store store' : LocalStore} {entry : ChangeEntry} {schemaVersion : ℕ}
    {schema : Option DatabaseSchemaDefinition}
    (h : mergeEntry store entry schemaVersion schema = .ok store') :
    ∃ rows, store' = { store with rows := rows } := by
  rw [mergeEntry] at h
  split at h
  · exact absurd h (by simp)
  · obtain rfl := Except.ok.inj h
    exact ⟨_, LocalStore.putRows_eq _ _⟩

theorem mergeEntry_congr {s t store' : LocalStore} (hrows : s.rows = t.rows) {entry : ChangeEntry}
    {schemaVersion : ℕ} {schema : Option DatabaseSchemaDefinition}
    (h : mergeEntry s entry schemaVersion schema = .ok store') :
    mergeEntry t entry schemaVersion schema = .ok { t with rows := store'.rows } := by
  have hcache : cacheRow s = cacheRow t := by
    funext tables op
    rw [cacheRow, cacheRow, LocalStore.getRow, LocalStore.getRow, hrows]
  have hcached : cachedRows s entry.ops = cachedRows t entry.ops := by
    rw [cachedRows, cachedRows, hcache]
  rw [mergeEntry, hcached] at h
  rw [mergeEntry]
  split at h
  · exact absurd h (by simp)
  · obtain rfl := Except.ok.inj h
    rw [LocalStore.putRows_eq, LocalStore.putRows_eq, hrows]

/-- The names in a listing that a pull has to read: sorted, each once, and unseen. -/
def unseenFiles (ledger : ChangeObservationLedger) (files : List Text) : List Text :=
  ((files.insertionSort fun a b => compareChangeFiles a b ≤ 0).foldl
    (fun names n => ChangeObservationLedger.addName n names) []).filter
      fun name => decide (name ≠ headName) && ledger.isUnseenChange name

theorem mem_unseenFiles {ledger : ChangeObservationLedger} {files : List Text} {name : Text} :
    name ∈ unseenFiles ledger files ↔
      name ∈ files ∧ name ≠ headName ∧ ledger.isUnseenChange name = true := by
  rw [unseenFiles, List.mem_filter, ChangeObservationLedger.mem_foldl_addName,
    List.mem_insertionSort, Bool.and_eq_true, decide_eq_true_iff]
  simp

theorem nodup_unseenFiles (ledger : ChangeObservationLedger) (files : List Text) :
    (unseenFiles ledger files).Nodup := by
  have hadd : ∀ (extra names : List Text), names.Nodup →
      (extra.foldl (fun names n => ChangeObservationLedger.addName n names) names).Nodup := by
    intro extra
    induction extra with
    | nil => exact fun _ h => h
    | cons n extra ih =>
      intro names h
      refine ih _ ?_
      show (ChangeObservationLedger.addName n names).Nodup
      rw [ChangeObservationLedger.addName]
      split
      · exact h
      · rename_i hn
        rw [List.nodup_append]
        refine ⟨h, List.nodup_singleton n, fun a ha b hb => ?_⟩
        rw [List.mem_singleton] at hb
        exact fun hab => hn (hb ▸ hab ▸ ha)
  exact (hadd _ [] List.nodup_nil).filter _

/-- One turn of the loop of `pull`: read, decode, advance the clock, merge, observe. -/
def pullFile (manifest : Option Manifest) (name : Text)
    (progress : Hlc × ChangeObservationLedger) : Eng (Hlc × ChangeObservationLedger) := do
  let content ← readFile (.change name)
  let entry ← decodeChangePayload manifest content
  let wall ← Eng.now
  let hlc := hlcReceive wall progress.1 (hlcParse entry.hlc)
  let d ← Proc.get
  match mergeEntry d.store entry ((manifest.map fun m => m.schema).getD 1) d.config.schema with
  | .error e => fail (.merge e)
  | .ok store =>
    modifyStore fun _ => store
    match progress.2.observe name entry.hlc with
    | none => fail (observeError name)
    | some ledger => pure (hlc, ledger)

/-- The loop of `pull`. -/
def pullFiles (manifest : Option Manifest) :
    List Text → Hlc × ChangeObservationLedger → Eng (Hlc × ChangeObservationLedger)
  | [], progress => pure progress
  | name :: rest, progress => do
    let progress ← attempt (pullFile manifest name progress) fun e => do fail (← poisonRemote e)
    pullFiles manifest rest progress

/-- `listFiles` of the changes folder: only an access decision is an error, any other
failure counts as a missing folder. -/
def listChangesIfExists : Eng (Option (List Text)) :=
  attempt (do pure (some (← listChanges))) fun e =>
    if (accessKind (.thrown e)).isSome then fail e else pure none

/-- `pull`: the clock after it. -/
def pull (loadManifest : Eng Unit) : Eng Hlc := do
  let d ← Proc.get
  loadManifest
  let ledger := ChangeObservationLedger.load (← metadata).changeObservation
  let _ ← readHeadIfExists
  match ← listChangesIfExists with
  | none => pure d.hlc
  | some files =>
    let (hlc, ledger) ← pullFiles d.manifest (unseenFiles ledger files) (d.hlc, ledger)
    setMeta fun m =>
      { m with
        changeObservation := (ledger.persist m.changeObservation).or m.changeObservation
        hlc := some (hlcSerialize hlc) }
    pure hlc

end Interocitor
