import Interocitor.Core.ChangeObservation
import Interocitor.Core.Remote

/-!
# `memory-store.ts`: the local store

Rows, the outbox of change entries waiting to be published, the batch that has not
been promoted to the outbox yet, and metadata.  Rows are keyed by the text
`<table>/<rowId>`.  The metadata records that the engine reads are fields here; every
other record is in `other`.
-/

namespace Interocitor

open CodeUnits OrderedRecord

/-- `QuarantinedOfflineChanges`. -/
structure QuarantinedOfflineChanges where
  expiredAt : ℕ
  lastSuccessfulSyncAt : ℕ
  maxOfflineDurationMs : ℤ
  entries : List ChangeEntry

/-- The metadata of a store: `getMeta` and `setMeta` by key. -/
structure Metadata where
  hlc : Option Text
  epoch : Option ℕ
  meshId : Option Text
  meshLineage : Option ℤ
  manifestCache : Option Manifest
  changeObservation : Option StoredObservationState
  lastSuccessfulSyncAt : Option ℕ
  offlineRetentionExpiredAt : Option ℕ
  quarantinedOfflineChanges : Option QuarantinedOfflineChanges
  schemaVersion : Option ℕ
  other : Record Text JsValue

/-- No metadata. -/
def Metadata.empty : Metadata :=
  ⟨none, none, none, none, none, none, none, none, none, none, ∅⟩

/-- `MemoryLocalStore`, without the cursors that nothing reads. -/
structure LocalStore where
  rows : Record Text Row
  outbox : List ChangeEntry
  pendingBatch : Option ChangeEntry
  metadata : Metadata

namespace LocalStore

/-- `"/"`. -/
def slash : CodeUnit := 47

/-- `rowKey`. -/
def rowKey (table rowId : Text) : Text := table ++ slash :: rowId

/-- The key a row is stored under. -/
def keyOf (row : Row) : Text := rowKey row._meta.table row._meta.rowId

/-- `getRow`. -/
def getRow (store : LocalStore) (table rowId : Text) : Option Row :=
  store.rows.get (rowKey table rowId)

/-- `putRow`. -/
def putRow (store : LocalStore) (row : Row) : LocalStore :=
  { store with rows := store.rows.set (keyOf row) row }

/-- `putRows`. -/
def putRows (store : LocalStore) (rows : List Row) : LocalStore := rows.foldl putRow store

/-- `getAllRows`. -/
def getAllRows (store : LocalStore) : List Row := store.rows.values

/-- The pending batch with a change appended: `hlc` is raised by the order of the
texts. -/
def joinBatch (pending : Option ChangeEntry) (change : ChangeEntry) : ChangeEntry :=
  match pending with
  | some p =>
    { p with
      hlc := if p.hlc < change.hlc then change.hlc else p.hlc
      ops := p.ops ++ change.ops }
  | none => change

/-- `commitLocalMutation`. -/
def commitLocalMutation (store : LocalStore) (row : Row) (change : ChangeEntry) : LocalStore :=
  let batch := joinBatch store.pendingBatch change
  { store with
    rows := store.rows.set (keyOf row) row
    pendingBatch := some batch
    metadata := { store.metadata with hlc := some batch.hlc } }

/-- `promotePendingBatch`. -/
def promotePendingBatch (store : LocalStore) : LocalStore :=
  match store.pendingBatch with
  | some pending => { store with outbox := store.outbox ++ [pending], pendingBatch := none }
  | none => store

/-- `pushOutboxEntries`. -/
def pushOutboxEntries (store : LocalStore) (entries : List ChangeEntry) : LocalStore :=
  { store with outbox := store.outbox ++ entries }

/-- `acknowledgeOutbox`. -/
def acknowledgeOutbox (store : LocalStore) (entryIds : List Text) : LocalStore :=
  { store with outbox := store.outbox.filter fun entry => decide (entry.id ∉ entryIds) }

/-- A store that holds nothing: a new one, and what `clearAll` leaves. -/
def empty : LocalStore := ⟨∅, [], none, .empty⟩

/-- The entries that are not published yet. -/
def queued (store : LocalStore) : List ChangeEntry := store.outbox ++ store.pendingBatch.toList

theorem putRows_eq (store : LocalStore) (rows : List Row) :
    store.putRows rows =
      { store with rows := rows.foldl (fun r row => r.set (keyOf row) row) store.rows } := by
  induction rows generalizing store with
  | nil => rfl
  | cons row rows ih => exact ih (store.putRow row)

end LocalStore

end Interocitor
