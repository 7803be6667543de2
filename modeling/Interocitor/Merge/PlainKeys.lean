import Interocitor.Core.SyncEngine
import Interocitor.Foundation.PlainObjects

/-!
# Names as keys of plain objects

The tables in memory, the payload of a row, the columns of an op, the fields of an effect and the
tables of a snapshot are plain objects, and their keys are the table names, row ids and column names
that applications and peers choose.  The rest of this development has finite maps in their place.
Here the five operations that read and write such objects are written over plain objects, and
compared with the maps.

* A table whose name every object inherits is not created: `!tables[name]` is false, and the code
  goes on with the built-in object.  What it then reads and writes there is outside of the tables,
  and the model stops (`Fault.builtinTable`).
* A row whose id is inherited is found before it exists; it has no `_meta`, which is a `TypeError`.
* A column named `__proto__` is assigned to the prototype of the payload, of the op's columns or of
  the fields, and no entry appears.  In `createRowChangeEffect` a new column with any inherited name
  has a previous value, a function, and a function cannot be cloned.

The merge strategies are looked up in the schema as `Core.Crdt` has it: that is configuration, and
its maps are no part of what is compared.

* `plain_keys_iff`: exactly when none of the names is inherited.
-/

namespace Interocitor

open CodeUnits OrderedRecord PlainObjects List Option

namespace PlainKeys

/-- The names of `Object.prototype`. -/
def names : ProtoNames Text := ⟨protoName, inheritedNames, by decide⟩

/-- A row, whose payload is a plain object. -/
structure Row where
  _meta : RowMeta
  payload : PlainObject Text ColumnEntry

/-- `Record<string, Record<string, Row>>`. -/
abbrev Tables := PlainObject Text (PlainObject Text Row)

/-- What an operation throws, or where the model does not follow it any further: into a built-in
object that it takes for a table, or into the properties of a prototype that was replaced. -/
inductive Fault where
  | merge (e : MergeError)
  | typeError
  | dataClone
  | builtinTable (table : Text)
  | foreign
  deriving DecidableEq

/-! ## Maps as objects -/

/-- The row that the properties make. -/
def Row.map (row : Row) : Interocitor.Row := ⟨row._meta, row.payload.own⟩

/-- A row whose payload consists of properties. -/
def Row.ofMap (row : Interocitor.Row) : Row := ⟨row._meta, ⟨row.payload, none⟩⟩

/-- Rows as the properties of a plain object. -/
def rowsOf (rows : Record Text Interocitor.Row) : PlainObject Text Row :=
  ⟨rows.mapValues Row.ofMap, none⟩

/-- Tables as the properties of plain objects. -/
def tablesOf (tables : Interocitor.Tables) : Tables := ⟨tables.mapValues rowsOf, none⟩

/-- The maps that the properties make. -/
def mapsOf (tables : Tables) : Interocitor.Tables :=
  tables.own.mapValues fun rows => rows.own.mapValues Row.map

@[simp] theorem Row.map_ofMap (row : Interocitor.Row) : (Row.ofMap row).map = row := rfl

@[simp] theorem mapsOf_tablesOf (tables : Interocitor.Tables) :
    mapsOf (tablesOf tables) = tables := by
  have hrows : ∀ rows : Record Text Interocitor.Row, (rowsOf rows).own.mapValues Row.map = rows :=
    Record.mapValues_left_inv _ Row.map_ofMap
  exact Record.mapValues_left_inv rowsOf (g := fun rows => rows.own.mapValues Row.map) hrows tables

/-! ## `applyOp` -/

/-- `mergeColumn`, of what a lookup found.  Nothing of the built-in prototype has an `hlc`. -/
def mergeFound (existing : Found ColumnEntry) (incoming : ColumnEntry) (strategy : MergeStrategy)
    (table rowId field : Text) : Except Fault (Option ColumnEntry) :=
  match existing with
  | .absent => .ok (some incoming)
  | .builtin => .ok (some incoming)
  | .value old => (mergeColumn (some old) incoming strategy table rowId field).mapError .merge
  | .foreign => .error .foreign

/-- The loop over the columns to apply. -/
def applyColumns (schema : Option DatabaseSchemaDefinition) (table rowId : Text) :
    List (Text × ColumnEntry) → PlainObject Text ColumnEntry → Bool →
      Except Fault (PlainObject Text ColumnEntry × Bool)
  | [], payload, changed => .ok (payload, changed)
  | (col, entry) :: rest, payload, changed =>
    match resolveStrategy schema table col with
    | .error e => .error (.merge e)
    | .ok strategy =>
      match mergeFound (payload.get names col) entry strategy table rowId col with
      | .error e => .error e
      | .ok none => applyColumns schema table rowId rest payload changed
      | .ok (some winner) =>
        applyColumns schema table rowId rest (payload.set names col winner) true

/-- `blankRow`. -/
def blankRow (table rowId : Text) (schemaVersion : ℕ) : Row :=
  ⟨⟨table, rowId, false, none, schemaVersion, none⟩, .empty⟩

/-- The upsert branch of `applyOp`. -/
def applyUpsert (existing : Option Row) (table rowId : Text) (columns : Record Text ColumnEntry)
    (schemaVersion : ℕ) (schema : Option DatabaseSchemaDefinition) : Except Fault (Option Row) :=
  let row := existing.getD (blankRow table rowId schemaVersion)
  match if row._meta.deleted then truthy row._meta.deletedHlc else none with
  | some deletedHlc =>
    let columnsToApply :=
      columns.entries.filter fun p => isPos (hlcCompareStr p.2.hlc deletedHlc)
    if columnsToApply.isEmpty then .ok none
    else
      (applyColumns schema table rowId columnsToApply .empty true).map fun out =>
        some ⟨{ row._meta with deleted := false, deletedHlc := none }, out.1⟩
  | none =>
    (applyColumns schema table rowId columns.entries row.payload existing.isNone).map fun out =>
      if out.2 then some ⟨row._meta, out.1⟩ else none

/-- An op against the row it addresses.  The delete branch reads the metadata and the properties of
the payload only. -/
def applyToRow (existing : Option Row) (op : Op) (schemaVersion : ℕ)
    (schema : Option DatabaseSchemaDefinition) : Except Fault (Option Row) :=
  match op with
  | .delete table rowId hlc =>
    .ok ((applyDelete (existing.map Row.map) table rowId hlc schemaVersion).map Row.ofMap)
  | .upsert table rowId columns => applyUpsert existing table rowId columns schemaVersion schema

/-- Keep the affected row, if there is one. -/
def keepRow (rows : PlainObject Text Row) (rowId : Text) (row : Option Row) :
    Option Row × PlainObject Text Row :=
  (row, row.elim rows fun row => rows.set names rowId row)

/-- What `applyOp` does with the rows of a table: the affected row, and the rows after it. -/
def applyToRows (rows : PlainObject Text Row) (op : Op) (schemaVersion : ℕ)
    (schema : Option DatabaseSchemaDefinition) : Except Fault (Option Row × PlainObject Text Row) :=
  match rows.get names op.rowId with
  | .builtin => .error .typeError
  | .foreign => .error .foreign
  | .value existing =>
    (applyToRow (some existing) op schemaVersion schema).map (keepRow rows op.rowId)
  | .absent => (applyToRow none op schemaVersion schema).map (keepRow rows op.rowId)

/-- `applyOp`: the affected row, if any, and the new tables. -/
def applyOp (tables : Tables) (op : Op) (schemaVersion : ℕ)
    (schema : Option DatabaseSchemaDefinition) : Except Fault (Option Row × Tables) :=
  match tables.get names op.table with
  | .builtin => .error (.builtinTable op.table)
  | .foreign => .error .foreign
  | .value rows =>
    (applyToRows rows op schemaVersion schema).map fun out =>
      (out.1, tables.set names op.table out.2)
  | .absent =>
    (applyToRows .empty op schemaVersion schema).map fun out =>
      (out.1, tables.set names op.table out.2)

/-- `applyChangeEntry`, from the rows affected so far. -/
def applyOps (schemaVersion : ℕ) (schema : Option DatabaseSchemaDefinition) :
    List Op → List Row → Tables → Except Fault (List Row × Tables)
  | [], affected, tables => .ok (affected, tables)
  | op :: ops, affected, tables =>
    match applyOp tables op schemaVersion schema with
    | .error e => .error e
    | .ok (row, tables) => applyOps schemaVersion schema ops (affected ++ row.toList) tables

/-- The ops one after the other. -/
def foldOps (schemaVersion : ℕ) (schema : Option DatabaseSchemaDefinition) (ops : List Op)
    (tables : Tables) : Except Fault Tables :=
  ops.foldlM (fun tables op => (applyOp tables op schemaVersion schema).map Prod.snd) tables

/-! ### As on maps -/

theorem mergeFound_eq (payload : Record Text ColumnEntry) (incoming : ColumnEntry)
    (strategy : MergeStrategy) (table rowId field : Text) :
    mergeFound ((⟨payload, none⟩ : PlainObject Text ColumnEntry).get names field) incoming strategy
        table rowId field =
      (mergeColumn (payload.get field) incoming strategy table rowId field).mapError .merge := by
  rw [PlainObject.get]
  dsimp only
  cases payload.get field with
  | some old => rfl
  | none =>
    dsimp only
    split_ifs <;> rfl

theorem applyColumns_eq (schema : Option DatabaseSchemaDefinition) (table rowId : Text)
    {cols : List (Text × ColumnEntry)} (h : ∀ p ∈ cols, p.1 ≠ names.proto)
    (payload : Record Text ColumnEntry) (changed : Bool) :
    applyColumns schema table rowId cols ⟨payload, none⟩ changed =
      ((Interocitor.applyColumns schema table rowId cols payload changed).mapError
        Fault.merge).map fun out => (⟨out.1, none⟩, out.2) := by
  induction cols generalizing payload changed with
  | nil => rfl
  | cons p cols ih =>
    obtain ⟨col, entry⟩ := p
    rw [forall_mem_cons] at h
    rw [applyColumns, Interocitor.applyColumns]
    cases resolveStrategy schema table col with
    | error e => rfl
    | ok strategy =>
      dsimp only
      rw [mergeFound_eq]
      cases mergeColumn (payload.get col) entry strategy table rowId col with
      | error e => rfl
      | ok winner =>
        cases winner with
        | none => exact ih h.2 payload changed
        | some winner =>
          change applyColumns schema table rowId cols
            ((⟨payload, none⟩ : PlainObject Text ColumnEntry).set names col winner) true = _
          rw [PlainObject.set_ne h.1]
          exact ih h.2 (payload.set col winner) true

theorem applyUpsert_eq {columns : Record Text ColumnEntry} (h : names.proto ∉ columns.keys)
    (existing : Option Interocitor.Row) (table rowId : Text) (schemaVersion : ℕ)
    (schema : Option DatabaseSchemaDefinition) :
    applyUpsert (existing.map Row.ofMap) table rowId columns schemaVersion schema =
      ((Interocitor.applyUpsert existing table rowId columns schemaVersion schema).mapError
        Fault.merge).map (Option.map Row.ofMap) := by
  have hcols : ∀ p ∈ columns.entries, p.1 ≠ names.proto :=
    fun p hp hproto => h (hproto ▸ mem_map_of_mem hp)
  have hrow : (existing.map Row.ofMap).getD (blankRow table rowId schemaVersion) =
      Row.ofMap (existing.getD (Interocitor.blankRow table rowId schemaVersion false none)) := by
    cases existing <;> rfl
  have hnone : (existing.map Row.ofMap).isNone = existing.isNone := by cases existing <;> rfl
  simp only [applyUpsert, Interocitor.applyUpsert, hrow, hnone]
  set row := existing.getD (Interocitor.blankRow table rowId schemaVersion false none)
  have hmeta : (Row.ofMap row)._meta = row._meta := rfl
  rw [hmeta]
  cases (if row._meta.deleted then truthy row._meta.deletedHlc else none) with
  | none =>
    dsimp only
    rw [Row.ofMap, applyColumns_eq schema table rowId hcols]
    cases Interocitor.applyColumns schema table rowId columns.entries row.payload
      existing.isNone with
    | error e => rfl
    | ok out =>
      obtain ⟨payload, changed⟩ := out
      cases changed <;> rfl
  | some deletedHlc =>
    dsimp only
    split_ifs
    · rfl
    · rw [PlainObject.empty, applyColumns_eq schema table rowId
        fun p hp => hcols p (mem_filter.mp hp).1]
      cases Interocitor.applyColumns schema table rowId (columns.entries.filter fun p =>
        isPos (hlcCompareStr p.2.hlc deletedHlc)) ∅ true with
      | error e => rfl
      | ok out => rfl

variable {op : Op}

theorem applyToRow_eq (h : names.proto ∉ op.columnNames) (existing : Option Interocitor.Row)
    (schemaVersion : ℕ) (schema : Option DatabaseSchemaDefinition) :
    applyToRow (existing.map Row.ofMap) op schemaVersion schema =
      ((Interocitor.applyToRow existing op schemaVersion schema).mapError Fault.merge).map
        (Option.map Row.ofMap) := by
  cases op with
  | upsert table rowId columns => exact applyUpsert_eq h existing table rowId schemaVersion schema
  | delete table rowId hlc =>
    rw [applyToRow, Option.map_map]
    have hid : existing.map (Row.map ∘ Row.ofMap) = existing := by cases existing <;> rfl
    rw [hid]
    rfl

theorem get_rowsOf {rows : Record Text Interocitor.Row} {k : Text} (hk : k ∉ names.inherited) :
    (rowsOf rows).get names k = .ofOption ((rows.get k).map Row.ofMap) := by
  have hwhole : (rowsOf rows).Whole := rfl
  rw [PlainObject.get_whole hwhole hk, rowsOf, Record.get_mapValues]

theorem set_rowsOf {k : Text} (hk : k ≠ names.proto) (rows : Record Text Interocitor.Row)
    (row : Interocitor.Row) :
    (rowsOf rows).set names k (Row.ofMap row) = rowsOf (rows.set k row) := by
  rw [PlainObject.set_ne hk, rowsOf, rowsOf, Record.mapValues_set]

theorem applyToRows_eq (hrow : op.rowId ∉ names.inherited) (hcols : names.proto ∉ op.columnNames)
    (rows : Record Text Interocitor.Row) (schemaVersion : ℕ)
    (schema : Option DatabaseSchemaDefinition) :
    applyToRows (rowsOf rows) op schemaVersion schema =
      ((Interocitor.applyToRow (rows.get op.rowId) op schemaVersion schema).mapError
        Fault.merge).map fun row =>
          (row.map Row.ofMap, rowsOf (row.elim rows fun row => rows.set op.rowId row)) := by
  have hproto := PlainObject.ne_proto hrow
  have heq := applyToRow_eq hcols (rows.get op.rowId) schemaVersion schema
  have hkeep : ∀ row : Option Interocitor.Row,
      keepRow (rowsOf rows) op.rowId (row.map Row.ofMap) =
        (row.map Row.ofMap, rowsOf (row.elim rows fun row => rows.set op.rowId row)) := by
    intro row
    cases row with
    | none => rfl
    | some row => exact congrArg (Prod.mk _) (set_rowsOf hproto rows row)
  rw [applyToRows, get_rowsOf hrow]
  cases hget : rows.get op.rowId with
  | none =>
    rw [hget, map_none] at heq
    simp only [map_none, Found.ofOption]
    rw [heq]
    cases Interocitor.applyToRow none op schemaVersion schema with
    | error e => rfl
    | ok row => exact congrArg Except.ok (hkeep row)
  | some existing =>
    rw [hget, map_some] at heq
    simp only [map_some, Found.ofOption]
    rw [heq]
    cases Interocitor.applyToRow (some existing) op schemaVersion schema with
    | error e => rfl
    | ok row => exact congrArg Except.ok (hkeep row)

/-- **One op**, under names that are not inherited. -/
theorem applyOp_eq (h : op.Ordinary) (tables : Interocitor.Tables) (schemaVersion : ℕ)
    (schema : Option DatabaseSchemaDefinition) :
    applyOp (tablesOf tables) op schemaVersion schema =
      ((Interocitor.applyOp tables op schemaVersion schema).mapError Fault.merge).map fun out =>
        (out.1.map Row.ofMap, tablesOf out.2) := by
  have hset : ∀ rows : Record Text Interocitor.Row,
      (tablesOf tables).set names op.table (rowsOf rows) =
        tablesOf (tables.set op.table rows) := by
    intro rows
    rw [PlainObject.set_ne (PlainObject.ne_proto h.table), tablesOf, tablesOf, Record.mapValues_set]
  have hrows : applyOp (tablesOf tables) op schemaVersion schema =
      (applyToRows (rowsOf ((tables.get op.table).getD ∅)) op schemaVersion schema).map fun out =>
        (out.1, (tablesOf tables).set names op.table out.2) := by
    have hwhole : (tablesOf tables).Whole := rfl
    rw [applyOp, PlainObject.get_whole hwhole h.table, tablesOf, Record.get_mapValues]
    cases tables.get op.table <;> rfl
  rw [hrows, applyToRows_eq h.rowId h.columns, Interocitor.applyOp]
  cases Interocitor.applyToRow (((tables.get op.table).getD ∅).get op.rowId) op schemaVersion
    schema with
  | error e => rfl
  | ok row =>
    cases row with
    | none => exact congrArg (fun tables => Except.ok (none, tables)) (hset _)
    | some row => exact congrArg (fun tables => Except.ok (some (Row.ofMap row), tables)) (hset _)

theorem applyOp_eq_ok (h : op.Ordinary) {tables : Interocitor.Tables} {schemaVersion : ℕ}
    {schema : Option DatabaseSchemaDefinition} {out : Option Row × Tables}
    (hok : applyOp (tablesOf tables) op schemaVersion schema = .ok out) :
    ∃ row tables', Interocitor.applyOp tables op schemaVersion schema = .ok (row, tables') ∧
      out.2 = tablesOf tables' := by
  rw [applyOp_eq h] at hok
  cases happly : Interocitor.applyOp tables op schemaVersion schema with
  | error e =>
    rw [happly] at hok
    cases hok
  | ok res =>
    rw [happly] at hok
    exact ⟨res.1, res.2, rfl, congrArg Prod.snd (Except.ok.inj hok).symm⟩

/-- **A list of ops**, under names that are not inherited. -/
theorem applyOps_eq (schemaVersion : ℕ) (schema : Option DatabaseSchemaDefinition) {ops : List Op}
    (h : ∀ op ∈ ops, op.Ordinary) (affected : List Interocitor.Row) (tables : Interocitor.Tables) :
    applyOps schemaVersion schema ops (affected.map Row.ofMap) (tablesOf tables) =
      ((applyOpsLoop schemaVersion schema ops affected tables).mapError Fault.merge).map fun out =>
        (out.1.map Row.ofMap, tablesOf out.2) := by
  induction ops generalizing affected tables with
  | nil => rfl
  | cons op ops ih =>
    rw [forall_mem_cons] at h
    rw [applyOps, applyOpsLoop, applyOp_eq h.1]
    cases Interocitor.applyOp tables op schemaVersion schema with
    | error e => rfl
    | ok out =>
      obtain ⟨row, tables'⟩ := out
      have happend : affected.map Row.ofMap ++ (row.map Row.ofMap).toList =
          (affected ++ row.toList).map Row.ofMap := by
        cases row <;> simp
      change applyOps schemaVersion schema ops
        (affected.map Row.ofMap ++ (row.map Row.ofMap).toList) (tablesOf tables') = _
      rw [happend]
      exact ih h.2 (affected ++ row.toList) tables'

/-- **A fold of ops**, under names that are not inherited. -/
theorem foldOps_eq (schemaVersion : ℕ) (schema : Option DatabaseSchemaDefinition) {ops : List Op}
    (h : ∀ op ∈ ops, op.Ordinary) (tables : Interocitor.Tables) :
    foldOps schemaVersion schema ops (tablesOf tables) =
      ((ops.foldlM (fun tables op =>
        (Interocitor.applyOp tables op schemaVersion schema).map Prod.snd) tables).mapError
          Fault.merge).map tablesOf := by
  induction ops generalizing tables with
  | nil => rfl
  | cons op ops ih =>
    rw [forall_mem_cons] at h
    rw [foldOps, foldlM_cons, foldlM_cons, applyOp_eq h.1]
    cases Interocitor.applyOp tables op schemaVersion schema with
    | error e => rfl
    | ok out => exact ih h.2 out.2

/-! ## `putNow` -/

/-- The row that `putNow` writes into. -/
def rowForPut (current : Option Row) (table rowId : Text) (schemaVersion : ℕ) : Row :=
  match current with
  | some row => ⟨row._meta, if row._meta.deleted then .empty else row.payload.spread⟩
  | none => ⟨⟨table, rowId, false, none, schemaVersion, none⟩, .empty⟩

/-- Write columns with one stamp; `undefined` is stored as `null`. -/
def putColumns (payload : PlainObject Text ColumnEntry) (columns : List (Text × JsValue))
    (stamp : Text) : PlainObject Text ColumnEntry :=
  columns.foldl (fun payload p =>
    payload.set names p.1 ⟨match p.2 with | .undefined => .null | v => v, stamp⟩) payload

/-- `rowToSyncOp`; the branch of a tombstone reads the metadata and the properties only. -/
def rowToSyncOp (row : Row) : Option Op :=
  if row._meta.deleted then Interocitor.rowToSyncOp row.map
  else
    let columns : PlainObject Text ColumnEntry :=
      (row.payload.own.entries.filter fun p => decide (p.2.hlc ≠ [])).foldl
        (fun columns p => columns.set names p.1 p.2) .empty
    if columns.own.entries = [] then none
    else some (.upsert row._meta.table row._meta.rowId columns.own)

/-- `putNow`: the row that it stores, and the op. -/
def putNow (current : Option Row) (table rowId : Text) (schemaVersion : ℕ) (deviceId : Text)
    (columns : List (Text × JsValue)) (stamp : Text) : Row × Option Op :=
  let base := rowForPut current table rowId schemaVersion
  let row : Row :=
    ⟨{ base._meta with deleted := false, deletedHlc := none, owner := some deviceId },
      putColumns base.payload columns stamp⟩
  (row, rowToSyncOp row)

/-- The row that `putNow` stores, with a map for the payload. -/
def putRowMap (current : Option Interocitor.Row) (table rowId : Text) (schemaVersion : ℕ)
    (deviceId : Text) (columns : List (Text × JsValue)) (stamp : Text) : Interocitor.Row :=
  let base := Interocitor.rowForPut current table rowId schemaVersion
  ⟨{ base._meta with deleted := false, deletedHlc := none, owner := some deviceId },
    Interocitor.putColumns base.payload columns stamp⟩

variable {columns : List (Text × JsValue)}

theorem putColumns_eq (h : ∀ p ∈ columns, p.1 ≠ names.proto) (payload : Record Text ColumnEntry)
    (stamp : Text) :
    putColumns ⟨payload, none⟩ columns stamp =
      ⟨Interocitor.putColumns payload columns stamp, none⟩ := by
  have hstored : storedColumns columns = columns :=
    filter_eq_self.mpr fun p hp => decide_eq_true (h p hp)
  rw [Interocitor.putColumns, hstored]
  clear hstored
  induction columns generalizing payload with
  | nil => rfl
  | cons p columns ih =>
    rw [forall_mem_cons] at h
    rw [putColumns, foldl_cons, PlainObject.set_ne h.1, ← putColumns]
    exact ih h.2 _

theorem rowToSyncOp_eq {row : Interocitor.Row} (h : names.proto ∉ row.payload.keys) :
    rowToSyncOp (Row.ofMap row) = Interocitor.rowToSyncOp row := by
  have hkeys : ∀ p ∈ row.payload.entries.filter fun p => decide (p.2.hlc ≠ []),
      p.1 ≠ names.proto :=
    fun p hp hproto => h (hproto ▸ mem_map_of_mem (mem_filter.mp hp).1)
  have hcolumns : (row.payload.entries.filter fun p => decide (p.2.hlc ≠ [])).foldl
      (fun (columns : PlainObject Text ColumnEntry) p => columns.set names p.1 p.2)
        PlainObject.empty =
          ⟨row.payload.filter fun _ entry => decide (entry.hlc ≠ []), none⟩ := by
    have hall := Record.setAll_empty
      (r := row.payload.filter fun _ (entry : ColumnEntry) => decide (entry.hlc ≠ []))
    rw [PlainObject.foldl_set hkeys]
    exact congrArg (fun own => PlainObject.mk own none) hall
  have hmeta : (Row.ofMap row)._meta = row._meta := rfl
  have hown : (Row.ofMap row).payload.own = row.payload := rfl
  rw [rowToSyncOp, hmeta, hown, hcolumns, Row.map_ofMap]
  rw [Interocitor.rowToSyncOp]
  split_ifs <;> rfl

theorem mem_keys_putColumns {payload : Record Text ColumnEntry} {stamp c : Text}
    (h : c ∈ (Interocitor.putColumns payload columns stamp).keys) :
    c ∈ payload.keys ∨ ∃ p ∈ columns, p.1 = c := by
  have hstored : ∀ p ∈ storedColumns columns, p ∈ columns := fun p hp => (mem_filter.mp hp).1
  rw [Interocitor.putColumns] at h
  generalize storedColumns columns = stored at h hstored
  induction stored generalizing payload with
  | nil => exact .inl h
  | cons p stored ih =>
    rw [forall_mem_cons] at hstored
    rcases ih h hstored.2 with hpayload | hcolumn
    · rcases mem_map_fst_put.mp hpayload with hp | hpayload
      · exact .inr ⟨p, hstored.1, hp.symm⟩
      · exact .inl hpayload
    · exact .inr hcolumn

theorem putNow_eq {current : Option Interocitor.Row}
    (hcurrent : ∀ row, current = some row → names.proto ∉ row.payload.keys)
    (hcolumns : ∀ p ∈ columns, p.1 ≠ names.proto) (table rowId : Text) (schemaVersion : ℕ)
    (deviceId stamp : Text) :
    putNow (current.map Row.ofMap) table rowId schemaVersion deviceId columns stamp =
      (.ofMap (putRowMap current table rowId schemaVersion deviceId columns stamp),
        Interocitor.rowToSyncOp
          (putRowMap current table rowId schemaVersion deviceId columns stamp)) := by
  set base := Interocitor.rowForPut current table rowId schemaVersion with hbase
  have hrow : rowForPut (current.map Row.ofMap) table rowId schemaVersion = Row.ofMap base := by
    cases current with
    | none => rfl
    | some row =>
      rw [hbase]
      simp only [rowForPut, Interocitor.rowForPut, map_some, Row.ofMap, PlainObject.spread]
      split_ifs <;> rfl
  have hput : (⟨{ base._meta with deleted := false, deletedHlc := none, owner := some deviceId },
      putColumns (Row.ofMap base).payload columns stamp⟩ : Row) =
        .ofMap (putRowMap current table rowId schemaVersion deviceId columns stamp) := by
    rw [Row.ofMap, putColumns_eq hcolumns]
    rfl
  have hkeys : names.proto ∉
      (putRowMap current table rowId schemaVersion deviceId columns stamp).payload.keys := by
    intro hmem
    rcases mem_keys_putColumns hmem with hbasis | ⟨p, hp, hproto⟩
    · cases current with
      | none => exact absurd hbasis not_mem_nil
      | some row =>
        simp only [Interocitor.rowForPut] at hbasis
        split_ifs at hbasis
        · exact absurd hbasis not_mem_nil
        · exact hcurrent row rfl hbasis
    · exact hcolumns p hp hproto
  rw [putNow, hrow]
  dsimp only
  rw [show (Row.ofMap base)._meta = base._meta from rfl, hput, rowToSyncOp_eq hkeys]

/-! ## `createRowChangeEffect` -/

/-- What `structuredClone` makes of an entry, or of the built-in prototype. -/
inductive Cloned where
  | entry (e : ColumnEntry)
  | emptyObject

/-- `ColumnChangeEffect`. -/
structure ColumnChangeEffect where
  before : Option Cloned
  after : Option Cloned

/-- The kinds of a row effect. -/
inductive EffectKind where
  | create
  | update
  | delete
  | resurrect
  deriving DecidableEq

/-- `RowChangeEffect`, with its fields in an object or in a map. -/
structure RowChangeEffect (F : Type) where
  table : Text
  rowId : Text
  kind : EffectKind
  fields : F

/-- `columnEntriesEqual`, of what two lookups found: an entry has an `hlc`, and nothing built in
has. -/
def columnEntriesEqual : Found ColumnEntry → Found ColumnEntry → Bool
  | .absent, .absent => true
  | .builtin, .builtin => true
  | .value left, .value right =>
    decide (left.hlc = right.hlc) && columnValuesEqual left.value right.value
  | _, _ => false

/-- `structuredClone` of what a lookup found: of the inherited values only the prototype itself is
no function. -/
def cloneFound (name : Text) : Found ColumnEntry → Except Fault (Option Cloned)
  | .absent => .ok none
  | .value e => .ok (some (.entry e))
  | .builtin => if name = names.proto then .ok (some .emptyObject) else .error .dataClone
  | .foreign => .error .foreign

/-- The loop over the names. -/
def effectFields (before : Option Row) (after : Row) :
    List Text → PlainObject Text ColumnChangeEffect →
      Except Fault (PlainObject Text ColumnChangeEffect)
  | [], fields => .ok fields
  | name :: rest, fields =>
    let previous := before.elim .absent fun row => row.payload.get names name
    let next := after.payload.get names name
    if columnEntriesEqual previous next then effectFields before after rest fields
    else
      match cloneFound name previous, cloneFound name next with
      | .error e, _ => .error e
      | .ok _, .error e => .error e
      | .ok previous, .ok next =>
        effectFields before after rest (fields.set names name ⟨previous, next⟩)

/-- The own names of two payloads, each once. -/
def payloadNames (before : Option (Record Text ColumnEntry)) (after : Record Text ColumnEntry) :
    List Text :=
  let first := (before.map Record.keys).getD []
  first ++ after.keys.filter fun name => decide (name ∉ first)

/-- The kind of an effect. -/
def effectKind (before : Option RowMeta) (after : RowMeta) : EffectKind :=
  if after.deleted then .delete
  else if before.any fun m => m.deleted then .resurrect
  else if before.isSome then .update
  else .create

/-- `createRowChangeEffect`. -/
def createRowChangeEffect (table rowId : Text) (before after : Option Row) :
    Except Fault (Option (RowChangeEffect (PlainObject Text ColumnChangeEffect))) :=
  match after with
  | none => .ok none
  | some after =>
    (effectFields before after
      (payloadNames (before.map fun row => row.payload.own) after.payload.own) .empty).map
        fun fields =>
          if before.any (fun row => decide (row._meta.deleted = after._meta.deleted)) &&
              fields.own.entries.isEmpty then none
          else some ⟨table, rowId, effectKind (before.map Row._meta) after._meta, fields⟩

/-- Both are missing, or both are there and equal. -/
def sameEntry : Option ColumnEntry → Option ColumnEntry → Bool
  | none, none => true
  | some left, some right =>
    decide (left.hlc = right.hlc) && columnValuesEqual left.value right.value
  | _, _ => false

/-- The loop over the names, with maps. -/
def effectFieldsMap (before : Option Interocitor.Row) (after : Interocitor.Row) :
    List Text → Record Text ColumnChangeEffect → Record Text ColumnChangeEffect
  | [], fields => fields
  | name :: rest, fields =>
    let previous := before.bind fun row => row.payload.get name
    let next := after.payload.get name
    effectFieldsMap before after rest
      (if sameEntry previous next then fields
        else fields.set name ⟨previous.map .entry, next.map .entry⟩)

/-- The effect of a change on a row, with maps. -/
def rowChangeEffectMap (table rowId : Text) (before after : Option Interocitor.Row) :
    Option (RowChangeEffect (Record Text ColumnChangeEffect)) :=
  after.bind fun after =>
    let fields := effectFieldsMap before after
      (payloadNames (before.map fun row => row.payload) after.payload) ∅
    if before.any (fun row => decide (row._meta.deleted = after._meta.deleted)) &&
        fields.entries.isEmpty then none
    else
      some ⟨table, rowId, effectKind (before.map Interocitor.Row._meta) after._meta, fields⟩

/-- An effect whose fields are properties. -/
def effectOf (effect : RowChangeEffect (Record Text ColumnChangeEffect)) :
    RowChangeEffect (PlainObject Text ColumnChangeEffect) :=
  { effect with fields := ⟨effect.fields, none⟩ }

/-! ### As on maps -/

theorem columnEntriesEqual_ofOption (left right : Option ColumnEntry) :
    columnEntriesEqual (.ofOption left) (.ofOption right) = sameEntry left right := by
  cases left <;> cases right <;> rfl

theorem cloneFound_ofOption (name : Text) (entry : Option ColumnEntry) :
    cloneFound name (.ofOption entry) = .ok (entry.map .entry) := by
  cases entry <;> rfl

theorem effectFields_eq {l : List Text} (h : ∀ name ∈ l, name ∉ names.inherited)
    (before : Option Interocitor.Row) (after : Interocitor.Row)
    (fields : Record Text ColumnChangeEffect) :
    effectFields (before.map Row.ofMap) (.ofMap after) l ⟨fields, none⟩ =
      .ok ⟨effectFieldsMap before after l fields, none⟩ := by
  induction l generalizing fields with
  | nil => rfl
  | cons name l ih =>
    rw [forall_mem_cons] at h
    have hget : ∀ row : Interocitor.Row, (Row.ofMap row).payload.get names name =
        .ofOption (row.payload.get name) := by
      intro row
      have hwhole : (Row.ofMap row).payload.Whole := rfl
      rw [PlainObject.get_whole hwhole h.1]
      rfl
    have hprevious : (before.map Row.ofMap).elim .absent
        (fun row => row.payload.get names name) =
          .ofOption (before.bind fun row => row.payload.get name) := by
      cases before with
      | none => rfl
      | some row => exact hget row
    have hset : ∀ effect, (⟨fields, none⟩ : PlainObject Text ColumnChangeEffect).set names name
        effect = ⟨fields.set name effect, none⟩ :=
      PlainObject.set_ne (PlainObject.ne_proto h.1)
    rw [effectFields, effectFieldsMap]
    simp only [hprevious, hget, columnEntriesEqual_ofOption, cloneFound_ofOption, hset]
    split_ifs
    · exact ih h.2 fields
    · exact ih h.2 _

theorem mem_payloadNames {before : Option (Record Text ColumnEntry)}
    {after : Record Text ColumnEntry} {name : Text} (h : name ∈ payloadNames before after) :
    (∃ payload, before = some payload ∧ name ∈ payload.keys) ∨ name ∈ after.keys := by
  rcases mem_append.mp h with hfirst | hafter
  · cases before with
    | none => exact absurd hfirst not_mem_nil
    | some payload => exact .inl ⟨payload, rfl, hfirst⟩
  · exact .inr (mem_filter.mp hafter).1

theorem createRowChangeEffect_eq {before after : Option Interocitor.Row}
    (hbefore : ∀ row, before = some row → ∀ c ∈ row.payload.keys, c ∉ names.inherited)
    (hafter : ∀ row, after = some row → ∀ c ∈ row.payload.keys, c ∉ names.inherited)
    (table rowId : Text) :
    createRowChangeEffect table rowId (before.map Row.ofMap) (after.map Row.ofMap) =
      .ok ((rowChangeEffectMap table rowId before after).map effectOf) := by
  cases after with
  | none => rfl
  | some after =>
    have hnames : ∀ name ∈ payloadNames (before.map fun row => row.payload) after.payload,
        name ∉ names.inherited := by
      intro name hname
      rcases mem_payloadNames hname with ⟨payload, hpayload, hmem⟩ | hmem
      · obtain ⟨row, hrow, rfl⟩ := map_eq_some_iff.mp hpayload
        exact hbefore row hrow name hmem
      · exact hafter after rfl name hmem
    have hown : ((before.map Row.ofMap).map fun row => row.payload.own) =
        before.map fun row => row.payload := by
      cases before <;> rfl
    have hmeta : (before.map Row.ofMap).map Row._meta = before.map Interocitor.Row._meta := by
      cases before <;> rfl
    have hdeleted : ((before.map Row.ofMap).any fun row =>
        decide (row._meta.deleted = after._meta.deleted)) =
          before.any fun row => decide (row._meta.deleted = after._meta.deleted) := by
      cases before <;> rfl
    have hfields := effectFields_eq hnames before after ∅
    have hafterMeta : (Row.ofMap after)._meta = after._meta := rfl
    have hafterOwn : (Row.ofMap after).payload.own = after.payload := rfl
    simp only [map_some, createRowChangeEffect, rowChangeEffectMap, bind_some, hown,
      hmeta, hafterMeta, hafterOwn, hdeleted, PlainObject.empty, hfields, Except.map]
    split_ifs <;> rfl

/-! ## `compact` and `rehydrate` -/

/-- The loop of `compact` that builds the tables of a snapshot. -/
def snapshotTables : List Row → Tables → Except Fault Tables
  | [], tables => .ok tables
  | row :: rest, tables =>
    match tables.get names row._meta.table with
    | .builtin => .error (.builtinTable row._meta.table)
    | .foreign => .error .foreign
    | .value rows =>
      snapshotTables rest
        (tables.set names row._meta.table (rows.set names row._meta.rowId row))
    | .absent =>
      snapshotTables rest
        (tables.set names row._meta.table (PlainObject.empty.set names row._meta.rowId row))

/-- What `rehydrate` takes out of a snapshot: `Object.entries` of the tables, and `Object.values` of
the rows of each. -/
def restored (tables : Tables) : List Text × List Row :=
  (tables.own.keys, tables.own.values.flatMap fun rows => rows.own.values)

theorem snapshotTables_eq {rows : List Interocitor.Row}
    (h : ∀ row ∈ rows, row._meta.table ∉ names.inherited ∧ row._meta.rowId ≠ names.proto)
    (tables : Interocitor.Tables) :
    snapshotTables (rows.map Row.ofMap) (tablesOf tables) =
      .ok (tablesOf (rows.foldl (fun tables row => tables.set row._meta.table
        (((tables.get row._meta.table).getD ∅).set row._meta.rowId row)) tables)) := by
  induction rows generalizing tables with
  | nil => rfl
  | cons row rows ih =>
    rw [forall_mem_cons] at h
    have hset : ∀ rows : Record Text Interocitor.Row,
        (tablesOf tables).set names row._meta.table
          ((rowsOf rows).set names row._meta.rowId (Row.ofMap row)) =
            tablesOf (tables.set row._meta.table (rows.set row._meta.rowId row)) := by
      intro rows
      rw [set_rowsOf h.1.2, PlainObject.set_ne (PlainObject.ne_proto h.1.1), tablesOf, tablesOf,
        Record.mapValues_set]
    have hwhole : (tablesOf tables).Whole := rfl
    have hmeta : (Row.ofMap row)._meta = row._meta := rfl
    have hown : (tablesOf tables).own.get row._meta.table =
        (tables.get row._meta.table).map rowsOf := Record.get_mapValues _ _ _
    rw [map_cons, snapshotTables, hmeta, PlainObject.get_whole hwhole h.1.1, hown, foldl_cons]
    cases tables.get row._meta.table with
    | none =>
      simp only [map_none, Found.ofOption, getD_none]
      rw [show (PlainObject.empty : PlainObject Text Row) = rowsOf ∅ from rfl, hset]
      exact ih h.2 _
    | some stored =>
      simp only [map_some, Found.ofOption, getD_some]
      rw [hset]
      exact ih h.2 _

/-- **`rehydrate` reads properties**, whatever their names. -/
theorem restored_tablesOf (tables : Interocitor.Tables) :
    restored (tablesOf tables) =
      (tables.keys, (tables.values.flatMap fun rows => rows.values).map Row.ofMap) := by
  have hkeys : (tablesOf tables).own.keys = tables.keys := List.map_map
  have hvalues : ((tablesOf tables).own.values.flatMap fun rows => rows.own.values) =
      (tables.values.flatMap fun rows => rows.values).map Row.ofMap := by
    have hrows : ∀ rows : Record Text Interocitor.Row,
        (rowsOf rows).own.values = rows.values.map Row.ofMap := by
      intro rows
      rw [Record.values, Record.values, rowsOf, Record.mapValues, List.map_map, List.map_map]
      rfl
    have htables : (tablesOf tables).own.values = tables.values.map rowsOf := by
      rw [Record.values, Record.values, tablesOf, Record.mapValues, List.map_map, List.map_map]
      rfl
    rw [htables, flatMap_map, map_flatMap]
    exact congrArg (List.flatMap · tables.values) (funext hrows)
  rw [restored, hkeys, hvalues]

/-! ## For which names -/

/-- The five operations are those of finite maps, whatever they are given, as long as the names come
from three sets. -/
structure Behaves (tableNames rowIds columns : Set Text) : Prop where
  applyOps : ∀ (schemaVersion : ℕ) (schema : Option DatabaseSchemaDefinition) (ops : List Op)
    (tables : Interocitor.Tables),
    (∀ op ∈ ops, op.table ∈ tableNames ∧ op.rowId ∈ rowIds ∧ ∀ c ∈ op.columnNames, c ∈ columns) →
      PlainKeys.applyOps schemaVersion schema ops [] (tablesOf tables) =
        ((applyOpsLoop schemaVersion schema ops [] tables).mapError Fault.merge).map fun out =>
          (out.1.map Row.ofMap, tablesOf out.2)
  putNow : ∀ (current : Option Interocitor.Row) (table rowId : Text) (schemaVersion : ℕ)
    (deviceId stamp : Text) (columns' : List (Text × JsValue)),
    (∀ row, current = some row → ∀ c ∈ row.payload.keys, c ∈ columns) →
    (∀ p ∈ columns', p.1 ∈ columns) →
      PlainKeys.putNow (current.map Row.ofMap) table rowId schemaVersion deviceId columns' stamp =
        (.ofMap (putRowMap current table rowId schemaVersion deviceId columns' stamp),
          Interocitor.rowToSyncOp
            (putRowMap current table rowId schemaVersion deviceId columns' stamp))
  effects : ∀ (table rowId : Text) (before after : Option Interocitor.Row),
    (∀ row, before = some row → ∀ c ∈ row.payload.keys, c ∈ columns) →
    (∀ row, after = some row → ∀ c ∈ row.payload.keys, c ∈ columns) →
      createRowChangeEffect table rowId (before.map Row.ofMap) (after.map Row.ofMap) =
        .ok ((rowChangeEffectMap table rowId before after).map effectOf)
  compact : ∀ rows : List Interocitor.Row,
    (∀ row ∈ rows, row._meta.table ∈ tableNames ∧ row._meta.rowId ∈ rowIds) →
      snapshotTables (rows.map Row.ofMap) .empty =
        .ok (tablesOf (Interocitor.snapshotTables rows))
  rehydrate : ∀ tables : Interocitor.Tables, restored (tablesOf tables) =
    (tables.keys, (tables.values.flatMap fun rows => rows.values).map Row.ofMap)

theorem applyOp_inherited (h : op.table ∈ names.inherited ∨ op.rowId ∈ names.inherited)
    (schemaVersion : ℕ) (schema : Option DatabaseSchemaDefinition) :
    ∃ fault, applyOp .empty op schemaVersion schema = .error fault := by
  have hwhole : (PlainObject.empty : Tables).Whole := rfl
  rw [applyOp]
  by_cases htable : op.table ∈ names.inherited
  · rw [PlainObject.get_builtin hwhole htable rfl]
    exact ⟨_, rfl⟩
  · have hget : (PlainObject.empty : Tables).get names op.table = .absent :=
      PlainObject.get_whole hwhole htable
    have hrow : (PlainObject.empty : PlainObject Text Row).get names op.rowId = .builtin :=
      PlainObject.get_builtin PlainObject.whole_empty (h.resolve_left htable) rfl
    rw [hget]
    dsimp only
    rw [applyToRows, hrow]
    exact ⟨_, rfl⟩

theorem applyOps_delete_inherited {table rowId : Text}
    (h : table ∈ names.inherited ∨ rowId ∈ names.inherited) :
    ∃ fault, applyOps 1 none [.delete table rowId []] [] (tablesOf ∅) = .error fault := by
  have hop : (Op.delete table rowId []).table ∈ names.inherited ∨
      (Op.delete table rowId []).rowId ∈ names.inherited := h
  obtain ⟨fault, hfault⟩ := applyOp_inherited hop 1 none
  have hempty : applyOp (tablesOf ∅) (.delete table rowId []) 1 none = .error fault := hfault
  exact ⟨fault, by rw [applyOps, hempty]⟩

/-- A live row without columns. -/
def bareRow : Interocitor.Row := ⟨⟨[], [], false, none, 0, none⟩, ∅⟩

/-- The same row with one column. -/
def rowWith (c : Text) : Interocitor.Row :=
  ⟨bareRow._meta, (∅ : Record Text ColumnEntry).set c ⟨.null, []⟩⟩

theorem payloadNames_rowWith (c : Text) :
    payloadNames (some bareRow.payload) (rowWith c).payload = [c] := by
  have hkeys : (rowWith c).payload.keys = [c] := rfl
  have hnone : bareRow.payload.keys = [] := rfl
  simp [payloadNames, hkeys, hnone]

theorem effect_inherited {c : Text} (hc : c ∈ names.inherited) :
    createRowChangeEffect [] [] (some (.ofMap bareRow)) (some (.ofMap (rowWith c))) =
      if c = names.proto then .ok none else .error .dataClone := by
  have hprevious : (Row.ofMap bareRow).payload.get names c = .builtin :=
    PlainObject.get_builtin rfl hc rfl
  have hnext : (Row.ofMap (rowWith c)).payload.get names c = .value ⟨.null, []⟩ := by
    rw [PlainObject.get, show (Row.ofMap (rowWith c)).payload.own.get c = some ⟨.null, []⟩ from
      Record.get_set_self _ _ _]
  have hnames : payloadNames ((some (Row.ofMap bareRow)).map fun row => row.payload.own)
      (Row.ofMap (rowWith c)).payload.own = [c] := payloadNames_rowWith c
  rw [createRowChangeEffect, hnames, effectFields]
  simp only [elim_some, hprevious, hnext, columnEntriesEqual, cloneFound,
    Bool.false_eq_true, if_false]
  by_cases hproto : c = names.proto
  · simp only [if_pos hproto, effectFields]
    subst hproto
    have hset : ∀ effect : ColumnChangeEffect,
        ((PlainObject.empty : PlainObject Text ColumnChangeEffect).set names names.proto
          effect).own = ∅ := PlainObject.own_set_proto rfl
    simp only [Except.map, hset]
    rfl
  · simp only [if_neg hproto]
    rfl

theorem rowChangeEffectMap_rowWith (c : Text) :
    (rowChangeEffectMap [] [] (some bareRow) (some (rowWith c))).isSome = true := by
  have hprevious : bareRow.payload.get c = none := rfl
  have hnext : (rowWith c).payload.get c = some ⟨.null, []⟩ := Record.get_set_self _ _ _
  have hnames : payloadNames ((some bareRow).map fun row => row.payload) (rowWith c).payload =
      [c] := payloadNames_rowWith c
  simp only [rowChangeEffectMap, bind_some, hnames, effectFieldsMap, hprevious, hnext, sameEntry]
  rfl

theorem Behaves.delete {tableNames rowIds columns : Set Text}
    (h : Behaves tableNames rowIds columns) {t r : Text} (ht : t ∈ tableNames) (hr : r ∈ rowIds) :
    t ∉ names.inherited ∧ r ∉ names.inherited := by
  rw [← not_or]
  intro hinherited
  obtain ⟨fault, hfault⟩ := applyOps_delete_inherited hinherited
  have hok := h.applyOps 1 none [.delete t r []] ∅ fun op hop => by
    rw [mem_singleton.mp hop]
    exact ⟨ht, hr, fun c hc => absurd hc not_mem_nil⟩
  obtain ⟨out, hout⟩ : ∃ out, applyOpsLoop 1 none [.delete t r []] [] ∅ = .ok out := ⟨_, rfl⟩
  rw [hfault, hout] at hok
  exact absurd hok (by simp [Except.map, Except.mapError])

/-- **Names are plain keys exactly if they are not inherited.**  For every set of table names, of
row ids and of column names: the five operations behave as over finite maps on everything that uses
these names if and only if none of them is a name of `Object.prototype`. -/
theorem plain_keys_iff {tableNames rowIds columns : Set Text} (htables : tableNames.Nonempty)
    (hrows : rowIds.Nonempty) :
    Behaves tableNames rowIds columns ↔
      (∀ t ∈ tableNames, t ∉ names.inherited) ∧ (∀ r ∈ rowIds, r ∉ names.inherited) ∧
        ∀ c ∈ columns, c ∉ names.inherited := by
  constructor
  · intro h
    obtain ⟨t₀, ht₀⟩ := htables
    obtain ⟨r₀, hr₀⟩ := hrows
    refine ⟨fun t ht => (h.delete ht hr₀).1, fun r hr => (h.delete ht₀ hr).2, fun c hc hcin => ?_⟩
    have heffect := h.effects [] [] (some bareRow) (some (rowWith c))
      (by
        rintro row ⟨⟩ c' hc'
        exact absurd hc' not_mem_nil)
      (by
        rintro row ⟨⟩ c' hc'
        rw [mem_singleton.mp hc']
        exact hc)
    rw [map_some, map_some, effect_inherited hcin] at heffect
    obtain ⟨effect, hsome⟩ := isSome_iff_exists.mp (rowChangeEffectMap_rowWith c)
    rw [hsome] at heffect
    split_ifs at heffect
    exact absurd (Except.ok.inj heffect) (by simp)
  · rintro ⟨ht, hr, hc⟩
    have hproto : ∀ {l : List Text}, (∀ c ∈ l, c ∈ columns) → names.proto ∉ l :=
      fun h hmem => hc _ (h _ hmem) names.proto_mem
    exact
      { applyOps := fun schemaVersion schema ops tables h =>
          applyOps_eq schemaVersion schema
            (fun op hop => ⟨ht _ (h op hop).1, hr _ (h op hop).2.1, hproto (h op hop).2.2⟩) []
            tables
        putNow := fun current table rowId schemaVersion deviceId stamp columns' hcurrent hcolumns =>
          putNow_eq (fun row hrow => hproto (hcurrent row hrow))
            (fun p hp hpproto => hc _ (hcolumns p hp) (hpproto ▸ names.proto_mem)) table rowId
            schemaVersion deviceId stamp
        effects := fun table rowId before after hbefore hafter =>
          createRowChangeEffect_eq (fun row hrow c hmem => hc c (hbefore row hrow c hmem))
            (fun row hrow c hmem => hc c (hafter row hrow c hmem)) table rowId
        compact := fun rows h => by
          have hnames : ∀ row ∈ rows, row._meta.table ∉ names.inherited ∧
              row._meta.rowId ≠ names.proto := fun row hrow =>
            ⟨ht _ (h row hrow).1, PlainObject.ne_proto (hr _ (h row hrow).2)⟩
          have hkept : rows.filter inSnapshot = rows :=
            filter_eq_self.mpr fun row hrow => decide_eq_true (hnames row hrow)
          rw [Interocitor.snapshotTables, hkept]
          exact snapshotTables_eq hnames ∅
        rehydrate := restored_tablesOf }

theorem plain_keys_iff_ordinary : Behaves {[116]} {[114]} {[99]} :=
  (plain_keys_iff (Set.singleton_nonempty [116]) (Set.singleton_nonempty [114])).mpr
    ⟨fun _ h => h ▸ by decide, fun _ h => h ▸ by decide, fun _ h => h ▸ by decide⟩

/-- A table named `constructor` is not created: the constructor of objects is taken for it. -/
theorem not_plain_keys : ¬∀ tableNames rowIds columns : Set Text,
    Behaves tableNames rowIds columns := by
  intro h
  have hdelete := (h Set.univ Set.univ Set.univ).delete (r := [])
    (t := [99, 111, 110, 115, 116, 114, 117, 99, 116, 111, 114]) trivial trivial
  exact hdelete.1 (by decide)

end PlainKeys

end Interocitor
