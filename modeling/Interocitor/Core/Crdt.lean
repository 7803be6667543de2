import Interocitor.Core.Hlc
import Interocitor.Core.Types

/-!
# `crdt.ts`: merging ops into rows

The merge engine of `packages/core/src/core/crdt.ts`.  `applyOp` is the single
place where an op meets a row: a delete empties the row unless some column is
newer, an upsert to a tombstone keeps only the columns newer than the delete and
then *clears the tombstone's stamp*, and any other upsert merges column by column.

The source mutates `tables` in place and returns the affected row.  Here the new
tables are returned beside it.  A merge that throws leaves half-merged rows in the
caller's map in the source.  No caller reads the map again, but a store that hands out
the rows it holds has them too, so `reachedTables` says what is reached by then.

The section at the end says what the loop over an upsert's columns computes without
a schema: `applyColumns_eq`, column by column the entry with the later stamp.
-/

namespace Interocitor

open CodeUnits OrderedRecord HybridClock List

/-! ## Equality of column values -/

/-- `Object.keys(record).sort()`. -/
def sortedKeys (fields : List (Text × JsValue)) : List Text :=
  (fields.map Prod.fst).insertionSort (· ≤ ·)

mutual
/-- `columnValuesEqual`.  `Object.is` decides between values that are not objects;
dates compare by their times, an invalid date (`NaN`) being equal to no other. -/
def columnValuesEqual : JsValue → JsValue → Bool
  | .undefined, .undefined => true
  | .null, .null => true
  | .bool a, .bool b => decide (a = b)
  | .number a, .number b => decide (a = b)
  | .string a, .string b => decide (a = b)
  | .date (some a), .date (some b) => decide (a = b)
  | .array l, .array r => itemsEqual l r
  | .object l, .object r => decide (sortedKeys l = sortedKeys r) && fieldsEqual l r
  | _, _ => false
termination_by structural x => x

/-- Arrays of one length with equal items. -/
def itemsEqual : List JsValue → List JsValue → Bool
  | [], [] => true
  | a :: l, b :: r => columnValuesEqual a b && itemsEqual l r
  | _, _ => false
termination_by structural x => x

/-- Each property on the left equals the property of that name on the right. -/
def fieldsEqual : List (Text × JsValue) → List (Text × JsValue) → Bool
  | [], _ => true
  | p :: l, r => fieldEqual p r && fieldsEqual l r
termination_by structural x => x

@[inherit_doc fieldsEqual]
def fieldEqual : Text × JsValue → List (Text × JsValue) → Bool
  | (k, v), r =>
    match find k r with
    | some w => columnValuesEqual v w
    | none => false
termination_by structural x => x
end

theorem sortedKeys_eq_iff_perm (l r : List (Text × JsValue)) :
    sortedKeys l = sortedKeys r ↔ (l.map Prod.fst).Perm (r.map Prod.fst) := by
  rw [sortedKeys, sortedKeys]
  constructor
  · intro h
    exact (perm_insertionSort (· ≤ ·) _).symm.trans (h ▸ perm_insertionSort (· ≤ ·) _)
  · intro h
    have hperm := ((perm_insertionSort (· ≤ ·) (l.map Prod.fst)).trans h).trans
      (perm_insertionSort (· ≤ ·) (r.map Prod.fst)).symm
    exact hperm.eq_of_pairwise' (pairwise_insertionSort _ _) (pairwise_insertionSort _ _)

/-! ## Strategies and columns -/

/-- What a merge throws: `Unsupported replicated merge strategy …`, `Conflicting values share
HLC …`, or the `TypeError` of the merge function. -/
inductive MergeError where
  | unsupportedStrategy (json table field : Text)
  | conflictingValues (hlc table rowId field : Text)
  | typeError
  deriving DecidableEq

/-- `requireConvergentStrategy`. -/
def requireConvergentStrategy (table field : Text) :
    MergeStrategy → Except MergeError MergeStrategy
  | .unsupported json => .error (.unsupportedStrategy json table field)
  | .lww => .ok .lww
  | .custom merge => .ok (.custom merge)
  | .throwing => .ok .throwing

/-- `"{}"`. -/
def emptyObjectJson : Text := [123, 125]

/-- What a plain object inherits under a name, as a merge strategy.  `Object(existing, …)` is
`existing`; `toString` without an object returns a text, which has neither a value nor a stamp;
`__proto__` is no function; the others throw. -/
def inheritedStrategy (field : Text) : MergeStrategy :=
  if field = constructorName then .custom fun existing _ _ => existing
  else if field = toStringName then .custom fun _ _ _ => ⟨.undefined, []⟩
  else if field = protoName then .unsupported emptyObjectJson
  else .throwing

/-- `config.fields?.[field]`: a property, or what the object inherits under the name. -/
def fieldStrategy (fields : Option (Record Text MergeStrategy)) (field : Text) :
    Option MergeStrategy :=
  fields.bind fun fields =>
    (fields.get field).or (if field ∈ inheritedNames then some (inheritedStrategy field) else none)

/-- `resolveStrategy`: field level, table level, database level, then `"lww"`.  An inherited name of
a table leads to a function without a `merge`, and so to the database level. -/
def resolveStrategy (schema : Option DatabaseSchemaDefinition) (table field : Text) :
    Except MergeError MergeStrategy :=
  let require := requireConvergentStrategy table field
  let databaseLevel := ((schema.bind fun s => s.mergeStrategy).map require).getD (.ok .lww)
  match schema.bind fun s => (s.tables.get table).join with
  | some (.strategy s) => require s
  | some (.config c) =>
    match fieldStrategy c.fields field with
    | some s => require s
    | none => (c.strategy.map require).getD databaseLevel
  | none => databaseLevel

/-- The table is configured with a `fields` object. -/
def HasFields (schema : Option DatabaseSchemaDefinition) (table : Text) : Prop :=
  ∃ c, (schema.bind fun s => (s.tables.get table).join) = some (.config c) ∧ c.fields.isSome = true

/-- `mergeColumn`: the entry to store, or `none` to keep the existing one. -/
def mergeColumn (existing : Option ColumnEntry) (incoming : ColumnEntry)
    (strategy : MergeStrategy) (table rowId field : Text) :
    Except MergeError (Option ColumnEntry) :=
  match existing with
  | none => .ok (some incoming)
  | some old =>
    if old.hlc = [] then .ok (some incoming)
    else
      match strategy with
      | .custom merge =>
        let result := merge old incoming ⟨table, rowId, field⟩
        if result.hlc ≠ old.hlc ∨ columnValuesEqual result.value old.value = false then
          .ok (some result)
        else .ok none
      | .throwing => .error .typeError
      | _ =>
        let comparison := hlcCompareStr incoming.hlc old.hlc
        if isPos comparison then .ok (some incoming)
        else if isNeg comparison then .ok none
        else if columnValuesEqual old.value incoming.value then .ok none
        else .error (.conflictingValues incoming.hlc table rowId field)

/-- The loop of `applyOp` over the columns to apply: the payload, and whether it changed. -/
def applyColumns (schema : Option DatabaseSchemaDefinition) (table rowId : Text) :
    List (Text × ColumnEntry) → Record Text ColumnEntry → Bool →
      Except MergeError (Record Text ColumnEntry × Bool)
  | [], payload, changed => .ok (payload, changed)
  | (col, entry) :: rest, payload, changed =>
    match resolveStrategy schema table col with
    | .error e => .error e
    | .ok strategy =>
      match mergeColumn (payload.get col) entry strategy table rowId col with
      | .error e => .error e
      | .ok none => applyColumns schema table rowId rest payload changed
      | .ok (some winner) => applyColumns schema table rowId rest (payload.set col winner) true

/-! ## Ops -/

/-- `blankRow`. -/
def blankRow (table rowId : Text) (schemaVersion : ℕ) (deleted : Bool)
    (deletedHlc : Option Text) : Row :=
  ⟨⟨table, rowId, deleted, deletedHlc, schemaVersion, none⟩, ∅⟩

/-- The delete branch of `applyOp`: the row to store, or `none` for no change. -/
def applyDelete (existing : Option Row) (table rowId hlc : Text) (schemaVersion : ℕ) : Option Row :=
  match existing with
  | some row =>
    -- a delete not newer than the tombstone, then one older than some column
    if (truthy row._meta.deletedHlc).any fun d => isNonPos (hlcCompareStr hlc d) then none
    else if row.payload.values.any fun e =>
        decide (e.hlc ≠ []) && isPos (hlcCompareStr e.hlc hlc) then none
    else some ⟨{ row._meta with deleted := true, deletedHlc := some hlc }, ∅⟩
  | none => some (blankRow table rowId schemaVersion true (some hlc))

/-- The upsert branch of `applyOp`. -/
def applyUpsert (existing : Option Row) (table rowId : Text) (columns : Record Text ColumnEntry)
    (schemaVersion : ℕ) (schema : Option DatabaseSchemaDefinition) :
    Except MergeError (Option Row) :=
  let row := existing.getD (blankRow table rowId schemaVersion false none)
  match if row._meta.deleted then truthy row._meta.deletedHlc else none with
  | some deletedHlc =>
    let columnsToApply :=
      columns.entries.filter fun p => isPos (hlcCompareStr p.2.hlc deletedHlc)
    if columnsToApply.isEmpty then .ok none
    else
      match applyColumns schema table rowId columnsToApply ∅ true with
      | .error e => .error e
      | .ok (payload, _) =>
        .ok (some ⟨{ row._meta with deleted := false, deletedHlc := none }, payload⟩)
  | none =>
    match applyColumns schema table rowId columns.entries row.payload existing.isNone with
    | .error e => .error e
    | .ok (payload, changed) => .ok (if changed then some ⟨row._meta, payload⟩ else none)

/-- An op against the row it addresses. -/
def applyToRow (existing : Option Row) (op : Op) (schemaVersion : ℕ)
    (schema : Option DatabaseSchemaDefinition) : Except MergeError (Option Row) :=
  match op with
  | .delete table rowId hlc => .ok (applyDelete existing table rowId hlc schemaVersion)
  | .upsert table rowId columns => applyUpsert existing table rowId columns schemaVersion schema

/-- `applyOp`: the affected row, if any, and the new tables. -/
def applyOp (tables : Tables) (op : Op) (schemaVersion : ℕ)
    (schema : Option DatabaseSchemaDefinition) : Except MergeError (Option Row × Tables) :=
  let rows := (tables.get op.table).getD ∅
  match applyToRow (rows.get op.rowId) op schemaVersion schema with
  | .error e => .error e
  | .ok none => .ok (none, tables.set op.table rows)
  | .ok (some row) => .ok (some row, tables.set op.table (rows.set op.rowId row))

/-- The loop of `applyChangeEntry` over the ops. -/
def applyOpsLoop (schemaVersion : ℕ) (schema : Option DatabaseSchemaDefinition) :
    List Op → List Row → Tables → Except MergeError (List Row × Tables)
  | [], affected, tables => .ok (affected, tables)
  | op :: ops, affected, tables =>
    match applyOp tables op schemaVersion schema with
    | .error e => .error e
    | .ok (row, tables) => applyOpsLoop schemaVersion schema ops (affected ++ row.toList) tables

/-- `applyChangeEntry`: the affected rows, in order, and the new tables. -/
def applyChangeEntry (tables : Tables) (entry : ChangeEntry) (schemaVersion : ℕ)
    (schema : Option DatabaseSchemaDefinition) : Except MergeError (List Row × Tables) :=
  applyOpsLoop schemaVersion schema entry.ops [] tables

/-! ## Where a merge throws -/

/-- The payload when the loop of `applyOp` over the columns ends, by a throw or not. -/
def reachedPayload (schema : Option DatabaseSchemaDefinition) (table rowId : Text) :
    List (Text × ColumnEntry) → Record Text ColumnEntry → Record Text ColumnEntry
  | [], payload => payload
  | (col, entry) :: rest, payload =>
    match resolveStrategy schema table col with
    | .error _ => payload
    | .ok strategy =>
      match mergeColumn (payload.get col) entry strategy table rowId col with
      | .error _ => payload
      | .ok none => reachedPayload schema table rowId rest payload
      | .ok (some winner) => reachedPayload schema table rowId rest (payload.set col winner)

/-- The row when an upsert ends, by a throw or not. -/
def reachedRow (existing : Option Row) (table rowId : Text) (columns : Record Text ColumnEntry)
    (schemaVersion : ℕ) (schema : Option DatabaseSchemaDefinition) : Row :=
  let row := existing.getD (blankRow table rowId schemaVersion false none)
  match if row._meta.deleted then truthy row._meta.deletedHlc else none with
  | some deletedHlc =>
    let columnsToApply :=
      columns.entries.filter fun p => isPos (hlcCompareStr p.2.hlc deletedHlc)
    if columnsToApply.isEmpty then row
    else
      ⟨{ row._meta with deleted := false, deletedHlc := none },
        reachedPayload schema table rowId columnsToApply ∅⟩
  | none => ⟨row._meta, reachedPayload schema table rowId columns.entries row.payload⟩

/-- The tables when `applyChangeEntry` ends, by a throw or not.  Deletes do not throw. -/
def reachedTables (schemaVersion : ℕ) (schema : Option DatabaseSchemaDefinition) :
    List Op → Tables → Tables
  | [], tables => tables
  | op :: ops, tables =>
    match applyOp tables op schemaVersion schema with
    | .ok (_, tables) => reachedTables schemaVersion schema ops tables
    | .error _ =>
      match op with
      | .delete _ _ _ => tables
      | .upsert table rowId columns =>
        let rows := (tables.get table).getD ∅
        tables.set table
          (rows.set rowId (reachedRow (rows.get rowId) table rowId columns schemaVersion schema))

variable {schema : Option DatabaseSchemaDefinition} {cols : List (Text × ColumnEntry)}

theorem reachedPayload_of_ok {table rowId : Text} {payload payload' : Record Text ColumnEntry}
    {changed changed' : Bool}
    (h : applyColumns schema table rowId cols payload changed = .ok (payload', changed')) :
    reachedPayload schema table rowId cols payload = payload' := by
  induction cols generalizing payload changed with
  | nil => exact (Prod.mk.inj (Except.ok.inj h)).1
  | cons p cols ih =>
    rw [applyColumns] at h
    rw [reachedPayload]
    split at h
    · exact absurd h (by simp)
    · split at h
      · exact absurd h (by simp)
      · exact ih h
      · exact ih h

variable {tables tables' : Tables} {v : ℕ}

theorem reachedTables_of_ok {ops : List Op} {affected affected' : List Row}
    (h : applyOpsLoop v schema ops affected tables = .ok (affected', tables')) :
    reachedTables v schema ops tables = tables' := by
  induction ops generalizing affected tables with
  | nil => exact (Prod.mk.inj (Except.ok.inj h)).2
  | cons op ops ih =>
    rw [applyOpsLoop] at h
    cases hop : applyOp tables op v schema with
    | error e =>
      rw [hop] at h
      exact absurd h (by simp)
    | ok result =>
      rw [hop] at h
      simp only [reachedTables, hop]
      exact ih h

/-! ## One op changes one row -/

theorem rowAt_of_tables_get (tables : Tables) (table rowId : Text) :
    ((tables.get table).getD ∅).get rowId = rowAt tables table rowId := by
  rw [rowAt]
  cases tables.get table with
  | none => rfl
  | some rows => rfl

theorem rowAt_set_self (tables : Tables) (table rowId : Text) (rows : Record Text Row) :
    rowAt (tables.set table rows) table rowId = rows.get rowId := by
  rw [rowAt, Record.get_set_self]
  rfl

theorem rowAt_set_ne (tables : Tables) {table table' : Text} (rowId : Text)
    (rows : Record Text Row) (h : table ≠ table') :
    rowAt (tables.set table rows) table' rowId = rowAt tables table' rowId := by
  rw [rowAt, Record.get_set_ne _ _ h, rowAt]

/-- **What `applyOp` does to the rows:** the addressed row becomes what `applyToRow`
returns, or stays; every other row stays. -/
theorem rowAt_applyOp {op : Op} {res : Option Row}
    (h : applyOp tables op v schema = .ok (res, tables')) (table rowId : Text) :
    applyToRow (rowAt tables op.table op.rowId) op v schema = .ok res ∧
      rowAt tables' table rowId =
        if op.table = table ∧ op.rowId = rowId then res.or (rowAt tables table rowId)
        else rowAt tables table rowId := by
  simp only [applyOp, rowAt_of_tables_get] at h
  cases hrow : applyToRow (rowAt tables op.table op.rowId) op v schema with
  | error e => simp [hrow] at h
  | ok out =>
    have hother : ∀ rows : Record Text Row, op.table ≠ table →
        rowAt (tables.set op.table rows) table rowId = rowAt tables table rowId :=
      fun rows hne => rowAt_set_ne tables rowId rows hne
    rw [hrow] at h
    cases out with
    | none =>
      simp only [Except.ok.injEq, Prod.mk.injEq] at h
      obtain ⟨rfl, rfl⟩ := h
      refine ⟨rfl, ?_⟩
      by_cases ht : op.table = table
      · subst ht
        rw [rowAt_set_self, rowAt_of_tables_get, Option.none_or, ite_self]
      · rw [hother _ ht, if_neg fun hc => ht hc.1]
    | some row =>
      simp only [Except.ok.injEq, Prod.mk.injEq] at h
      obtain ⟨rfl, rfl⟩ := h
      refine ⟨rfl, ?_⟩
      by_cases ht : op.table = table
      · subst ht
        rw [rowAt_set_self, Record.get_set]
        by_cases hr : op.rowId = rowId
        · rw [if_pos hr, if_pos ⟨rfl, hr⟩, Option.some_or]
        · rw [if_neg hr, if_neg fun hc => hr hc.2, rowAt_of_tables_get]
      · rw [hother _ ht, if_neg fun hc => ht hc.1]

theorem applyColumns_true {table rowId : Text} {payload payload' : Record Text ColumnEntry}
    {changed : Bool}
    (h : applyColumns schema table rowId cols payload true = .ok (payload', changed)) :
    changed = true := by
  induction cols generalizing payload with
  | nil =>
    rw [applyColumns, Except.ok.injEq, Prod.mk.injEq] at h
    exact h.2.symm
  | cons p cols ih =>
    obtain ⟨col, entry⟩ := p
    rw [applyColumns] at h
    cases hstrategy : resolveStrategy schema table col with
    | error e => simp [hstrategy] at h
    | ok strategy =>
      rw [hstrategy] at h
      dsimp only at h
      cases hmerge : mergeColumn (payload.get col) entry strategy table rowId col with
      | error e => simp [hmerge] at h
      | ok winner =>
        rw [hmerge] at h
        cases winner with
        | none => exact ih h
        | some winner => exact ih h

theorem applyToRow_none {op : Op} {res : Option Row} (h : applyToRow none op v schema = .ok res) :
    res.isSome = true := by
  cases op with
  | delete table rowId hlc =>
    rw [applyToRow, Except.ok.injEq] at h
    rw [← h]
    rfl
  | upsert table rowId columns =>
    have hcolumns : applyUpsert none table rowId columns v schema =
        (applyColumns schema table rowId columns.entries ∅ true).map fun out =>
          if out.2 then some ⟨(blankRow table rowId v false none)._meta, out.1⟩ else none := by
      unfold applyUpsert
      simp only [Option.getD_none, Option.isNone_none, blankRow, Bool.false_eq_true, if_false]
      cases applyColumns schema table rowId columns.entries ∅ true <;> rfl
    rw [applyToRow, hcolumns] at h
    cases hout : applyColumns schema table rowId columns.entries ∅ true with
    | error e => simp [hout, Except.map] at h
    | ok out =>
      obtain ⟨payload, changed⟩ := out
      rw [hout, Except.map, Except.ok.injEq, applyColumns_true hout, if_pos rfl] at h
      rw [← h]
      rfl

theorem prefix_applyOpsLoop {ops : List Op} {affected affected' : List Row}
    (h : applyOpsLoop v schema ops affected tables = .ok (affected', tables')) :
    affected <+: affected' := by
  induction ops generalizing affected tables with
  | nil => exact (Prod.mk.inj (Except.ok.inj h)).1 ▸ prefix_rfl
  | cons op ops ih =>
    rw [applyOpsLoop] at h
    split at h
    · exact absurd h (by simp)
    · exact (prefix_append _ _).trans (ih h)

/-! ## The columns of an upsert, without a schema -/

/-- A text that `hlcSerialize` produces from a clock of numbers. -/
def Serialized (s : Text) : Prop := ∃ st : Stamp Text, stampText st = s

/-- The stamp a text was serialized from. -/
def stampOf (s : Text) : Stamp Text :=
  ⟨(hlcParse s).ts.getD 0, (hlcParse s).counter.getD 0, (hlcParse s).nodeId⟩

@[simp] theorem stampOf_stampText (st : Stamp Text) : stampOf (stampText st) = st := by
  rw [stampOf, hlcParse_stampText]
  rfl

theorem Serialized.stampText_stampOf {s : Text} (h : Serialized s) : stampText (stampOf s) = s := by
  obtain ⟨st, rfl⟩ := h
  rw [stampOf_stampText]

theorem Serialized.hlcParse_eq {s : Text} (h : Serialized s) : hlcParse s = .ofStamp
    (stampOf s) := by
  obtain ⟨st, rfl⟩ := h
  rw [stampOf_stampText, hlcParse_stampText]

theorem stampText_ne_nil (st : Stamp Text) : stampText st ≠ [] := by
  rw [stampText_eq]
  simp

theorem Serialized.ne_nil {s : Text} (h : Serialized s) : s ≠ [] := by
  obtain ⟨st, rfl⟩ := h
  exact stampText_ne_nil st

variable {a b : Text}

theorem Serialized.stampOf_inj (ha : Serialized a) (hb : Serialized b) :
    stampOf a = stampOf b ↔ a = b := by
  refine ⟨fun h => ?_, fun h => by rw [h]⟩
  rw [← ha.stampText_stampOf, ← hb.stampText_stampOf, h]

theorem Serialized.isPos_compare (ha : Serialized a) (hb : Serialized b) :
    isPos (hlcCompareStr a b) = true ↔ stampOf b < stampOf a := by
  obtain ⟨s, rfl⟩ := ha
  obtain ⟨t, rfl⟩ := hb
  rw [stampOf_stampText, stampOf_stampText, isPos_hlcCompareStr]

theorem Serialized.isNeg_compare (ha : Serialized a) (hb : Serialized b) :
    isNeg (hlcCompareStr a b) = true ↔ stampOf a < stampOf b := by
  obtain ⟨s, rfl⟩ := ha
  obtain ⟨t, rfl⟩ := hb
  rw [stampOf_stampText, stampOf_stampText, isNeg_hlcCompareStr]

theorem isNonPos_compare (ha : Serialized a) (hb : Serialized b) :
    isNonPos (hlcCompareStr a b) = true ↔ stampOf a ≤ stampOf b := by
  rw [← not_lt, ← ha.isPos_compare hb]
  obtain ⟨s, rfl⟩ := ha
  obtain ⟨t, rfl⟩ := hb
  cases h : hlcCompareStr (stampText s) (stampText t) with
  | none =>
    -- a comparison of serialized stamps is never `NaN`
    rw [hlcCompareStr] at h
    split_ifs at h
    rw [hlcParse_stampText, hlcParse_stampText, hlcCompare_ofStamp] at h
    split_ifs at h
  | some z => simp [isNonPos, isPos]

/-- The entry with the later stamp. -/
def laterEntry : Option ColumnEntry → Option ColumnEntry → Option ColumnEntry
  | none, incoming => incoming
  | existing, none => existing
  | some old, some incoming =>
    if stampOf old.hlc < stampOf incoming.hlc then some incoming else some old

theorem mergeColumn_lww {old incoming : ColumnEntry} (table rowId field : Text)
    (ho : Serialized old.hlc) (hi : Serialized incoming.hlc)
    (hagree : old.hlc = incoming.hlc → columnValuesEqual old.value incoming.value = true) :
    mergeColumn (some old) incoming .lww table rowId field =
      .ok (if stampOf old.hlc < stampOf incoming.hlc then some incoming else none) := by
  simp only [mergeColumn, if_neg ho.ne_nil]
  by_cases hlt : stampOf old.hlc < stampOf incoming.hlc
  · rw [if_pos ((hi.isPos_compare ho).mpr hlt), if_pos hlt]
  · rw [if_neg (fun hp => hlt ((hi.isPos_compare ho).mp hp)), if_neg hlt]
    by_cases hgt : stampOf incoming.hlc < stampOf old.hlc
    · rw [if_pos ((hi.isNeg_compare ho).mpr hgt)]
    · have heq : old.hlc = incoming.hlc :=
        (ho.stampOf_inj hi).mp (le_antisymm (not_lt.mp hgt) (not_lt.mp hlt))
      rw [if_neg (fun hn => hgt ((hi.isNeg_compare ho).mp hn)), if_pos (hagree heq)]

/-- **The column loop keeps the later entry of each column**, and reports no change
only when the payload is as it was. -/
theorem applyColumns_eq (table rowId : Text) (hnodup : (cols.map Prod.fst).Nodup)
    (payload : Record Text ColumnEntry) (changed : Bool)
    (hp : ∀ col e, payload.get col = some e → Serialized e.hlc)
    (hc : ∀ p ∈ cols, Serialized p.2.hlc)
    (hagree : ∀ p ∈ cols, ∀ old, payload.get p.1 = some old → old.hlc = p.2.hlc →
      columnValuesEqual old.value p.2.value = true) :
    ∃ payload' changed', applyColumns none table rowId cols payload changed =
        .ok (payload', changed') ∧
      (∀ col, payload'.get col = laterEntry (payload.get col) (find col cols)) ∧
      (changed' = false → payload' = payload ∧ changed = false) := by
  induction cols generalizing payload changed with
  | nil =>
    refine ⟨payload, changed, rfl, fun col => ?_, fun h => ⟨rfl, h⟩⟩
    rw [find]
    cases payload.get col <;> rfl
  | cons p cols ih =>
    obtain ⟨col, entry⟩ := p
    rw [map_cons, nodup_cons] at hnodup
    have hentry : Serialized entry.hlc := hc _ mem_cons_self
    have hnotin : ∀ q ∈ cols, q.1 ≠ col := fun q hq he =>
      hnodup.1 (mem_map.mpr ⟨q, hq, he⟩)
    -- what the lookup of another column finds does not see this one
    have hfind : find col cols = none := find_eq_none_iff.mpr hnodup.1
    have hstrategy : resolveStrategy none table col = .ok .lww := rfl
    have hgoal : ∀ payload₁ : Record Text ColumnEntry,
        payload₁.get col = laterEntry (payload.get col) (some entry) →
        (∀ c, c ≠ col → payload₁.get c = payload.get c) →
        ∀ c, laterEntry (payload₁.get c) (find c cols) =
          laterEntry (payload.get c) (find c ((col, entry) :: cols)) := by
      intro payload₁ hself hne c
      by_cases hcc : col = c
      · subst hcc
        rw [find, if_pos rfl, hfind, hself]
        cases laterEntry (payload.get col) (some entry) <;> rfl
      · rw [find, if_neg hcc, hne c fun h => hcc h.symm]
    have hset : ∀ c, c ≠ col → (payload.set col entry).get c = payload.get c := fun c hcc =>
      Record.get_set_ne _ _ fun h => hcc h.symm
    have hset' : ∀ c e, (payload.set col entry).get c = some e → Serialized e.hlc := by
      intro c e he
      by_cases hcc : c = col
      · subst hcc
        rw [Record.get_set_self, Option.some.injEq] at he
        exact he ▸ hentry
      · rw [hset c hcc] at he
        exact hp c e he
    have htake : ∃ payload' changed',
        applyColumns none table rowId cols (payload.set col entry) true = .ok (payload', changed') ∧
        (∀ c, payload'.get c = laterEntry ((payload.set col entry).get c) (find c cols)) ∧
        (changed' = false → payload' = payload.set col entry ∧ true = false) := by
      refine ih hnodup.2 _ _ hset' (fun q hq => hc q (mem_cons_of_mem _ hq)) ?_
      intro q hq old hold
      rw [hset _ (hnotin q hq)] at hold
      exact hagree q (mem_cons_of_mem _ hq) old hold
    cases hget : payload.get col with
    | none =>
      obtain ⟨payload', changed', heq, hpay, hch⟩ := htake
      refine ⟨payload', changed', ?_, ?_, fun h => absurd (hch h).2 (by simp)⟩
      · simp only [applyColumns, hstrategy, hget, mergeColumn, heq]
      · intro c
        rw [hpay c]
        refine hgoal _ ?_ hset c
        rw [Record.get_set_self, hget]
        rfl
    | some old =>
      have hmerge := mergeColumn_lww table rowId col (hp col old hget) hentry
        (hagree _ mem_cons_self old hget)
      by_cases hlt : stampOf old.hlc < stampOf entry.hlc
      · rw [if_pos hlt] at hmerge
        obtain ⟨payload', changed', heq, hpay, hch⟩ := htake
        refine ⟨payload', changed', ?_, ?_, fun h => absurd (hch h).2 (by simp)⟩
        · simp only [applyColumns, hstrategy, hget, hmerge, heq]
        · intro c
          rw [hpay c]
          refine hgoal _ ?_ hset c
          rw [Record.get_set_self, hget, laterEntry, if_pos hlt]
      · rw [if_neg hlt] at hmerge
        obtain ⟨payload', changed', heq, hpay, hch⟩ :=
          ih hnodup.2 payload changed hp (fun q hq => hc q (mem_cons_of_mem _ hq))
            fun q hq => hagree q (mem_cons_of_mem _ hq)
        refine ⟨payload', changed', ?_, ?_, hch⟩
        · simp only [applyColumns, hstrategy, hget, hmerge, heq]
        · intro c
          rw [hpay c]
          refine hgoal _ ?_ (fun c _ => rfl) c
          rw [hget, laterEntry, if_neg hlt]

end Interocitor
