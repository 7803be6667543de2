import Interocitor.Foundation.CodeUnits
import Interocitor.Foundation.Record

/-!
# `types.ts`: values, rows, ops and merge strategies

The data that the merge engine works on.  Identifiers, table names, column names
and serialized stamps are JavaScript strings, `CodeUnits.Text`; objects used as
maps are `OrderedRecord.Record`, which remember insertion order.

Column values are arbitrary JavaScript values that survive storage.  Two of their
features matter to the merge engine and are kept: numbers include `NaN`, the
infinities and negative zero, because `Object.is` tells them apart differently
from `===`; and a `Date` can be invalid, in which case its time is `NaN` and it is
not even equal to another invalid date.
-/

namespace Interocitor

open CodeUnits OrderedRecord

/-! ## Column values -/

/-- A JavaScript number; the finite ones are rational. -/
inductive JsNumber where
  | nan
  | posInf
  | negInf
  | negZero
  | finite (q : ℚ)
  deriving DecidableEq

/-- A value stored in a column.  An object is the list of its own enumerable
properties. -/
inductive JsValue where
  | undefined
  | null
  | bool (b : Bool)
  | number (n : JsNumber)
  | string (s : Text)
  | date (time : Option ℤ)
  | array (items : List JsValue)
  | object (fields : List (Text × JsValue))

instance : Inhabited JsValue := ⟨.null⟩

/-! ## The change log -/

/-- `ColumnEntry`: a value and the stamp of the write that set it. -/
structure ColumnEntry where
  value : JsValue
  hlc : Text

/-- `Op`. -/
inductive Op where
  | upsert (table rowId : Text) (columns : Record Text ColumnEntry)
  | delete (table rowId hlc : Text)

namespace Op

/-- `op.table`. -/
def table : Op → Text
  | upsert t _ _ => t
  | delete t _ _ => t

/-- `op.rowId`. -/
def rowId : Op → Text
  | upsert _ r _ => r
  | delete _ r _ => r

/-- The entry an op writes to a column. -/
def entryAt : Op → Text → Option ColumnEntry
  | upsert _ _ columns, col => columns.get col
  | delete _ _ _, _ => none

/-- The stamps an op carries. -/
def stamps : Op → List Text
  | upsert _ _ columns => columns.values.map ColumnEntry.hlc
  | delete _ _ hlc => [hlc]

end Op

/-- `ChangeEntry`, without the optional `user`, which nothing reads. -/
structure ChangeEntry where
  id : Text
  ts : ℕ
  device : Text
  hlc : Text
  ops : List Op

/-! ## Rows -/

/-- `RowMeta`, without `key`, which local stores compute for themselves. -/
structure RowMeta where
  table : Text
  rowId : Text
  deleted : Bool
  deletedHlc : Option Text
  schemaVersion : ℕ
  owner : Option Text
  deriving DecidableEq

/-- `Row`. -/
structure Row where
  _meta : RowMeta
  payload : Record Text ColumnEntry

/-- `Record<string, Record<string, Row>>`. -/
abbrev Tables := Record Text (Record Text Row)

/-- The row at a table and a row id. -/
def rowAt (tables : Tables) (table rowId : Text) : Option Row :=
  (tables.get table).bind fun rows => rows.get rowId

/-! ## Names that plain objects inherit -/

/-- `"__proto__"`. -/
def protoName : Text := [95, 95, 112, 114, 111, 116, 111, 95, 95]

/-- `"constructor"`. -/
def constructorName : Text := [99, 111, 110, 115, 116, 114, 117, 99, 116, 111, 114]

/-- `"toString"`. -/
def toStringName : Text := [116, 111, 83, 116, 114, 105, 110, 103]

/-- What a plain object of JavaScript inherits: `constructor`, `hasOwnProperty`, `isPrototypeOf`,
`propertyIsEnumerable`, `toLocaleString`, `toString`, `valueOf`, the four `__defineGetter__`,
`__defineSetter__`, `__lookupGetter__`, `__lookupSetter__`, and `__proto__`. -/
def inheritedNames : List Text :=
  [constructorName,
    [104, 97, 115, 79, 119, 110, 80, 114, 111, 112, 101, 114, 116, 121],
    [105, 115, 80, 114, 111, 116, 111, 116, 121, 112, 101, 79, 102],
    [112, 114, 111, 112, 101, 114, 116, 121, 73, 115, 69, 110, 117, 109, 101, 114, 97, 98, 108,
      101],
    [116, 111, 76, 111, 99, 97, 108, 101, 83, 116, 114, 105, 110, 103],
    toStringName,
    [118, 97, 108, 117, 101, 79, 102],
    [95, 95, 100, 101, 102, 105, 110, 101, 71, 101, 116, 116, 101, 114, 95, 95],
    [95, 95, 100, 101, 102, 105, 110, 101, 83, 101, 116, 116, 101, 114, 95, 95],
    [95, 95, 108, 111, 111, 107, 117, 112, 71, 101, 116, 116, 101, 114, 95, 95],
    [95, 95, 108, 111, 111, 107, 117, 112, 83, 101, 116, 116, 101, 114, 95, 95],
    protoName]

/-- The names of an op's columns. -/
def Op.columnNames : Op → List Text
  | .upsert _ _ columns => columns.keys
  | .delete _ _ _ => []

/-- An op whose names are those for which plain objects are maps: tables and rows are looked up by
name before they are stored, so no inherited name may be among them; a column is recognised by its
stamp, and only `__proto__` is in the way. -/
structure Op.Ordinary (op : Op) : Prop where
  table : op.table ∉ inheritedNames
  rowId : op.rowId ∉ inheritedNames
  columns : protoName ∉ op.columnNames

/-! ## Merge strategies -/

/-- `MergeContext`. -/
structure MergeContext where
  table : Text
  rowId : Text
  field : Text

/-- A merge strategy as configuration supplies it: `"lww"`, a function, a function that
throws a `TypeError`, or something else, of which the error message shows the JSON text. -/
inductive MergeStrategy where
  | lww
  | custom (merge : ColumnEntry → ColumnEntry → MergeContext → ColumnEntry)
  | throwing
  | unsupported (json : Text)

/-- `TableMergeConfig`. -/
structure TableMergeConfig where
  strategy : Option MergeStrategy
  fields : Option (Record Text MergeStrategy)

/-- The `merge` of a table: one strategy, or a configuration object. -/
inductive TableMerge where
  | strategy (s : MergeStrategy)
  | config (c : TableMergeConfig)

/-- `DatabaseSchemaDefinition`, as far as merging and compatibility checks read it:
the declared version, the `merge` of each table and the default strategy. -/
structure DatabaseSchemaDefinition where
  version : Option ℕ
  tables : Record Text (Option TableMerge)
  mergeStrategy : Option MergeStrategy

/-- A string in a condition: the empty string counts as absent. -/
def truthy (s : Option Text) : Option Text := s.filter fun t => decide (t ≠ [])

@[simp] theorem truthy_none : truthy none = none := rfl

theorem truthy_of_ne_nil {t : Text} (h : t ≠ []) : truthy (some t) = some t := by
  rw [truthy, Option.filter_some, if_pos (decide_eq_true h)]

theorem truthy_eq_some {t : Option Text} {e : Text} (h : truthy t = some e) :
    t = some e ∧ e ≠ [] := by
  rw [truthy, Option.filter_eq_some_iff] at h
  exact ⟨h.1, of_decide_eq_true h.2⟩

end Interocitor
