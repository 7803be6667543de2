import Interocitor.Core.LocalStore
import Interocitor.Queries.Relational

/-!
# `memory-store.ts`, `indexed-db-local-store.ts`: reading rows

A query is a table and perhaps a clause about one field.  Both stores can answer it by going over
the rows of the table; the IndexedDB store also has indexes, which it declares from the schema, and
asks the index of the field if there is one.

An index holds the rows whose table and field are valid keys, under both of them, in the order of
keys: numbers before dates before texts before arrays.  A clause is turned into a range of keys,
and a value that is no key makes that fail.

* `WhereClause`, `matchesClause`: a clause, and the rows that pass it.
* `getTable`, `queryWhere`: going over the rows.
* `Key`, `compareKeys`, `KeyRange`: keys as IndexedDB knows them.
* `IndexedDbStore`: the rows and the indexes; `hasSchemaIndex`, `rangeForClause`, and its
  `queryWhere`.
-/

namespace Interocitor.Queries

open CodeUnits OrderedRecord

/-! ## Clauses -/

/-- `WherePrimitive`. -/
inductive WherePrimitive where
  | string (s : Text)
  | number (n : JsNumber)
  | bool (b : Bool)
  | date (time : Option ℤ)
  deriving DecidableEq

/-- As a value. -/
def WherePrimitive.toJs : WherePrimitive → JsValue
  | string s => .string s
  | number n => .number n
  | bool b => .bool b
  | date time => .date time

/-- A value that need not be given. -/
def givenValue (w : Option WherePrimitive) : JsValue := (w.map WherePrimitive.toJs).getD .undefined

/-- `WhereOperator`. -/
inductive WhereOperator where
  | equals
  | above
  | aboveOrEqual
  | below
  | belowOrEqual
  | between
  | startsWith
  | anyOf
  deriving DecidableEq

/-- `WhereClause`. -/
structure WhereClause where
  field : Text
  op : WhereOperator
  value : Option WherePrimitive
  values : Option (List WherePrimitive)
  lower : Option WherePrimitive
  upper : Option WherePrimitive
  lowerOpen : Bool
  upperOpen : Bool
  deriving DecidableEq

/-- `"undefined"`. -/
def undefinedText : Text := [117, 110, 100, 101, 102, 105, 110, 101, 100]

section Clauses

variable (P : Platform)

/-- `String(v)`. -/
def stringOf : Option WherePrimitive → Text
  | none => undefinedText
  | some (.string s) => s
  | some (.number n) => P.numberText n
  | some (.bool b) => boolText b
  | some (.date time) => P.dateText time

/-- `values.some((v) => compare(value, v) === 0)`. -/
def tiedWithAny (value : JsValue) : List WherePrimitive → Option Bool
  | [] => some false
  | w :: ws =>
    (compare P value w.toJs).bind fun c => if c = 0 then some true else tiedWithAny value ws

/-- `value.startsWith(t)`, of a text. -/
def startsWith (value : JsValue) (t : Text) : Bool :=
  match value with
  | .string s => t.isPrefixOf s
  | _ => false

/-- `matchesClause`; `none` is a `TypeError`. -/
def matchesClause (value : JsValue) (clause : WhereClause) : Option Bool :=
  match value with
  | .undefined => some false
  | .null => some false
  | value =>
    match clause.op with
    | .equals => (compare P value (givenValue clause.value)).map fun c => decide (c = 0)
    | .above => (compare P value (givenValue clause.value)).map fun c => decide (0 < c)
    | .aboveOrEqual => (compare P value (givenValue clause.value)).map fun c => decide (0 ≤ c)
    | .below => (compare P value (givenValue clause.value)).map fun c => decide (c < 0)
    | .belowOrEqual => (compare P value (givenValue clause.value)).map fun c => decide (c ≤ 0)
    | .between =>
      (compare P value (givenValue clause.lower)).bind fun lowerCmp =>
        (compare P value (givenValue clause.upper)).map fun upperCmp =>
          (if clause.lowerOpen then decide (0 < lowerCmp) else decide (0 ≤ lowerCmp)) &&
            (if clause.upperOpen then decide (upperCmp < 0) else decide (upperCmp ≤ 0))
    | .startsWith => some (startsWith value (stringOf P clause.value))
    | .anyOf => tiedWithAny P value (clause.values.getD [])

end Clauses

/-! ## Going over the rows -/

/-- `readColumnValue`. -/
def readColumnValue (row : Row) (field : Text) : JsValue :=
  ((row.payload.get field).map ColumnEntry.value).getD .undefined

/-- `filter`, with a test that may throw. -/
def filterRows (p : Row → Option Bool) : List Row → Option (List Row)
  | [] => some []
  | row :: rows =>
    (p row).bind fun keep =>
      (filterRows p rows).map fun rest => if keep then row :: rest else rest

/-- A row of a table that is not deleted. -/
def inTable (table : Text) (row : Row) : Bool :=
  decide (row._meta.table = table ∧ row._meta.deleted = false)

/-- The rows that pass a clause. -/
def scan (P : Platform) (rows : List Row) (clause : WhereClause) : Option (List Row) :=
  filterRows (fun row => matchesClause P (readColumnValue row clause.field) clause) rows

end Interocitor.Queries

namespace Interocitor.LocalStore

open CodeUnits OrderedRecord Queries

/-- `getRows`. -/
def getRows (store : LocalStore) (refs : List (Text × Text)) : List (Option Row) :=
  refs.map fun ref => store.getRow ref.1 ref.2

/-- `getTable`. -/
def getTable (store : LocalStore) (table : Text) : List Row :=
  store.rows.values.filter (inTable table)

/-- `queryWhere`. -/
def queryWhere (P : Platform) (store : LocalStore) (table : Text) (clause : WhereClause) :
    Option (List Row) :=
  scan P (store.getTable table) clause

end Interocitor.LocalStore

namespace Interocitor.Queries

open CodeUnits OrderedRecord List Option

/-! ## Keys -/

/-- A key; binary keys do not occur. -/
inductive Key where
  | number (x : WithBot (WithTop ℚ))
  | date (t : ℤ)
  | string (s : Text)
  | array (items : List Key)

mutual

/-- "Convert a value to a key"; `none` is an invalid one. -/
def toKey : JsValue → Option Key
  | .number n => n.extended.map .number
  | .date time => time.map .date
  | .string s => some (.string s)
  | .array items => (toKeys items).map .array
  | _ => none

/-- The items of an array, all of which have to be keys. -/
def toKeys : List JsValue → Option (List Key)
  | [] => some []
  | v :: items => (toKey v).bind fun k => (toKeys items).map fun l => k :: l

end

/-- The order of the types. -/
def Key.rank : Key → ℕ
  | number _ => 0
  | date _ => 1
  | string _ => 2
  | array _ => 3

/-- The order of values of one type. -/
def order {α : Type} [LT α] [DecidableLT α] (a b : α) : Ordering :=
  if a < b then .lt else if b < a then .gt else .eq

mutual

/-- "Compare two keys". -/
def compareKeys : Key → Key → Ordering
  | .number x, .number y => order x y
  | .date s, .date t => order s t
  | .string s, .string t => order s t
  | .array l, .array m => compareItems l m
  | a, b => order a.rank b.rank

/-- Arrays are compared item by item; a shorter one comes first. -/
def compareItems : List Key → List Key → Ordering
  | [], [] => .eq
  | [], _ :: _ => .lt
  | _ :: _, [] => .gt
  | a :: l, b :: m => (compareKeys a b).then (compareItems l m)

end

/-- How a query fails. -/
inductive QueryError where
  | typeError
  | dataError
  deriving DecidableEq

/-- `IDBKeyRange`. -/
structure KeyRange where
  lower : Key
  upper : Key
  lowerOpen : Bool
  upperOpen : Bool

namespace KeyRange

/-- `IDBKeyRange.bound`, of keys: an empty range is an error. -/
def bound (lower upper : Key) (lowerOpen upperOpen : Bool) : Except QueryError KeyRange :=
  match compareKeys lower upper with
  | .gt => .error .dataError
  | .eq => if lowerOpen || upperOpen then .error .dataError else .ok ⟨lower, upper, false, false⟩
  | .lt => .ok ⟨lower, upper, lowerOpen, upperOpen⟩

/-- A key is in a range. -/
def contains (range : KeyRange) (key : Key) : Bool :=
  (match compareKeys range.lower key with
    | .lt => true
    | .eq => !range.lowerOpen
    | .gt => false) &&
  match compareKeys key range.upper with
    | .lt => true
    | .eq => !range.upperOpen
    | .gt => false

end KeyRange

/-! ## The IndexedDB store -/

/-- An index of the object store: the field in its key path, and whether it is unique. -/
structure Index where
  field : Text
  unique : Bool

/-- `normalizeFieldInput`. -/
structure FieldIndex where
  index : Bool
  unique : Bool

/-- `TableIndexDefinition`. -/
structure TableIndexDefinition where
  name : Text
  field : Text
  unique : Bool

/-- A table of the schema, as far as indexes go. -/
structure TableSchema where
  fields : Record Text FieldIndex
  indexes : List TableIndexDefinition

/-- The object store `rows`, and its indexes but `by_table`. -/
structure IndexedDbStore where
  rows : Record Text Row
  indexes : Record Text Index

/-- `"by_" + field`. -/
def byField (field : Text) : Text := [98, 121, 95] ++ field

/-- `schemaIndexName`. -/
def schemaIndexName (table indexName : Text) : Text := [105, 100, 120, 58] ++ table ++ 58 :: indexName

/-- `hasSchemaIndex`. -/
def hasSchemaIndex (schema : Record Text TableSchema) (table field : Text) :
    Option TableIndexDefinition :=
  (schema.get table).bind fun tableSchema =>
    (tableSchema.indexes.find? fun index => decide (index.field = field)).or
      ((tableSchema.fields.get field).bind fun f =>
        if f.index || f.unique then some ⟨byField field, field, f.unique⟩ else none)

/-- The property of a value that a key path names. -/
def property (v : JsValue) (name : Text) : Option JsValue :=
  match v with
  | .string s =>
    if name = [108, 101, 110, 103, 116, 104] then some (.number (.finite s.length)) else none
  | .array items =>
    if name = [108, 101, 110, 103, 116, 104] then some (.number (.finite items.length)) else none
  | .object fields => find name fields
  | _ => none

/-- The property of a column that a key path names. -/
def entryProperty (entry : ColumnEntry) (name : Text) : Option JsValue :=
  if name = [118, 97, 108, 117, 101] then some entry.value
  else if name = [104, 108, 99] then some (.string entry.hlc)
  else none

/-- What the key path `payload.<field>.value` leads to; a dot in the field is one in the path. -/
def indexedValue (row : Row) (field : Text) : Option JsValue :=
  match field.splitOn 46 ++ [[118, 97, 108, 117, 101]] with
  | name :: second :: rest =>
    (row.payload.get name).bind fun entry =>
      (entryProperty entry second).bind fun v => rest.foldlM property v
  | _ => none

/-- The key of a row in an index; `none` if it has no place there. -/
def indexKey (row : Row) (field : Text) : Option Key :=
  ((indexedValue row field).bind toKey).map fun k => .array [.string row._meta.table, k]

section Store

variable (P : Platform)

/-- `rangeForClause`, of the operators but `anyOf`. -/
def rangeForClause (table : Text) (clause : WhereClause) : Except QueryError KeyRange :=
  let inTable (k : Key) : Key := .array [.string table, k]
  let key (w : Option WherePrimitive) : Except QueryError Key :=
    match toKey (givenValue w) with
    | some k => .ok k
    | none => .error .dataError
  let tableLowerBound : Key := .array [.string table]
  let tableUpperBound : Key := .array [.string table, .array []]
  match clause.op with
  | .above => do
    let k ← key clause.value
    KeyRange.bound (inTable k) tableUpperBound true false
  | .aboveOrEqual => do
    let k ← key clause.value
    KeyRange.bound (inTable k) tableUpperBound false false
  | .below => do
    let k ← key clause.value
    KeyRange.bound tableLowerBound (inTable k) false true
  | .belowOrEqual => do
    let k ← key clause.value
    KeyRange.bound tableLowerBound (inTable k) false false
  | .between => do
    let lower ← key clause.lower
    let upper ← key clause.upper
    KeyRange.bound (inTable lower) (inTable upper) clause.lowerOpen clause.upperOpen
  | .startsWith =>
    let t := if clause.value = none then [] else stringOf P clause.value
    KeyRange.bound (inTable (.string t)) (inTable (.string (t ++ [65535]))) false false
  | _ => do
    let k ← key clause.value
    KeyRange.bound (inTable k) (inTable k) false false

end Store

namespace IndexedDbStore

/-- The rows in the order of their keys. -/
def inOrder (store : IndexedDbStore) : List (Text × Row) :=
  store.rows.entries.mergeSort fun a b => decide (a.1 ≤ b.1)

/-- `index.getAll`, with a range: by key, and among rows of one key by primary key. -/
def getAll (store : IndexedDbStore) (field : Text) (range : KeyRange) : List Row :=
  let found := store.inOrder.filterMap fun e =>
    (indexKey e.2 field).bind fun k => if range.contains k then some (k, e.2) else none
  (found.mergeSort fun a b => (compareKeys a.1 b.1).isLE).map Prod.snd

/-- `getRow`. -/
def getRow (store : IndexedDbStore) (table rowId : Text) : Option Row :=
  store.rows.get (LocalStore.rowKey table rowId)

/-- `getRows`. -/
def getRows (store : IndexedDbStore) (refs : List (Text × Text)) : List (Option Row) :=
  refs.map fun ref => store.getRow ref.1 ref.2

/-- Another row has the key of a row in a unique index. -/
def violates (store : IndexedDbStore) (row : Row) : Bool :=
  store.indexes.values.any fun index => index.unique &&
    store.rows.entries.any fun e => decide (e.1 ≠ LocalStore.keyOf row) &&
      match indexKey row index.field, indexKey e.2 index.field with
      | some k, some k' => decide (compareKeys k k' = .eq)
      | _, _ => false

/-- `put`, in a transaction; `none` is a `ConstraintError`. -/
def put (store : IndexedDbStore) (row : Row) : Option IndexedDbStore :=
  if store.violates row then none
  else some { store with rows := store.rows.set (LocalStore.keyOf row) row }

/-- `putRow`: a transaction that fails changes nothing.  `commitLocalMutation` puts its row in the
same way. -/
def putRow (store : IndexedDbStore) (row : Row) : IndexedDbStore := (store.put row).getD store

/-- `putRows`, in one transaction. -/
def putRows (store : IndexedDbStore) (rows : List Row) : IndexedDbStore :=
  (rows.foldlM put store).getD store

/-- `getTable`. -/
def getTable (store : IndexedDbStore) (table : Text) : List Row :=
  (store.inOrder.map Prod.snd).filter (inTable table)

/-- `index.getAll`, with `IDBKeyRange.only`, of a value of `anyOf`. -/
def getOnly (store : IndexedDbStore) (field table : Text) (w : WherePrimitive) :
    Except QueryError (List Row) :=
  match toKey w.toJs with
  | none => .error .dataError
  | some k => (KeyRange.bound (.array [.string table, k]) (.array [.string table, k]) false
      false).map (store.getAll field)

/-- The part of `queryWhere` that asks an index. -/
def queryIndex (P : Platform) (store : IndexedDbStore) (field table : Text) (clause : WhereClause) :
    Except QueryError (List Row) :=
  if clause.op = .anyOf then do
    let matched ← (clause.values.getD []).mapM (store.getOnly field table)
    pure (matched.flatten.foldl (fun (merged : Record Text Row) row =>
      if inTable table row then merged.set (LocalStore.keyOf row) row else merged) ∅).values
  else do
    let range ← rangeForClause P table clause
    pure ((store.getAll field range).filter (inTable table))

/-- `queryWhere`. -/
def queryWhere (P : Platform) (store : IndexedDbStore) (schema : Record Text TableSchema)
    (table : Text) (clause : WhereClause) : Except QueryError (List Row) :=
  let whole : Except QueryError (List Row) :=
    match scan P (store.getTable table) clause with
    | some rows => .ok rows
    | none => .error .typeError
  match hasSchemaIndex schema table clause.field with
  | none => whole
  | some index =>
    match store.indexes.get (schemaIndexName table index.name) with
    | none => whole
    | some index => store.queryIndex P index.field table clause

end IndexedDbStore

/-! ## What a query returns -/

/-- Every row stands under its own key. -/
def Keyed (rows : Record Text Row) : Prop :=
  ∀ key row, rows.get key = some row → LocalStore.keyOf row = key

/-- A row that is stored. -/
def Stored (rows : Record Text Row) (row : Row) : Prop := rows.get (LocalStore.keyOf row) = some row

variable {row : Row}

theorem Keyed.mem_entries {rows : Record Text Row} (h : Keyed rows) :
    (∃ e ∈ rows.entries, e.2 = row) ↔ Stored rows row := by
  constructor
  · rintro ⟨e, he, rfl⟩
    have hget : rows.get e.1 = some e.2 := Record.mem_entries_iff.mp he
    rw [Stored, h e.1 e.2 hget]
    exact hget
  · exact fun hrow => ⟨(LocalStore.keyOf row, row), Record.mem_entries_iff.mpr hrow, rfl⟩

theorem mem_filterRows {p : Row → Option Bool} {rows kept : List Row}
    (h : filterRows p rows = some kept) : row ∈ kept ↔ row ∈ rows ∧ p row = some true := by
  induction rows generalizing kept with
  | nil =>
    rw [← some.inj h]
    simp
  | cons r rows ih =>
    rw [filterRows] at h
    obtain ⟨keep, hkeep, h⟩ := bind_eq_some_iff.mp h
    obtain ⟨rest, hrest, rfl⟩ := map_eq_some_iff.mp h
    have hiff := ih hrest
    cases keep with
    | true =>
      rw [if_pos rfl, mem_cons, mem_cons, hiff]
      constructor
      · rintro (rfl | ⟨hmem, hp⟩)
        · exact ⟨.inl rfl, hkeep⟩
        · exact ⟨.inr hmem, hp⟩
      · rintro ⟨rfl | hmem, hp⟩
        · exact .inl rfl
        · exact .inr ⟨hmem, hp⟩
    | false =>
      rw [if_neg (by decide), hiff, mem_cons]
      constructor
      · exact fun ⟨hmem, hp⟩ => ⟨.inr hmem, hp⟩
      · rintro ⟨rfl | hmem, hp⟩
        · rw [hkeep] at hp
          exact absurd (some.inj hp) (by decide)
        · exact ⟨hmem, hp⟩

theorem mem_scan {P : Platform} {rows kept : List Row} {clause : WhereClause}
    (h : scan P rows clause = some kept) :
    row ∈ kept ↔ row ∈ rows ∧
      matchesClause P (readColumnValue row clause.field) clause = some true :=
  mem_filterRows h

theorem LocalStore.mem_getTable {store : LocalStore} (h : Keyed store.rows) {table : Text} :
    row ∈ store.getTable table ↔ Stored store.rows row ∧ inTable table row = true := by
  rw [LocalStore.getTable, mem_filter, ← h.mem_entries, Record.values, List.mem_map]

namespace IndexedDbStore

variable {store : IndexedDbStore}

theorem mem_inOrder {e : Text × Row} : e ∈ store.inOrder ↔ e ∈ store.rows.entries :=
  (mergeSort_perm _ _).mem_iff

variable {row : Row} {table : Text}

theorem mem_getTable (h : Keyed store.rows) :
    row ∈ store.getTable table ↔ Stored store.rows row ∧ inTable table row = true := by
  rw [getTable, mem_filter, ← h.mem_entries, List.mem_map]
  simp only [mem_inOrder]

/-- The place of a row in an index is in a range. -/
def Within (field : Text) (range : KeyRange) (row : Row) : Prop :=
  ∃ k, indexKey row field = some k ∧ range.contains k = true

theorem mem_getAll (h : Keyed store.rows) {field : Text} {range : KeyRange} :
    row ∈ store.getAll field range ↔ Stored store.rows row ∧ Within field range row := by
  rw [getAll, List.mem_map, ← h.mem_entries]
  simp only [(mergeSort_perm _ _).mem_iff, mem_filterMap, mem_inOrder, Within]
  constructor
  · rintro ⟨⟨k, row'⟩, ⟨e, he, hkey⟩, rfl⟩
    obtain ⟨k', hk', hin⟩ := bind_eq_some_iff.mp hkey
    split_ifs at hin with hcontains
    obtain ⟨rfl, rfl⟩ := Prod.mk.inj (some.inj hin)
    exact ⟨⟨e, he, rfl⟩, k', hk', hcontains⟩
  · rintro ⟨⟨e, he, rfl⟩, k, hk, hcontains⟩
    refine ⟨(k, e.2), ⟨e, he, ?_⟩, rfl⟩
    rw [hk, bind_some, if_pos hcontains]

/-- The range of one key, under which `anyOf` asks for a value. -/
def onlyKey (table : Text) (k : Key) : Except QueryError KeyRange :=
  KeyRange.bound (.array [.string table, k]) (.array [.string table, k]) false false

theorem mem_getOnly (h : Keyed store.rows) {field : Text} {w : WherePrimitive} :
    (∃ rows, store.getOnly field table w = .ok rows ∧ row ∈ rows) ↔
      Stored store.rows row ∧ ∃ k range, toKey w.toJs = some k ∧ onlyKey table k = .ok range ∧
        Within field range row := by
  rw [getOnly]
  cases hk : toKey w.toJs with
  | none =>
    constructor
    · rintro ⟨rows, hrows, -⟩
      exact absurd hrows (by rintro ⟨⟩)
    · rintro ⟨-, k, range, hk', -⟩
      exact absurd hk' (by simp)
  | some k =>
    dsimp only
    change (∃ rows, (onlyKey table k).map (store.getAll field) = .ok rows ∧ row ∈ rows) ↔ _
    cases hrange : onlyKey table k with
    | error e =>
      constructor
      · rintro ⟨rows, hrows, -⟩
        exact absurd hrows (by rintro ⟨⟩)
      · rintro ⟨-, k', range, hk', hrange', -⟩
        rw [← some.inj hk', hrange] at hrange'
        exact absurd hrange' (by rintro ⟨⟩)
    | ok range =>
      constructor
      · rintro ⟨rows, hrows, hrow⟩
        rw [← Except.ok.inj hrows, mem_getAll h] at hrow
        exact ⟨hrow.1, k, range, rfl, hrange, hrow.2⟩
      · rintro ⟨hstored, k', range', hk', hrange', hwithin⟩
        rw [← some.inj hk', hrange] at hrange'
        rw [← Except.ok.inj hrange'] at hwithin
        exact ⟨store.getAll field range, rfl, (mem_getAll h).mpr ⟨hstored, hwithin⟩⟩

/-- A row that an index is asked for. -/
def Selected (P : Platform) (field table : Text) (clause : WhereClause) (row : Row) : Prop :=
  if clause.op = .anyOf then
    ∃ w ∈ clause.values.getD [], ∃ k range, toKey w.toJs = some k ∧
      onlyKey table k = .ok range ∧ Within field range row
  else ∃ range, rangeForClause P table clause = .ok range ∧ Within field range row

theorem mem_mapM_ok {α β : Type} {f : α → Except QueryError (List β)} {l : List α}
    {out : List (List β)} (h : l.mapM f = .ok out) {b : β} :
    b ∈ out.flatten ↔ ∃ a ∈ l, ∃ bs, f a = .ok bs ∧ b ∈ bs := by
  induction l generalizing out with
  | nil =>
    obtain rfl : out = [] := (Except.ok.inj h).symm
    simp
  | cons a l ih =>
    rw [mapM_cons] at h
    cases hfa : f a with
    | error e =>
      rw [hfa] at h
      exact absurd h (by rintro ⟨⟩)
    | ok bs =>
      rw [hfa] at h
      cases hrest : l.mapM f with
      | error e =>
        rw [hrest] at h
        exact absurd h (by rintro ⟨⟩)
      | ok rest =>
        rw [hrest] at h
        obtain rfl : out = bs :: rest := (Except.ok.inj h).symm
        rw [flatten_cons, mem_append, ih hrest]
        constructor
        · rintro (hb | ⟨a', ha', bs', hbs', hb⟩)
          · exact ⟨a, mem_cons_self, bs, hfa, hb⟩
          · exact ⟨a', mem_cons_of_mem a ha', bs', hbs', hb⟩
        · rintro ⟨a', ha', bs', hbs', hb⟩
          rcases mem_cons.mp ha' with rfl | ha'
          · rw [hfa] at hbs'
            exact .inl (Except.ok.inj hbs' ▸ hb)
          · exact .inr ⟨a', ha', bs', hbs', hb⟩

theorem mem_values_collect {rows : Record Text Row} {l : List Row} (h : ∀ row ∈ l, Stored rows row)
    (merged : Record Text Row)
    (hmerged : ∀ key row, merged.get key = some row →
      LocalStore.keyOf row = key ∧ Stored rows row) :
    row ∈ (l.foldl (fun (merged : Record Text Row) row =>
      if inTable table row then merged.set (LocalStore.keyOf row) row else merged) merged).values ↔
      row ∈ merged.values ∨ row ∈ l ∧ inTable table row = true := by
  induction l generalizing merged with
  | nil => simp
  | cons r l ih =>
    have htail : ∀ row ∈ l, Stored rows row := fun row hrow => h row (mem_cons_of_mem r hrow)
    rw [foldl_cons]
    split_ifs with hr
    · have hset : ∀ key row, (merged.set (LocalStore.keyOf r) r).get key = some row →
          LocalStore.keyOf row = key ∧ Stored rows row := by
        intro key row hget
        rw [Record.get_set] at hget
        split_ifs at hget with hkey
        · rw [← some.inj hget]
          exact ⟨hkey, h r mem_cons_self⟩
        · exact hmerged key row hget
      rw [ih htail _ hset, Record.mem_values_iff, Record.mem_values_iff]
      simp only [Record.get_set, mem_cons]
      constructor
      · rintro (⟨key, hget⟩ | ⟨hmem, hin⟩)
        · split_ifs at hget with hkey
          · exact .inr ⟨.inl (some.inj hget).symm, some.inj hget ▸ hr⟩
          · exact .inl ⟨key, hget⟩
        · exact .inr ⟨.inr hmem, hin⟩
      · rintro (⟨key, hget⟩ | ⟨rfl | hmem, hin⟩)
        · obtain ⟨hkey, hstored⟩ := hmerged key row hget
          refine .inl ⟨key, ?_⟩
          split_ifs with heq
          · -- a row under the same key is the same row
            have hr' := h r mem_cons_self
            rw [Stored, heq, ← hkey] at hr'
            rw [Stored] at hstored
            exact hr'.symm.trans hstored
          · exact hget
        · exact .inl ⟨LocalStore.keyOf row, if_pos rfl⟩
        · exact .inr ⟨hmem, hin⟩
    · rw [ih htail merged hmerged, mem_cons]
      constructor
      · rintro (hmem | ⟨hmem, hin⟩)
        · exact .inl hmem
        · exact .inr ⟨.inr hmem, hin⟩
      · rintro (hmem | ⟨rfl | hmem, hin⟩)
        · exact .inl hmem
        · exact absurd hin hr
        · exact .inr ⟨hmem, hin⟩

/-- **An index query** returns the stored rows of the table that it asks for. -/
theorem mem_queryIndex {P : Platform} (h : Keyed store.rows) {field : Text} {clause : WhereClause}
    {found : List Row} (hfound : store.queryIndex P field table clause = .ok found) :
    row ∈ found ↔ Stored store.rows row ∧ inTable table row = true ∧
      Selected P field table clause row := by
  rw [queryIndex] at hfound
  rw [Selected]
  split_ifs at hfound ⊢ with hop
  · cases hmapM : (clause.values.getD []).mapM (store.getOnly field table) with
    | error e =>
      rw [hmapM] at hfound
      exact absurd hfound (by rintro ⟨⟩)
    | ok matched =>
      rw [hmapM] at hfound
      rw [← Except.ok.inj hfound]
      have hmem : ∀ row, row ∈ matched.flatten ↔ Stored store.rows row ∧
          ∃ w ∈ clause.values.getD [], ∃ k range, toKey w.toJs = some k ∧
            onlyKey table k = .ok range ∧ Within field range row := by
        intro row
        rw [mem_mapM_ok hmapM]
        simp only [mem_getOnly h]
        constructor
        · rintro ⟨w, hw, hstored, hkey⟩
          exact ⟨hstored, w, hw, hkey⟩
        · rintro ⟨hstored, w, hw, hkey⟩
          exact ⟨w, hw, hstored, hkey⟩
      rw [mem_values_collect (fun row hrow => ((hmem row).mp hrow).1) ∅
        fun key row hget => absurd hget (by simp), hmem]
      have hempty : row ∉ (∅ : Record Text Row).values := not_mem_nil
      tauto
  · cases hrange : rangeForClause P table clause with
    | error e =>
      rw [hrange] at hfound
      exact absurd hfound (by rintro ⟨⟩)
    | ok range =>
      rw [hrange] at hfound
      rw [← Except.ok.inj hfound, mem_filter, mem_getAll h]
      constructor
      · rintro ⟨⟨hstored, hwithin⟩, hin⟩
        exact ⟨hstored, hin, range, rfl, hwithin⟩
      · rintro ⟨hstored, hin, range', hrange', hwithin⟩
        rw [Except.ok.inj hrange']
        exact ⟨⟨hstored, hwithin⟩, hin⟩

/-- A row that a query chooses among the rows of its table: what the indexes say, or the clause. -/
def Chosen (P : Platform) (indexes : Record Text Index) (schema : Record Text TableSchema)
    (table : Text) (clause : WhereClause) (row : Row) : Prop :=
  match (hasSchemaIndex schema table clause.field).bind fun index =>
      indexes.get (schemaIndexName table index.name) with
  | none => matchesClause P (readColumnValue row clause.field) clause = some true
  | some index => Selected P index.field table clause row

/-- **A query** returns the stored rows of the table that it chooses. -/
theorem mem_queryWhere {P : Platform} (h : Keyed store.rows) {schema : Record Text TableSchema}
    {clause : WhereClause} {found : List Row}
    (hfound : store.queryWhere P schema table clause = .ok found) :
    row ∈ found ↔ Stored store.rows row ∧ inTable table row = true ∧
      Chosen P store.indexes schema table clause row := by
  have hwhole : ∀ rows, (match scan P (store.getTable table) clause with
      | some rows => .ok rows
      | none => .error .typeError : Except QueryError (List Row)) = .ok rows →
      (row ∈ rows ↔ Stored store.rows row ∧ inTable table row = true ∧
        matchesClause P (readColumnValue row clause.field) clause = some true) := by
    intro rows hrows
    split at hrows
    · rename_i kept hscan
      rw [← Except.ok.inj hrows, mem_scan hscan, mem_getTable h, and_assoc]
    · exact absurd hrows (by rintro ⟨⟩)
  rw [queryWhere] at hfound
  rw [Chosen]
  cases hschema : hasSchemaIndex schema table clause.field with
  | none =>
    rw [hschema] at hfound
    exact hwhole found hfound
  | some index =>
    rw [hschema] at hfound
    rw [bind_some]
    dsimp only at hfound
    cases hindex : store.indexes.get (schemaIndexName table index.name) with
    | none =>
      rw [hindex] at hfound
      exact hwhole found hfound
    | some index' =>
      rw [hindex] at hfound
      exact mem_queryIndex h hfound

end IndexedDbStore

end Interocitor.Queries
