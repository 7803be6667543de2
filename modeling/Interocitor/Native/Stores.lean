import Interocitor.Native.Hlc
import Interocitor.Queries.Stores

/-!
# `MemoryLocalStore.swift`, `IndexedSQLiteStore.swift`: two matchers

Each Swift store answers a query by going over the rows of the table, and each brings its own copy
of the matcher.  The two differ in three places.

* Equality.  The memory store asks whether `compareValues` finds neither value below the other,
  which holds of any two values it does not compare --- a text and a number, two arrays --- and of a
  `NaN` and any number.  The SQLite store uses the derived `==`, which never takes an `.int` for a
  `.double`.
* Order.  `cmpValues` has no case for booleans.
* The row.  The SQLite store keeps a row as JSON text, and reading it back makes an `.int` of every
  `.double` without a fraction that an `Int` can hold; a row with a `NaN` or an infinity has no such
  text and is refused.  The texts it binds to a statement end at the first NUL.

`Alike` collects, row by row, what keeps the answers the same; `sameAnswers_iff` says that it is
exactly that.

* `matches_iff`, `sameAnswers_iff`: the two agree exactly elsewhere.
-/

namespace Interocitor.Native.SwiftStores

open CodeUnits OrderedRecord Decimals List Option
open Interocitor.Queries (WhereOperator)

/-! ## Values -/

/-- A `Double`: a number of the 64-bit format. -/
structure Double where
  number : JsNumber
  float : ∀ q, number = .finite q → nearestFloat |q| = |q| ∧ |q| < 2 ^ 1024

/-- `AnyCodable`. -/
inductive AnyCodable where
  | string (t : Text)
  | int (i : ℤ)
  | double (x : Double)
  | bool (b : Bool)
  | array (items : List AnyCodable)
  | object (members : List (Text × AnyCodable))
  | null

/-- `isNull`. -/
def AnyCodable.isNull : AnyCodable → Bool
  | .null => true
  | _ => false

/-- `Double(_:)` of an integer: the nearest one. -/
def doubleOf (i : ℤ) : JsNumber := Wire.jsNumber (.ofInt i)

/-- What the stores use of Swift strings beside `Unicode`: `hasPrefix`, and that of two strings
neither is below the other exactly if they are equal. -/
structure Collation extends Unicode where
  hasPrefix : Text → Text → Bool
  trichotomy : ∀ s t, (less s t = false ∧ less t s = false) ↔ norm s = norm t

section Equality

variable (U : Collation)

mutual

/-- The derived `==`. -/
def equal : AnyCodable → AnyCodable → Bool
  | .string s, .string t => decide (U.norm s = U.norm t)
  | .int i, .int j => decide (i = j)
  | .double x, .double y => x.number.same y.number
  | .bool a, .bool b => decide (a = b)
  | .array l, .array r => itemsEqual l r
  | .object l, .object r => decide (l.length = r.length) && membersEqual l r
  | .null, .null => true
  | _, _ => false
termination_by structural x => x

/-- Arrays of one length with equal items. -/
def itemsEqual : List AnyCodable → List AnyCodable → Bool
  | [], [] => true
  | a :: l, b :: r => equal a b && itemsEqual l r
  | _, _ => false
termination_by structural x => x

/-- Each value on the left equals the value of that key on the right. -/
def membersEqual : List (Text × AnyCodable) → List (Text × AnyCodable) → Bool
  | [], _ => true
  | p :: l, r => memberEqual p r && membersEqual l r
termination_by structural x => x

@[inherit_doc membersEqual]
def memberEqual : Text × AnyCodable → List (Text × AnyCodable) → Bool
  | (k, v), r =>
    match Wire.Swift.lookup U.norm k r with
    | some w => equal v w
    | none => false
termination_by structural x => x

end

end Equality

/-! ### Through JSON text -/

/-- The integer that the text of a double is read back as, if `init(from:)` gets an `Int` out of
it; `-0` is written `-0`, which is the integer zero. -/
def storedInteger (x : JsNumber) : Option ℤ :=
  (match x with
    | .negZero => some 0
    | .finite q => if q.den = 1 then some (printedInteger q) else none
    | _ => none).filter fun i => decide (-2 ^ 63 ≤ i ∧ i < 2 ^ 63)

mutual

/-- Whether `JSONEncoder` takes a value: no `NaN` and no infinity is in it. -/
def encodable : AnyCodable → Bool
  | .double x => x.number.isFinite
  | .array items => itemsEncodable items
  | .object members => membersEncodable members
  | _ => true
termination_by structural x => x

@[inherit_doc encodable]
def itemsEncodable : List AnyCodable → Bool
  | [] => true
  | v :: items => encodable v && itemsEncodable items
termination_by structural x => x

@[inherit_doc encodable]
def membersEncodable : List (Text × AnyCodable) → Bool
  | [] => true
  | p :: members => memberEncodable p && membersEncodable members
termination_by structural x => x

@[inherit_doc encodable]
def memberEncodable : Text × AnyCodable → Bool
  | (_, v) => encodable v
termination_by structural x => x

end

mutual

/-- A value that was encoded and decoded again. -/
def reread : AnyCodable → AnyCodable
  | .double x =>
    match storedInteger x.number with
    | some i => .int i
    | none => .double x
  | .array items => .array (rereadItems items)
  | .object members => .object (rereadMembers members)
  | .string t => .string t
  | .int i => .int i
  | .bool b => .bool b
  | .null => .null
termination_by structural x => x

@[inherit_doc reread]
def rereadItems : List AnyCodable → List AnyCodable
  | [] => []
  | v :: items => reread v :: rereadItems items
termination_by structural x => x

@[inherit_doc reread]
def rereadMembers : List (Text × AnyCodable) → List (Text × AnyCodable)
  | [] => []
  | p :: members => rereadMember p :: rereadMembers members
termination_by structural x => x

@[inherit_doc reread]
def rereadMember : Text × AnyCodable → Text × AnyCodable
  | (k, v) => (k, reread v)
termination_by structural x => x

end

/-! ## Clauses and rows -/

/-- `WhereClause`. -/
structure WhereClause where
  field : Text
  op : WhereOperator
  value : Option AnyCodable
  values : Option (List AnyCodable)
  lower : Option AnyCodable
  upper : Option AnyCodable
  lowerOpen : Bool
  upperOpen : Bool

/-- `ColumnEntry`. -/
structure ColumnEntry where
  value : AnyCodable
  hlc : Text

/-- An entry that was encoded and decoded again. -/
def ColumnEntry.reread (entry : ColumnEntry) : ColumnEntry :=
  ⟨SwiftStores.reread entry.value, entry.hlc⟩

/-- `Row`, as far as the stores look at one. -/
structure Row where
  table : Text
  rowId : Text
  deleted : Bool
  columns : List (Text × ColumnEntry)

namespace Row

/-- `row.columns[field]?.value`. -/
def column (U : Collation) (row : Row) (field : Text) : Option AnyCodable :=
  (Wire.Swift.lookup U.norm field row.columns).map ColumnEntry.value

/-- What tells a row from another one. -/
def pair (row : Row) : Text × Text := (row.table, row.rowId)

/-- Whether a row can be encoded. -/
def isEncodable (row : Row) : Bool := row.columns.all fun e => encodable e.2.value

/-- A row that was encoded and decoded again. -/
def reread (row : Row) : Row :=
  { row with columns := row.columns.map fun e => (e.1, e.2.reread) }

end Row

/-! ## The memory store -/

/-- `-1`, `1` or `0`, as one value is below the other, above it, or neither. -/
def threeWay (less greater : Bool) : ℤ := if less then -1 else if greater then 1 else 0

/-- Two doubles. -/
def compareNumbers (a b : JsNumber) : ℤ := threeWay (a.lt b) (b.lt a)

/-- `compareValues`. -/
def compareValues (U : Collation) : AnyCodable → AnyCodable → ℤ
  | .int a, .int b => threeWay (decide (a < b)) (decide (b < a))
  | .double a, .double b => compareNumbers a.number b.number
  | .int a, .double b => compareNumbers (doubleOf a) b.number
  | .double a, .int b => compareNumbers a.number (doubleOf b)
  | .string a, .string b => threeWay (U.less a b) (U.less b a)
  | .bool a, .bool b => threeWay (!a && b) (!b && a)
  | _, _ => 0

/-- `matchesClause`. -/
def matchesClause (U : Collation) (value : Option AnyCodable) (clause : WhereClause) : Bool :=
  match value with
  | none => false
  | some v =>
    if v.isNull then false
    else
      match clause.op with
      | .equals => decide (compareValues U v (clause.value.getD .null) = 0)
      | .above => decide (0 < compareValues U v (clause.value.getD .null))
      | .aboveOrEqual => decide (0 ≤ compareValues U v (clause.value.getD .null))
      | .below => decide (compareValues U v (clause.value.getD .null) < 0)
      | .belowOrEqual => decide (compareValues U v (clause.value.getD .null) ≤ 0)
      | .between =>
        let lo := compareValues U v (clause.lower.getD .null)
        let hi := compareValues U v (clause.upper.getD .null)
        let lowerOk := if clause.lowerOpen then decide (0 < lo) else decide (0 ≤ lo)
        let upperOk := if clause.upperOpen then decide (hi < 0) else decide (hi ≤ 0)
        lowerOk && upperOk
      | .startsWith =>
        match v, clause.value with
        | .string s, some (.string t) => U.hasPrefix s t
        | _, _ => false
      | .anyOf => (clause.values.getD []).any fun w => decide (compareValues U v w = 0)

/-- `MemoryLocalStore`: the rows under their keys, which are equal as strings are. -/
structure MemoryLocalStore where
  rows : Record Text Row

namespace MemoryLocalStore

variable (U : Collation)

/-- `rowKey`. -/
def rowKey (table rowId : Text) : Text := table ++ 47 :: rowId

/-- `putRow`. -/
def putRow (store : MemoryLocalStore) (row : Row) : MemoryLocalStore :=
  ⟨store.rows.set (U.norm (rowKey row.table row.rowId)) row⟩

/-- `getTable`. -/
def getTable (store : MemoryLocalStore) (table : Text) : List Row :=
  store.rows.values.filter fun row => decide (U.norm row.table = U.norm table) && !row.deleted

/-- `queryWhere`. -/
def queryWhere (store : MemoryLocalStore) (table : Text) (clause : WhereClause) : List Row :=
  (store.getTable U table).filter fun row => matchesClause U (row.column U clause.field) clause

/-- A store into which rows were put. -/
def holding (rows : List Row) : MemoryLocalStore := rows.foldl (putRow U) ⟨∅⟩

end MemoryLocalStore

/-! ## The SQLite store -/

/-- `cmpValues`. -/
def cmpValues (U : Collation) : AnyCodable → AnyCodable → ℤ
  | .int a, .int b => threeWay (decide (a < b)) (decide (b < a))
  | .double a, .double b => compareNumbers a.number b.number
  | .int a, .double b => compareNumbers (doubleOf a) b.number
  | .double a, .int b => compareNumbers a.number (doubleOf b)
  | .string a, .string b => threeWay (U.less a b) (U.less b a)
  | _, _ => 0

/-- `matchesWhereClause`. -/
def matchesWhereClause (U : Collation) (value : Option AnyCodable) (clause : WhereClause) : Bool :=
  match value with
  | none => false
  | some v =>
    if v.isNull then false
    else
      match clause.op with
      | .equals => equal U v (clause.value.getD .null)
      | .above => decide (0 < cmpValues U v (clause.value.getD .null))
      | .aboveOrEqual => decide (0 ≤ cmpValues U v (clause.value.getD .null))
      | .below => decide (cmpValues U v (clause.value.getD .null) < 0)
      | .belowOrEqual => decide (cmpValues U v (clause.value.getD .null) ≤ 0)
      | .between =>
        let lo := cmpValues U v (clause.lower.getD .null)
        let hi := cmpValues U v (clause.upper.getD .null)
        (if clause.lowerOpen then decide (0 < lo) else decide (0 ≤ lo)) &&
          (if clause.upperOpen then decide (hi < 0) else decide (hi ≤ 0))
      | .startsWith =>
        match v, clause.value with
        | .string s, some (.string t) => U.hasPrefix s t
        | _, _ => false
      | .anyOf => (clause.values.getD []).any fun w => equal U v w

/-- A record of the table `rows`. -/
structure SqliteRecord where
  data : Row
  deleted : Bool

/-- `IndexedSQLiteStore`: the records under `tbl` and `row_id`. -/
structure IndexedSQLiteStore where
  rows : Record (Text × Text) SqliteRecord

namespace IndexedSQLiteStore

/-- A text bound to a statement as a C string: it ends at the first NUL. -/
def bindText (t : Text) : Text := t.takeWhile fun u => decide (u ≠ 0)

/-- `putRow`; `none` is the error of the encoder. -/
def putRow (store : IndexedSQLiteStore) (row : Row) : Option IndexedSQLiteStore :=
  if row.isEncodable then
    some ⟨store.rows.set (bindText row.table, bindText row.rowId) ⟨row.reread, row.deleted⟩⟩
  else none

/-- `getTable`. -/
def getTable (store : IndexedSQLiteStore) (table : Text) : List Row :=
  (store.rows.entries.filter fun e => decide (e.1.1 = bindText table) && !e.2.deleted).map
    fun e => e.2.data

/-- `queryWhere`. -/
def queryWhere (U : Collation) (store : IndexedSQLiteStore) (table : Text) (clause : WhereClause) :
    List Row :=
  (store.getTable table).filter fun row => matchesWhereClause U (row.column U clause.field) clause

/-- A store into which rows were put; one that is refused leaves it as it was. -/
def holding (rows : List Row) : IndexedSQLiteStore :=
  rows.foldl (fun store row => (store.putRow row).getD store) ⟨∅⟩

end IndexedSQLiteStore

/-! ## Where the matchers part -/

/-- Neither number is below the other: they are the same, or one is `NaN`. -/
def Level (a b : JsNumber) : Prop := a.lt b = false ∧ b.lt a = false

/-- The memory store takes the value for equal to the clause's, and the SQLite store does not take
what it reads back for equal to it. -/
def TiedOnly (U : Collation) : AnyCodable → AnyCodable → Prop
  | .string _, .string _ => False
  | .int _, .int _ => False
  | .int i, .double y => Level (doubleOf i) y.number
  | .double x, .double y =>
    Level x.number y.number ∧ (y.number = .nan ∨ storedInteger x.number ≠ none)
  | .double x, .int j => Level x.number (doubleOf j) ∧ storedInteger x.number ≠ some j
  | .bool _, .bool _ => False
  | .array l, .array r => itemsEqual U (rereadItems l) r = false
  | .object l, .object r => equal U (.object (rereadMembers l)) (.object r) = false
  | _, _ => True

/-- Just one of the two stores takes the value for one below the clause's. -/
def ConfusedBelow : AnyCodable → AnyCodable → Prop
  | .bool a, .bool b => a = false ∧ b = true
  | .double x, .int j =>
    ∃ k, storedInteger x.number = some k ∧ ¬(x.number.lt (doubleOf j) = true ↔ k < j)
  | _, _ => False

/-- Just one of the two stores takes the value for one above the clause's. -/
def ConfusedAbove : AnyCodable → AnyCodable → Prop
  | .bool a, .bool b => a = true ∧ b = false
  | .double x, .int j =>
    ∃ k, storedInteger x.number = some k ∧ ¬((doubleOf j).lt x.number = true ↔ j < k)
  | _, _ => False

/-- The matchers part at the lower bound. -/
def ConfusedLower (v : AnyCodable) (clause : WhereClause) : Prop :=
  if clause.lowerOpen then ConfusedAbove v (clause.lower.getD .null)
  else ConfusedBelow v (clause.lower.getD .null)

/-- The matchers part at the upper bound. -/
def ConfusedUpper (v : AnyCodable) (clause : WhereClause) : Prop :=
  if clause.upperOpen then ConfusedBelow v (clause.upper.getD .null)
  else ConfusedAbove v (clause.upper.getD .null)

/-- The value is on the right side of the lower bound, for the memory store. -/
def LowerOk (U : Collation) (v : AnyCodable) (clause : WhereClause) : Prop :=
  if clause.lowerOpen then 0 < compareValues U v (clause.lower.getD .null)
  else 0 ≤ compareValues U v (clause.lower.getD .null)

/-- The value is on the right side of the upper bound, for the memory store. -/
def UpperOk (U : Collation) (v : AnyCodable) (clause : WhereClause) : Prop :=
  if clause.upperOpen then compareValues U v (clause.upper.getD .null) < 0
  else compareValues U v (clause.upper.getD .null) ≤ 0

/-- The two matchers part on a value: at the clause's value; at a bound, where the other bound does
not rule the value out in either store; or at every value of a list that the memory store finds. -/
def Confused (U : Collation) (v : AnyCodable) (clause : WhereClause) : Prop :=
  match clause.op with
  | .equals => TiedOnly U v (clause.value.getD .null)
  | .above => ConfusedAbove v (clause.value.getD .null)
  | .aboveOrEqual => ConfusedBelow v (clause.value.getD .null)
  | .below => ConfusedBelow v (clause.value.getD .null)
  | .belowOrEqual => ConfusedAbove v (clause.value.getD .null)
  | .between =>
    (ConfusedLower v clause ∧ ¬ConfusedUpper v clause ∧ UpperOk U v clause) ∨
      (¬ConfusedLower v clause ∧ ConfusedUpper v clause ∧ LowerOk U v clause) ∨
      (ConfusedLower v clause ∧ ConfusedUpper v clause ∧
        (LowerOk U v clause ↔ UpperOk U v clause))
  | .startsWith => False
  | .anyOf =>
    (∃ w ∈ clause.values.getD [], TiedOnly U v w) ∧
      ∀ w ∈ clause.values.getD [], equal U (reread v) w = false

/-! ### Numbers -/

variable {a b : JsNumber}

theorem level_iff : Level a b ↔ a = .nan ∨ b = .nan ∨ a.extended = b.extended := by
  rw [Level, ← JsNumber.extended_eq_none, ← JsNumber.extended_eq_none]
  unfold JsNumber.lt
  rcases a.extended with _ | x
  · simp
  · rcases b.extended with _ | y
    · simp
    · simp only [decide_eq_false_iff_not, not_lt, reduceCtorEq, false_or, some.injEq]
      exact ⟨fun h => le_antisymm h.2 h.1, fun h => ⟨h.ge, h.le⟩⟩

theorem ne_nan_of_isFinite (h : a.isFinite = true) : a ≠ .nan := by
  rintro rfl
  exact absurd h (by decide)

/-- **A stored integer is the double it was.** -/
theorem extended_stored {x : Double} {k : ℤ} (h : storedInteger x.number = some k) :
    (doubleOf k).extended = x.number.extended := by
  obtain ⟨number, hfloat⟩ := x
  dsimp only at h ⊢
  cases number with
  | negZero =>
    rw [storedInteger, filter_some] at h
    have hk : 0 = k := by
      split_ifs at h
      exact some.inj h
    subst hk
    rw [doubleOf, Wire.jsNumber, Literal.double_ofInt (by norm_num)]
    rfl
  | finite q =>
    obtain ⟨hsame, hlt⟩ := hfloat q rfl
    by_cases hden : q.den = 1
    · rw [storedInteger, if_pos hden, filter_some] at h
      have hk : printedInteger q = k := by
        split_ifs at h
        exact some.inj h
      rw [doubleOf, Wire.jsNumber, ← hk, double_printedInteger hden hsame hlt]
      dsimp only
      split_ifs with hzero
      · rw [hzero.2]
        rfl
      · rfl
    · rw [storedInteger, if_neg hden] at h
      exact absurd h (by simp)
  | nan => exact absurd h (by simp [storedInteger])
  | posInf => exact absurd h (by simp [storedInteger])
  | negInf => exact absurd h (by simp [storedInteger])

/-! ### Order -/

variable {less greater : Bool}

theorem threeWay_eq_zero : threeWay less greater = 0 ↔ less = false ∧ greater = false := by
  cases less <;> cases greater <;> decide

theorem threeWay_neg : threeWay less greater < 0 ↔ less = true := by
  cases less <;> cases greater <;> decide

theorem threeWay_pos : 0 < threeWay less greater ↔ less = false ∧ greater = true := by
  cases less <;> cases greater <;> decide

theorem compareNumbers_pos : 0 < compareNumbers a b ↔ b.lt a = true := by
  rw [compareNumbers, threeWay_pos]
  exact ⟨fun h => h.2, fun h => ⟨JsNumber.lt_asymm h, h⟩⟩

theorem compareNumbers_congr (c : JsNumber) (h : a.extended = b.extended) :
    compareNumbers a c = compareNumbers b c := by
  rw [compareNumbers, compareNumbers, JsNumber.lt_congr h rfl, JsNumber.lt_congr rfl h]

/-- The two comparisons agree on every pair of values except two booleans, and a double that comes
back as an integer beside an integer. -/
theorem cmpValues_reread (U : Collation) (v w : AnyCodable) :
    (cmpValues U (reread v) w = compareValues U v w ∧ ¬ConfusedBelow v w ∧ ¬ConfusedAbove v w) ∨
      (∃ a b, v = .bool a ∧ w = .bool b) ∨
      ∃ x j k, v = .double x ∧ w = .int j ∧ storedInteger x.number = some k := by
  cases v with
  | double x =>
    rcases hx : storedInteger x.number with _ | k
    · refine Or.inl ?_
      cases w <;> simp [reread, hx, cmpValues, compareValues, ConfusedBelow, ConfusedAbove]
    · cases w with
      | int j => exact Or.inr (Or.inr ⟨x, j, k, rfl, rfl, hx⟩)
      | double y =>
        refine Or.inl ⟨?_, id, id⟩
        simp only [reread, hx, cmpValues, compareValues]
        exact compareNumbers_congr y.number (extended_stored hx)
      | _ => exact Or.inl ⟨by simp only [reread, hx, cmpValues, compareValues], id, id⟩
  | bool a =>
    cases w with
    | bool b => exact Or.inr (Or.inl ⟨a, b, rfl, rfl⟩)
    | _ => exact Or.inl ⟨rfl, id, id⟩
  | array items =>
    cases w <;> exact Or.inl ⟨by simp only [reread, cmpValues, compareValues], id, id⟩
  | object members =>
    cases w <;> exact Or.inl ⟨by simp only [reread, cmpValues, compareValues], id, id⟩
  | string t => cases w <;> exact Or.inl ⟨rfl, id, id⟩
  | int i => cases w <;> exact Or.inl ⟨rfl, id, id⟩
  | null => cases w <;> exact Or.inl ⟨rfl, id, id⟩

theorem below_iff (U : Collation) (v w : AnyCodable) :
    (compareValues U v w < 0 ↔ cmpValues U (reread v) w < 0) ↔ ¬ConfusedBelow v w := by
  obtain ⟨heq, hbelow, -⟩ | ⟨a, b, rfl, rfl⟩ | ⟨x, j, k, rfl, rfl, hx⟩ := cmpValues_reread U v w
  · rw [heq]
    exact iff_of_true Iff.rfl hbelow
  · rw [compareValues, threeWay_neg]
    simp [reread, cmpValues, ConfusedBelow]
  · simp only [reread, hx, cmpValues, compareValues, compareNumbers, threeWay_neg, ConfusedBelow,
      some.injEq, decide_eq_true_eq, exists_eq_left', not_not]

theorem above_iff (U : Collation) (v w : AnyCodable) :
    (0 < compareValues U v w ↔ 0 < cmpValues U (reread v) w) ↔ ¬ConfusedAbove v w := by
  obtain ⟨heq, -, habove⟩ | ⟨a, b, rfl, rfl⟩ | ⟨x, j, k, rfl, rfl, hx⟩ := cmpValues_reread U v w
  · rw [heq]
    exact iff_of_true Iff.rfl habove
  · rw [compareValues, threeWay_pos]
    cases a <;> cases b <;> simp [reread, cmpValues, ConfusedAbove]
  · have horder : 0 < threeWay (decide (k < j)) (decide (j < k)) ↔ j < k := by
      rw [threeWay_pos, decide_eq_false_iff_not, decide_eq_true_eq]
      omega
    simp only [reread, hx, cmpValues, compareValues, compareNumbers_pos, horder, ConfusedAbove,
      some.injEq, exists_eq_left', not_not]

/-! ### Equality -/

theorem equal_reread_double (U : Collation) (x : Double) (w : AnyCodable) :
    equal U (reread (.double x)) w = true ↔
      (∃ y, w = .double y ∧ storedInteger x.number = none ∧ x.number.same y.number = true) ∨
        ∃ j, w = .int j ∧ storedInteger x.number = some j := by
  rcases hx : storedInteger x.number with _ | k
  · cases w <;> simp [reread, hx, equal]
  · cases w <;> simp [reread, hx, equal]

/-- **What the SQLite store takes for equal the memory store finds too.** -/
theorem compareValues_of_equal (U : Collation) {v w : AnyCodable}
    (h : equal U (reread v) w = true) : compareValues U v w = 0 := by
  cases v with
  | double x =>
    obtain ⟨y, rfl, -, hsame⟩ | ⟨j, rfl, hx⟩ := (equal_reread_double U x w).mp h
    · rw [compareValues, compareNumbers, threeWay_eq_zero]
      exact level_iff.mpr (Or.inr (Or.inr (JsNumber.same_iff.mp hsame).2))
    · rw [compareValues, compareNumbers, threeWay_eq_zero]
      exact level_iff.mpr (Or.inr (Or.inr (extended_stored hx).symm))
  | string s =>
    cases w with
    | string t =>
      rw [compareValues, threeWay_eq_zero, U.trichotomy]
      exact of_decide_eq_true h
    | _ => rfl
  | int i =>
    cases w with
    | int j =>
      have hij : i = j := of_decide_eq_true h
      rw [compareValues, threeWay_eq_zero, hij]
      simp
    | double y => exact absurd h (by simp [reread, equal])
    | _ => rfl
  | bool a =>
    cases w with
    | bool b =>
      have hab : a = b := of_decide_eq_true h
      rw [compareValues, threeWay_eq_zero, hab]
      simp
    | _ => rfl
  | array items => cases w <;> rfl
  | object members => cases w <;> rfl
  | null => cases w <;> rfl

theorem tiedOnly_iff (U : Collation) {v w : AnyCodable} (hnull : v.isNull = false)
    (hv : encodable v = true) :
    (compareValues U v w = 0 ∧ equal U (reread v) w = false) ↔ TiedOnly U v w := by
  cases v with
  | double x =>
    have hfinite : x.number ≠ .nan := ne_nan_of_isFinite hv
    rw [← Bool.not_eq_true, equal_reread_double]
    cases w with
    | double y =>
      rw [compareValues, compareNumbers, threeWay_eq_zero, TiedOnly, ← Level, level_iff]
      refine and_congr_right fun hlevel => ⟨fun h => ?_, ?_⟩
      · by_contra hnot
        rw [not_or, not_not] at hnot
        have hsame := (hlevel.resolve_left hfinite).resolve_left hnot.1
        exact h (Or.inl ⟨y, rfl, hnot.2, JsNumber.same_iff.mpr ⟨hfinite, hsame⟩⟩)
      · rintro h (⟨y', hy, hnone, hsame⟩ | ⟨j, hj, -⟩)
        · cases hy
          rcases h with hnan | hsome
          · have hx := (JsNumber.same_iff.mp hsame).2
            rw [JsNumber.extended_eq_none.mpr hnan, JsNumber.extended_eq_none] at hx
            exact hfinite hx
          · exact hsome hnone
        · exact AnyCodable.noConfusion hj
    | int j =>
      rw [compareValues, compareNumbers, threeWay_eq_zero, TiedOnly, ← Level]
      simp
    | _ => simp [compareValues, TiedOnly]
  | string s =>
    cases w with
    | string t =>
      rw [compareValues, threeWay_eq_zero, U.trichotomy]
      simp [reread, equal, TiedOnly]
    | _ => simp [compareValues, reread, equal, TiedOnly]
  | int i =>
    cases w with
    | int j =>
      rw [compareValues, threeWay_eq_zero, decide_eq_false_iff_not, decide_eq_false_iff_not]
      simp only [reread, equal, decide_eq_false_iff_not, TiedOnly, iff_false]
      omega
    | double y =>
      rw [compareValues, compareNumbers, threeWay_eq_zero]
      simp [reread, equal, TiedOnly, Level]
    | _ => simp [compareValues, reread, equal, TiedOnly]
  | bool a =>
    cases w with
    | bool b => cases a <;> cases b <;> simp [compareValues, threeWay, reread, equal, TiedOnly]
    | _ => simp [compareValues, reread, equal, TiedOnly]
  | array items => cases w <;> simp [compareValues, reread, equal, TiedOnly]
  | object members => cases w <;> simp [compareValues, reread, equal, TiedOnly]
  | null => exact absurd hnull (by decide)

/-! ### The matchers -/

theorem lower_iff (U : Collation) (v : AnyCodable) (clause : WhereClause) :
    (LowerOk U v clause ↔ (if clause.lowerOpen then
        0 < cmpValues U (reread v) (clause.lower.getD .null)
      else 0 ≤ cmpValues U (reread v) (clause.lower.getD .null))) ↔ ¬ConfusedLower v clause := by
  rw [LowerOk, ConfusedLower]
  split_ifs
  · exact above_iff U v _
  · rw [← not_lt, ← not_lt, not_iff_not]
    exact below_iff U v _

theorem upper_iff (U : Collation) (v : AnyCodable) (clause : WhereClause) :
    (UpperOk U v clause ↔ (if clause.upperOpen then
        cmpValues U (reread v) (clause.upper.getD .null) < 0
      else cmpValues U (reread v) (clause.upper.getD .null) ≤ 0)) ↔ ¬ConfusedUpper v clause := by
  rw [UpperOk, ConfusedUpper]
  split_ifs
  · exact below_iff U v _
  · rw [← not_lt, ← not_lt, not_iff_not]
    exact above_iff U v _

theorem both_iff {a b c d p q : Prop} (hp : (a ↔ c) ↔ ¬p) (hq : (b ↔ d) ↔ ¬q) :
    (a ∧ b ↔ c ∧ d) ↔ ¬((p ∧ ¬q ∧ b) ∨ (¬p ∧ q ∧ a) ∨ (p ∧ q ∧ (a ↔ b))) := by
  tauto

variable {v : AnyCodable}

/-- A list is searched alike unless the memory store alone finds something. -/
theorem anyOf_iff (U : Collation) (hnull : v.isNull = false) (hv : encodable v = true)
    (values : List AnyCodable) :
    ((values.any fun w => decide (compareValues U v w = 0)) = true ↔
        (values.any fun w => equal U (reread v) w) = true) ↔
      ¬((∃ w ∈ values, TiedOnly U v w) ∧ ∀ w ∈ values, equal U (reread v) w = false) := by
  simp only [List.any_eq_true, decide_eq_true_eq, ← tiedOnly_iff U hnull hv]
  constructor
  · rintro h ⟨⟨w, hw, htied, -⟩, hnone⟩
    obtain ⟨w', hw', hequal⟩ := h.mp ⟨w, hw, htied⟩
    rw [hnone w' hw'] at hequal
    exact Bool.noConfusion hequal
  · intro h
    constructor
    · rintro ⟨w, hw, htied⟩
      by_contra hnot
      have hnone : ∀ w ∈ values, equal U (reread v) w = false := fun w hw =>
        Bool.eq_false_iff.mpr fun hequal => hnot ⟨w, hw, hequal⟩
      exact h ⟨⟨w, hw, htied, hnone w hw⟩, hnone⟩
    · rintro ⟨w, hw, hequal⟩
      exact ⟨w, hw, compareValues_of_equal U hequal⟩

/-- **Where the matchers agree.**  On a value that is not null and can be stored. -/
theorem matches_iff (U : Collation) (clause : WhereClause) (hnull : v.isNull = false)
    (hv : encodable v = true) :
    (matchesClause U (some v) clause = true ↔
      matchesWhereClause U (some (reread v)) clause = true) ↔ ¬Confused U v clause := by
  have hreread : (reread v).isNull = false := by
    cases v with
    | double x => rw [reread]; cases storedInteger x.number <;> rfl
    | null => exact absurd hnull (by decide)
    | _ => rfl
  obtain ⟨field, op, value, values, lower, upper, lowerOpen, upperOpen⟩ := clause
  simp only [matchesClause, matchesWhereClause, hnull, hreread, Bool.false_eq_true, if_false]
  cases op with
  | equals =>
    rw [Confused, ← tiedOnly_iff U hnull hv, decide_eq_true_eq]
    have hequal := compareValues_of_equal U (v := v) (w := value.getD .null)
    cases h : equal U (reread v) (value.getD .null) <;> simp [h] at hequal ⊢
    exact hequal
  | above =>
    simp only [decide_eq_true_eq]
    exact above_iff U v _
  | aboveOrEqual =>
    simp only [decide_eq_true_eq]
    rw [← not_lt, ← not_lt, not_iff_not]
    exact below_iff U v _
  | below =>
    simp only [decide_eq_true_eq]
    exact below_iff U v _
  | belowOrEqual =>
    simp only [decide_eq_true_eq]
    rw [← not_lt, ← not_lt, not_iff_not]
    exact above_iff U v _
  | between =>
    have hlower := lower_iff U v
      ⟨field, .between, value, values, lower, upper, lowerOpen, upperOpen⟩
    have hupper := upper_iff U v
      ⟨field, .between, value, values, lower, upper, lowerOpen, upperOpen⟩
    simp only [Confused, Bool.and_eq_true]
    have hl : ∀ lo : ℤ, (if lowerOpen then decide (0 < lo) else decide (0 ≤ lo)) = true ↔
        if lowerOpen then 0 < lo else 0 ≤ lo := fun lo => by cases lowerOpen <;> simp
    have hu : ∀ hi : ℤ, (if upperOpen then decide (hi < 0) else decide (hi ≤ 0)) = true ↔
        if upperOpen then hi < 0 else hi ≤ 0 := fun hi => by cases upperOpen <;> simp
    rw [hl, hl, hu, hu]
    exact both_iff hlower hupper
  | startsWith =>
    refine iff_of_true (Eq.congr_left ?_) id
    cases v with
    | double x => rw [reread]; cases storedInteger x.number <;> rfl
    | _ => rfl
  | anyOf => exact anyOf_iff U hnull hv _

/-! ## The two stores -/

/-- A set of rows: one for a table and an id. -/
structure RowSet where
  rows : List Row
  distinct : (rows.map Row.pair).Nodup

/-- A row under its key in the memory store. -/
def memoryEntry (U : Collation) (row : Row) : Text × Row :=
  (U.norm (MemoryLocalStore.rowKey row.table row.rowId), row)

/-- A row under its key in the SQLite store. -/
def sqliteEntry (row : Row) : (Text × Text) × Row :=
  ((IndexedSQLiteStore.bindText row.table, IndexedSQLiteStore.bindText row.rowId), row)

/-- The row is one that the memory store goes over: no later row has its key, and it is a live row
of the table. -/
def InMemory (U : Collation) (rows : List Row) (table : Text) (row : Row) : Prop :=
  Record.lastAt (memoryEntry U row).1 (rows.map (memoryEntry U)) = some row ∧
    U.norm row.table = U.norm table ∧ row.deleted = false

/-- The row is one that the SQLite store goes over: it can be encoded, no later row that can has its
key, and it is a live row of the table. -/
def InSqlite (rows : List Row) (table : Text) (row : Row) : Prop :=
  Record.lastAt (sqliteEntry row).1 ((rows.filter Row.isEncodable).map sqliteEntry) = some row ∧
    IndexedSQLiteStore.bindText row.table = IndexedSQLiteStore.bindText table ∧ row.deleted = false

theorem mem_of_lastAt {κ : Type} [DecidableEq κ] {key : Row → κ} {rows : List Row} {k : κ}
    {row : Row}
    (h : Record.lastAt k (rows.map fun r => (key r, r)) = some row) : row ∈ rows ∧ key row = k := by
  have hmem := mem_reverse.mp (mem_of_find h)
  obtain ⟨r, hr, heq⟩ := List.mem_map.mp hmem
  obtain ⟨rfl, rfl⟩ := Prod.mk.inj heq
  exact ⟨hr, rfl⟩

section Memory

variable (U : Collation) (rows : List Row) (table : Text) (clause : WhereClause)

theorem MemoryLocalStore.holding_eq :
    MemoryLocalStore.holding U rows =
      ⟨(∅ : Record Text Row).setAll (rows.map (memoryEntry U))⟩ := by
  have hfold : ∀ r : Record Text Row, rows.foldl (MemoryLocalStore.putRow U) ⟨r⟩ =
      ⟨r.setAll (rows.map (memoryEntry U))⟩ := by
    induction rows with
    | nil => exact fun r => rfl
    | cons row rows ih => exact fun r => ih _
  exact hfold ∅

theorem MemoryLocalStore.mem_queryWhere {row : Row} :
    row ∈ (MemoryLocalStore.holding U rows).queryWhere U table clause ↔
      InMemory U rows table row ∧ matchesClause U (row.column U clause.field) clause = true := by
  rw [queryWhere, mem_filter, getTable, mem_filter, holding_eq, Record.mem_values_setAll,
    Bool.and_eq_true, decide_eq_true_eq, Bool.not_eq_true', InMemory]
  have hkey : (∃ k, Record.lastAt k (rows.map (memoryEntry U)) = some row) ↔
      Record.lastAt (memoryEntry U row).1 (rows.map (memoryEntry U)) = some row := by
    refine ⟨?_, fun h => ⟨_, h⟩⟩
    rintro ⟨k, hk⟩
    rw [memoryEntry, (mem_of_lastAt hk).2]
    exact hk
  rw [hkey]

end Memory

section Sqlite

variable (U : Collation) (rows : List Row) (table : Text) (clause : WhereClause)

/-- The record of a row. -/
def recordOf (row : Row) : SqliteRecord := ⟨row.reread, row.deleted⟩

theorem IndexedSQLiteStore.holding_eq :
    IndexedSQLiteStore.holding rows = ⟨(∅ : Record (Text × Text) SqliteRecord).setAll
      (((rows.filter Row.isEncodable).map sqliteEntry).map fun e => (e.1, recordOf e.2))⟩ := by
  have hfold : ∀ r : Record (Text × Text) SqliteRecord,
      rows.foldl (fun store row => (store.putRow row).getD store) ⟨r⟩ =
        (⟨r.setAll (((rows.filter Row.isEncodable).map sqliteEntry).map
          fun e => (e.1, recordOf e.2))⟩ : IndexedSQLiteStore) := by
    induction rows with
    | nil => exact fun r => rfl
    | cons row rows ih =>
      intro r
      rw [foldl_cons, filter_cons, putRow]
      split_ifs
      · exact ih _
      · exact ih _
  exact hfold ∅

theorem lookup_map {V W : Type} (norm : Text → Text) (f : V → W) (k : Text) (l : List (Text × V)) :
    Wire.Swift.lookup norm k (l.map fun e => (e.1, f e.2)) =
      (Wire.Swift.lookup norm k l).map f := by
  induction l with
  | nil => rfl
  | cons p l ih =>
    rw [map_cons, Wire.Swift.lookup, Wire.Swift.lookup, ih]
    split_ifs <;> rfl

theorem Row.column_reread (row : Row) (field : Text) :
    row.reread.column U field = (row.column U field).map SwiftStores.reread := by
  show (Wire.Swift.lookup U.norm field
    (row.columns.map fun e => (e.1, e.2.reread))).map ColumnEntry.value = _
  rw [lookup_map, column, Option.map_map, Option.map_map]
  rfl

theorem IndexedSQLiteStore.mem_queryWhere {data : Row} :
    data ∈ (IndexedSQLiteStore.holding rows).queryWhere U table clause ↔
      ∃ row, row.reread = data ∧ InSqlite rows table row ∧
        matchesWhereClause U ((row.column U clause.field).map reread) clause = true := by
  have hget : ∀ k record, (k, record) ∈ (IndexedSQLiteStore.holding rows).rows.entries ↔
      ∃ row, recordOf row = record ∧ (sqliteEntry row).1 = k ∧
        Record.lastAt k ((rows.filter Row.isEncodable).map sqliteEntry) = some row := by
    intro k record
    rw [holding_eq, Record.mem_entries_iff, Record.get_setAll_lastAt, Record.get_empty,
      or_none, Record.lastAt, ← map_reverse, Record.find_map, map_eq_some_iff]
    refine exists_congr fun row => ⟨fun h => ⟨h.2, ?_, h.1⟩, fun h => ⟨h.2.2, h.1⟩⟩
    exact (mem_of_lastAt h.1).2
  rw [queryWhere, mem_filter, getTable, List.mem_map]
  constructor
  · rintro ⟨⟨⟨k, record⟩, hmem, rfl⟩, hmatch⟩
    rw [mem_filter, hget, Bool.and_eq_true, decide_eq_true_eq, Bool.not_eq_true'] at hmem
    obtain ⟨⟨row, rfl, rfl, hlast⟩, htable, hdeleted⟩ := hmem
    refine ⟨row, rfl, ⟨hlast, htable, hdeleted⟩, ?_⟩
    rw [← Row.column_reread]
    exact hmatch
  · rintro ⟨row, rfl, ⟨hlast, htable, hdeleted⟩, hmatch⟩
    rw [← Row.column_reread] at hmatch
    refine ⟨⟨((sqliteEntry row).1, recordOf row), ?_, rfl⟩, hmatch⟩
    rw [mem_filter, hget, Bool.and_eq_true, decide_eq_true_eq, Bool.not_eq_true']
    exact ⟨⟨row, rfl, rfl, hlast⟩, htable, hdeleted⟩

end Sqlite

/-! ## The same answers -/

/-- The two stores answer a query with the same rows. -/
def SameAnswers (U : Collation) (rows : List Row) (table : Text) (clause : WhereClause) : Prop :=
  ∀ pair, pair ∈ ((MemoryLocalStore.holding U rows).queryWhere U table clause).map Row.pair ↔
    pair ∈ ((IndexedSQLiteStore.holding rows).queryWhere U table clause).map Row.pair

/-- What keeps the answers about a row alike: where both stores go over it the matchers do not part
on its value, and where only one does its matcher does not let it pass. -/
structure Alike (U : Collation) (rows : List Row) (table : Text) (clause : WhereClause)
    (row : Row) : Prop where
  both : InMemory U rows table row → InSqlite rows table row →
    ∀ v, row.column U clause.field = some v → v.isNull = false → ¬Confused U v clause
  memoryOnly : InMemory U rows table row → ¬InSqlite rows table row →
    matchesClause U (row.column U clause.field) clause = false
  sqliteOnly : ¬InMemory U rows table row → InSqlite rows table row →
    matchesWhereClause U ((row.column U clause.field).map reread) clause = false

theorem encodable_of_inSqlite {U : Collation} {rows : List Row} {table field : Text} {row : Row}
    (h : InSqlite rows table row) (hv : row.column U field = some v) : encodable v = true := by
  have hrow : row.isEncodable = true := by
    have hmem := (mem_of_lastAt h.1).1
    exact (mem_filter.mp hmem).2
  rw [Row.column, map_eq_some_iff] at hv
  obtain ⟨entry, hentry, rfl⟩ := hv
  have hlookup : ∀ l : List (Text × ColumnEntry), Wire.Swift.lookup U.norm field l = some entry →
      ∃ k, (k, entry) ∈ l := by
    intro l
    induction l with
    | nil => exact fun h => absurd h (by simp [Wire.Swift.lookup])
    | cons p l ih =>
      intro h
      rw [Wire.Swift.lookup] at h
      split_ifs at h
      · exact ⟨p.1, by rw [← some.inj h]; exact mem_cons_self⟩
      · obtain ⟨k, hk⟩ := ih h
        exact ⟨k, mem_cons_of_mem p hk⟩
  obtain ⟨k, hk⟩ := hlookup _ hentry
  exact all_eq_true.mp hrow _ hk

theorem alike_iff (U : Collation) (rows : List Row) (table : Text) (clause : WhereClause)
    (row : Row) :
    (InMemory U rows table row ∧ matchesClause U (row.column U clause.field) clause = true ↔
        InSqlite rows table row ∧
          matchesWhereClause U ((row.column U clause.field).map reread) clause = true) ↔
      Alike U rows table clause row := by
  have hboth : InSqlite rows table row →
      ((matchesClause U (row.column U clause.field) clause = true ↔
        matchesWhereClause U ((row.column U clause.field).map reread) clause = true) ↔
      ∀ v, row.column U clause.field = some v → v.isNull = false → ¬Confused U v clause) := by
    intro hsqlite
    rcases hv : row.column U clause.field with _ | v
    · exact iff_of_true Iff.rfl fun v h => absurd h (by simp)
    · cases hnull : v.isNull with
      | true =>
        cases v with
        | null =>
          refine iff_of_true Iff.rfl ?_
          intro w hw h
          rw [← some.inj hw] at h
          exact absurd h (by decide)
        | _ => exact Bool.noConfusion hnull
      | false =>
        rw [map_some, matches_iff U clause hnull (encodable_of_inSqlite hsqlite hv)]
        constructor
        · rintro h w hw -
          rw [← some.inj hw]
          exact h
        · intro h
          exact h v rfl hnull
  constructor
  · intro h
    refine ⟨fun hmemory hsqlite => (hboth hsqlite).mp ?_, fun hmemory hnot => ?_,
      fun hnot hsqlite => ?_⟩
    · exact ⟨fun hm => (h.mp ⟨hmemory, hm⟩).2, fun hm => (h.mpr ⟨hsqlite, hm⟩).2⟩
    · exact Bool.eq_false_iff.mpr fun hm => hnot (h.mp ⟨hmemory, hm⟩).1
    · exact Bool.eq_false_iff.mpr fun hm => hnot (h.mpr ⟨hsqlite, hm⟩).1
  · intro h
    constructor
    · rintro ⟨hmemory, hm⟩
      by_cases hsqlite : InSqlite rows table row
      · exact ⟨hsqlite, ((hboth hsqlite).mpr (h.both hmemory hsqlite)).mp hm⟩
      · rw [h.memoryOnly hmemory hsqlite] at hm
        exact Bool.noConfusion hm
    · rintro ⟨hsqlite, hm⟩
      by_cases hmemory : InMemory U rows table row
      · exact ⟨hmemory, ((hboth hsqlite).mpr (h.both hmemory hsqlite)).mpr hm⟩
      · rw [h.sqliteOnly hmemory hsqlite] at hm
        exact Bool.noConfusion hm

/-- **When the two stores answer alike.**  For every set of rows and every clause: exactly if every
row is one about which they answer alike. -/
theorem sameAnswers_iff (U : Collation) (held : RowSet) (table : Text) (clause : WhereClause) :
    SameAnswers U held.rows table clause ↔
      ∀ row ∈ held.rows, Alike U held.rows table clause row := by
  have hinjective : ∀ r ∈ held.rows, ∀ s ∈ held.rows, r.pair = s.pair → r = s :=
    fun r hr s hs h => inj_on_of_nodup_map held.distinct hr hs h
  have hmemory : ∀ row ∈ held.rows, row.pair ∈
      ((MemoryLocalStore.holding U held.rows).queryWhere U table clause).map Row.pair ↔
      InMemory U held.rows table row ∧
        matchesClause U (row.column U clause.field) clause = true := by
    intro row hrow
    rw [List.mem_map]
    constructor
    · rintro ⟨other, hother, hpair⟩
      rw [MemoryLocalStore.mem_queryWhere] at hother
      rw [← hinjective other (mem_of_lastAt hother.1.1).1 row hrow hpair]
      exact hother
    · exact fun h => ⟨row, (MemoryLocalStore.mem_queryWhere ..).mpr h, rfl⟩
  have hsqlite : ∀ row ∈ held.rows, row.pair ∈
      ((IndexedSQLiteStore.holding held.rows).queryWhere U table clause).map Row.pair ↔
      InSqlite held.rows table row ∧
        matchesWhereClause U ((row.column U clause.field).map reread) clause = true := by
    intro row hrow
    rw [List.mem_map]
    constructor
    · rintro ⟨data, hdata, hpair⟩
      obtain ⟨other, rfl, hother, hm⟩ := (IndexedSQLiteStore.mem_queryWhere ..).mp hdata
      have hmem := (mem_filter.mp (mem_of_lastAt hother.1).1).1
      rw [← hinjective other hmem row hrow hpair]
      exact ⟨hother, hm⟩
    · exact fun h => ⟨row.reread, (IndexedSQLiteStore.mem_queryWhere ..).mpr ⟨row, rfl, h⟩, rfl⟩
  constructor
  · intro h row hrow
    rw [← alike_iff, ← hmemory row hrow, ← hsqlite row hrow]
    exact h row.pair
  · intro h pair
    have hrow : ∀ row ∈ held.rows, (row.pair ∈
        ((MemoryLocalStore.holding U held.rows).queryWhere U table clause).map Row.pair ↔
        row.pair ∈ ((IndexedSQLiteStore.holding held.rows).queryWhere U table clause).map
          Row.pair) := by
      intro row hrow
      rw [hmemory row hrow, hsqlite row hrow]
      exact (alike_iff ..).mpr (h row hrow)
    constructor
    · intro hp
      obtain ⟨row, hmem, rfl⟩ := List.mem_map.mp hp
      have hin := (MemoryLocalStore.mem_queryWhere ..).mp hmem
      exact (hrow row (mem_of_lastAt hin.1.1).1).mp hp
    · intro hp
      obtain ⟨data, hmem, rfl⟩ := List.mem_map.mp hp
      obtain ⟨row, rfl, hin, -⟩ := (IndexedSQLiteStore.mem_queryWhere ..).mp hmem
      have hrows := (mem_filter.mp (mem_of_lastAt hin.1).1).1
      exact (hrow row hrows).mpr hp

/-! ### Where they part -/

/-- Strings compared by code units, every one of which is a character. -/
def codeUnitCollation : Collation where
  norm := id
  less s t := decide (s < t)
  attaches _ := false
  digit _ _ _ := rfl
  hasPrefix s t := t.isPrefixOf s
  trichotomy s t := by
    rw [decide_eq_false_iff_not, decide_eq_false_iff_not, not_lt, not_lt]
    exact ⟨fun h => le_antisymm h.2 h.1, fun h => ⟨le_of_eq h.symm, le_of_eq h⟩⟩

/-- `{ "done": true }` at row `r` of table `t`. -/
def doneRow : Row := ⟨[116], [114], false, [([100, 111, 110, 101], ⟨.bool true, []⟩)]⟩

/-- `done above false`. -/
def aboveFalse : WhereClause :=
  ⟨[100, 111, 110, 101], .above, some (.bool false), none, none, none, false, false⟩

/-- The memory store finds the row that is done, and the SQLite store finds none. -/
theorem answers_apart : ¬∀ (U : Collation) (held : RowSet) (table : Text) (clause : WhereClause),
    SameAnswers U held.rows table clause := by
  intro h
  have hsame := (h codeUnitCollation ⟨[doneRow], nodup_singleton _⟩ [116] aboveFalse) ([116], [114])
  have hmemory : ([116], [114]) ∈ ((MemoryLocalStore.holding codeUnitCollation [doneRow]).queryWhere
      codeUnitCollation [116] aboveFalse).map Row.pair := mem_singleton.mpr rfl
  exact absurd (hsame.mp hmemory) not_mem_nil

end Interocitor.Native.SwiftStores
