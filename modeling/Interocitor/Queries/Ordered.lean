import Interocitor.Foundation.Comparators
import Interocitor.Queries.Stores

/-!
# `runQuery` of `sync-engine.ts`: rows in order

An ordered query fetches the rows and sorts them by one field.  The comparison answers `0` for two
values that are `===`, and otherwise "before" if the first is `<` the second and "after" if it is
not.  So two values neither of which is `<` the other come after each other both ways, and that is
no order: a row without the field beside one that has it, a `null` beside a zero, two `Date` objects
of one time --- which are not `===` --- and a `NaN` even beside itself.

`Orderly` lists these cases and one more: a `null` stands at zero among texts as among numbers,
while the texts themselves are ordered unit by unit, and the two orders need not fit together.

* `ordered_iff`: the query does what it is asked to for orderly fields, and where all the fields
  hold one value.
-/

namespace Interocitor.Queries

open CodeUnits OrderedRecord Comparators

/-! ## The query -/

/-- `readColumn`. -/
def readColumn (row : Row) (column : Text) : JsValue :=
  ((row.payload.get column).map ColumnEntry.value).getD .undefined

/-- A row as a store returns it, with the object that a field holds if it holds one. -/
structure Fetched where
  row : Row
  object : Text → ℕ

/-- The value of a field. -/
def Fetched.value (fetched : Fetched) (field : Text) : JsValue := readColumn fetched.row field

/-- A value that is an object. -/
def isObject : JsValue → Bool
  | .date _ => true
  | .array _ => true
  | .object _ => true
  | _ => false

/-- The rows that a store returns: one object has one value. -/
structure FetchedRows (field : Text) where
  rows : List Fetched
  agree : ∀ a ∈ rows, ∀ b ∈ rows, isObject (a.value field) = true →
    isObject (b.value field) = true → a.object field = b.object field →
      a.value field = b.value field

/-- `asc`, `desc`. -/
inductive Direction where
  | asc
  | desc
  deriving DecidableEq

/-- `orderBy`. -/
structure OrderBy where
  field : Text
  dir : Direction

/-- `===` of values that are no objects. -/
def samePrimitive : JsValue → JsValue → Bool
  | .undefined, .undefined => true
  | .null, .null => true
  | .bool x, .bool y => decide (x = y)
  | .number x, .number y => x.same y
  | .string x, .string y => decide (x = y)
  | _, _ => false

/-- `===` of the values of a field. -/
def strictEqual (field : Text) (a b : Fetched) : Bool :=
  samePrimitive (a.value field) (b.value field) ||
    (isObject (a.value field) && isObject (b.value field) &&
      decide (a.object field = b.object field))

/-- The comparison that `runQuery` passes to `sort`; `none` is a `TypeError` of `<`. -/
def compareRows (P : Platform) (order : OrderBy) (a b : Fetched) : Option ℤ :=
  if strictEqual order.field a b then some 0
  else
    (lessThan P (a.value order.field) (b.value order.field)).map fun less =>
      let lt : ℤ := if less then -1 else 1
      match order.dir with
      | .asc => lt
      | .desc => -lt

/-- `runQuery`, from what the store returns. -/
def runQuery (P : Platform) (S : ArraySort Fetched) (orderBy : Option OrderBy)
    (rows : List Fetched) : Option (List Fetched) :=
  match orderBy with
  | none => some rows
  | some order => S.sort (compareRows P order) rows

/-! ## What an ordered query is asked to do -/

/-- A kind of values. -/
inductive Kind where
  | number
  | string
  | bool
  | date

/-- The value is of a kind. -/
def Kind.Of : Kind → JsValue → Prop
  | number, v => ∃ n, v = .number n
  | string, v => ∃ s, v = .string s
  | bool, v => ∃ b, v = .bool b
  | date, v => ∃ t, v = .date t

/-- The field holds values of one kind, or is missing or null. -/
def OneKind (field : Text) (rows : List Fetched) : Prop :=
  ∃ kind : Kind, ∀ a ∈ rows,
    a.value field = .undefined ∨ a.value field = .null ∨ kind.Of (a.value field)

/-- The row has a value. -/
def HasValue (field : Text) (a : Fetched) : Prop :=
  a.value field ≠ .undefined ∧ a.value field ≠ .null

/-- The one is not out of place before the other. -/
def InPlace (P : Platform) (order : OrderBy) (a b : Fetched) : Prop :=
  match order.dir with
  | .asc => lessThan P (b.value order.field) (a.value order.field) = some false
  | .desc => lessThan P (a.value order.field) (b.value order.field) = some false

/-- A value as far as it shows: the two zeros are one number. -/
def plainValue : JsValue → JsValue
  | .number .negZero => .number (.finite 0)
  | v => v

/-- The values of the field, row by row. -/
def fieldValues (field : Text) (rows : List Fetched) : List JsValue :=
  rows.map fun a => plainValue (a.value field)

/-- An ordered query returns, in whatever order the store returns the rows, a permutation of them in
which the rows that have a value are in order; and the values come in one sequence. -/
def Ordered (P : Platform) (S : ArraySort Fetched) (order : OrderBy) (rows : List Fetched) : Prop :=
  ∀ arrived : List Fetched, arrived.Perm rows →
    ∃ answer, runQuery P S (some order) arrived = some answer ∧ answer.Perm rows ∧
      (answer.Pairwise fun a b =>
        HasValue order.field a → HasValue order.field b → InPlace P order a b) ∧
      ∀ arrived' : List Fetched, arrived'.Perm rows →
        ∀ answer', runQuery P S (some order) arrived' = some answer' →
          fieldValues order.field answer = fieldValues order.field answer'

/-! ## The fields that are ordered -/

/-- The number that a value counts for. -/
def numberOf : JsValue → JsNumber
  | .null => .finite 0
  | .bool b => if b then .finite 1 else .finite 0
  | .number n => n
  | .string s => stringToNumber s
  | .date time => timeNumber time
  | _ => .nan

/-- The values of a field that the comparison orders. -/
structure Orderly (field : Text) (rows : List Fetched) : Prop where
  /-- The field is missing everywhere or nowhere. -/
  missing : ∀ a ∈ rows, ∀ b ∈ rows, a.value field = .undefined → b.value field = .undefined
  /-- No number is `NaN`. -/
  number : ∀ a ∈ rows, a.value field ≠ .number .nan
  /-- Two dates are one object, or both are valid and of different times. -/
  date : ∀ a ∈ rows, ∀ b ∈ rows, ∀ s t, a.value field = .date s → b.value field = .date t →
    a.object field = b.object field ∨ (s ≠ none ∧ t ≠ none ∧ s ≠ t)
  /-- Beside a `null` every value is one, or counts for a number below or above zero. -/
  null : ∀ a ∈ rows, ∀ b ∈ rows, a.value field = .null → b.value field ≠ .null →
    (numberOf (b.value field)).lt (.finite 0) = true ∨
      (JsNumber.finite 0).lt (numberOf (b.value field)) = true
  /-- Beside a `null` the texts that count for a negative number come before those that count for a
  positive one. -/
  text : ∀ a ∈ rows, ∀ b ∈ rows, ∀ d ∈ rows, ∀ s t, a.value field = .null →
    b.value field = .string s → d.value field = .string t →
      (stringToNumber s).lt (.finite 0) = true → (JsNumber.finite 0).lt (stringToNumber t) = true →
        s < t

/-- The field holds one value in all rows, or is missing in all of them. -/
def OneValue (field : Text) (rows : List Fetched) : Prop :=
  ∀ a ∈ rows, ∀ b ∈ rows, plainValue (a.value field) = plainValue (b.value field)

/-! ## `<` and `===` on values of one kind -/

/-- A value that is no array and no object. -/
def Comparable (v : JsValue) : Prop :=
  match v with
  | .array _ => False
  | .object _ => False
  | _ => True

/-- `<` of such values. -/
def below : JsValue → JsValue → Bool
  | .string s, .string t => decide (s < t)
  | v, w => (numberOf v).lt (numberOf w)

variable {v w : JsValue}

theorem lessThan_eq (P : Platform) (hv : Comparable v) (hw : Comparable w) :
    lessThan P v w = some (below v w) := by
  cases v with
  | array items => exact hv.elim
  | object fields => exact hv.elim
  | _ =>
    cases w with
    | array items => exact hw.elim
    | object fields => exact hw.elim
    | _ => rfl

variable {rows : List Fetched}

theorem OneKind.comparable {field : Text} (h : OneKind field rows) {a : Fetched} (ha : a ∈ rows) :
    Comparable (a.value field) := by
  obtain ⟨kind, hkind⟩ := h
  obtain hv | hv | hv := hkind a ha
  · rw [hv]
    trivial
  · rw [hv]
    trivial
  · cases kind <;> obtain ⟨x, hx⟩ := hv <;> rw [hx] <;> trivial

theorem below_of_left (h : ∀ s, v ≠ .string s) (w : JsValue) :
    below v w = (numberOf v).lt (numberOf w) := by
  cases v with
  | string s => exact absurd rfl (h s)
  | _ => cases w <;> rfl

theorem below_of_right (v : JsValue) (h : ∀ s, w ≠ .string s) :
    below v w = (numberOf v).lt (numberOf w) := by
  cases w with
  | string s => exact absurd rfl (h s)
  | _ => cases v <;> rfl

theorem below_of_not (h : ¬∃ s t, v = .string s ∧ w = .string t) :
    below v w = (numberOf v).lt (numberOf w) := by
  cases v with
  | string s =>
    cases w with
    | string t => exact absurd ⟨s, t, rfl, rfl⟩ h
    | _ => rfl
  | _ => rfl

theorem below_asymm (h : below v w = true) : below w v = false := by
  by_cases hboth : ∃ s t, v = .string s ∧ w = .string t
  · obtain ⟨s, t, rfl, rfl⟩ := hboth
    exact decide_eq_false (not_lt.mpr (le_of_lt (of_decide_eq_true h)))
  · have hboth' : ¬∃ s t, w = .string s ∧ v = .string t := by
      rintro ⟨s, t, hs, ht⟩
      exact hboth ⟨t, s, ht, hs⟩
    rw [below_of_not hboth] at h
    rw [below_of_not hboth']
    exact JsNumber.lt_asymm h

theorem extended_eq_iff {m n : JsNumber} (hm : m ≠ .nan) :
    m.extended = n.extended ↔ plainValue (.number m) = plainValue (.number n) := by
  cases m <;> cases n <;> simp_all [JsNumber.extended, plainValue]
  case posInf.negZero =>
    intro h
    exact WithTop.coe_ne_top (a := (0 : ℚ)) (WithBot.coe_injective h).symm
  case negZero.posInf =>
    intro h
    exact WithTop.coe_ne_top (a := (0 : ℚ)) (WithBot.coe_injective h)
  case negZero.finite q => exact eq_comm

theorem isObject_plainValue (v : JsValue) : isObject (plainValue v) = isObject v := by
  cases v with
  | number n => cases n <;> rfl
  | _ => rfl

/-- Two values that are no objects are `===` if they show as one, and that is not `NaN`. -/
theorem samePrimitive_iff :
    samePrimitive v w = true ↔
      plainValue v = plainValue w ∧ isObject v = false ∧ v ≠ .number .nan := by
  cases v with
  | number m =>
    cases w with
    | number n =>
      rw [samePrimitive, JsNumber.same_iff]
      constructor
      · rintro ⟨hm, hext⟩
        exact ⟨(extended_eq_iff hm).mp hext, rfl, fun h => hm (JsValue.number.inj h)⟩
      · rintro ⟨hplain, -, hm⟩
        have hm' : m ≠ .nan := fun h => hm (by rw [h])
        exact ⟨hm', (extended_eq_iff hm').mpr hplain⟩
    | _ => cases m <;> simp [samePrimitive, plainValue]
  | _ =>
    cases w with
    | number n => cases n <;> simp [samePrimitive, plainValue]
    | _ => simp [samePrimitive, plainValue, isObject]

theorem numberOf_plainValue (v : JsValue) :
    (numberOf (plainValue v)).extended = (numberOf v).extended := by
  cases v with
  | number n => cases n <;> rfl
  | _ => rfl

theorem below_plainValue (v w : JsValue) : below (plainValue v) (plainValue w) = below v w := by
  have hstring : ∀ {u : JsValue} {s : Text}, plainValue u = .string s ↔ u = .string s := by
    intro u s
    cases u with
    | number n => cases n <;> simp [plainValue]
    | _ => simp [plainValue]
  by_cases hboth : ∃ s t, v = .string s ∧ w = .string t
  · obtain ⟨s, t, rfl, rfl⟩ := hboth
    rfl
  · have hboth' : ¬∃ s t, plainValue v = .string s ∧ plainValue w = .string t := by
      rintro ⟨s, t, hs, ht⟩
      exact hboth ⟨s, t, hstring.mp hs, hstring.mp ht⟩
    rw [below_of_not hboth, below_of_not hboth']
    exact JsNumber.lt_congr (numberOf_plainValue v) (numberOf_plainValue w)

theorem below_same (h : plainValue v = plainValue w) : below v w = false := by
  rw [← below_plainValue, h]
  cases hbelow : below (plainValue w) (plainValue w) with
  | false => rfl
  | true => exact hbelow.symm.trans (below_asymm hbelow)

section Rows

variable {field : Text} {a b : Fetched}

theorem strictEqual_iff :
    strictEqual field a b = true ↔
      (plainValue (a.value field) = plainValue (b.value field) ∧
          isObject (a.value field) = false ∧ a.value field ≠ .number .nan) ∨
        (isObject (a.value field) = true ∧ isObject (b.value field) = true ∧
          a.object field = b.object field) := by
  rw [strictEqual, Bool.or_eq_true, samePrimitive_iff, Bool.and_eq_true, Bool.and_eq_true,
    decide_eq_true_eq, and_assoc]

theorem plainValue_of_strictEqual (held : FetchedRows field) (ha : a ∈ held.rows)
    (hb : b ∈ held.rows) (h : strictEqual field a b = true) :
    plainValue (a.value field) = plainValue (b.value field) := by
  obtain ⟨hplain, -, -⟩ | ⟨hobject, hobject', hid⟩ := strictEqual_iff.mp h
  · exact hplain
  · rw [held.agree a ha b hb hobject hobject' hid]

theorem strictEqual_symm (h : strictEqual field a b = true) : strictEqual field b a = true := by
  rw [strictEqual_iff] at h ⊢
  obtain ⟨hplain, hobject, hnan⟩ | ⟨hobject, hobject', hid⟩ := h
  · refine Or.inl ⟨hplain.symm, ?_, fun hb => hnan ?_⟩
    · rw [← isObject_plainValue, ← hplain, isObject_plainValue, hobject]
    · rw [hb] at hplain
      cases hv : a.value field with
      | number n => rw [hv] at hplain; cases n <;> simp [plainValue] at hplain ⊢
      | _ => rw [hv] at hplain; simp [plainValue] at hplain
  · exact Or.inr ⟨hobject', hobject, hid.symm⟩

theorem strictEqual_trans {d : Fetched} (hab : strictEqual field a b = true)
    (hbd : strictEqual field b d = true) : strictEqual field a d = true := by
  rw [strictEqual_iff] at hab hbd ⊢
  obtain ⟨hplain, hobject, hnan⟩ | ⟨hobject, hobject', hid⟩ := hab
  · obtain ⟨hplain', -, -⟩ | ⟨hobject', -, -⟩ := hbd
    · exact Or.inl ⟨hplain.trans hplain', hobject, hnan⟩
    · rw [← isObject_plainValue, ← hplain, isObject_plainValue, hobject] at hobject'
      exact Bool.noConfusion hobject'
  · obtain ⟨-, hobject'', -⟩ | ⟨-, hobject'', hid'⟩ := hbd
    · rw [hobject'] at hobject''
      exact Bool.noConfusion hobject''
    · exact Or.inr ⟨hobject, hobject'', hid.trans hid'⟩

end Rows

/-! ## The comparison -/

/-- The comparison in ascending order, where nothing throws. -/
def ascending (field : Text) (a b : Fetched) : ℤ :=
  if strictEqual field a b then 0 else if below (a.value field) (b.value field) then -1 else 1

/-- The comparison in the order asked for. -/
def compared (order : OrderBy) (a b : Fetched) : ℤ :=
  match order.dir with
  | .asc => ascending order.field a b
  | .desc => -ascending order.field a b

theorem compares (P : Platform) {order : OrderBy} (h : OneKind order.field rows) :
    Compares (compareRows P order) (compared order) rows := by
  intro a ha b hb
  rw [compareRows, lessThan_eq P (h.comparable ha) (h.comparable hb), compared, ascending]
  cases order.dir with
  | asc =>
    split_ifs <;> simp_all
  | desc => split_ifs <;> simp_all

theorem consistent_compared {order : OrderBy} :
    Consistent (compared order) rows ↔ Consistent (ascending order.field) rows := by
  obtain ⟨field, dir⟩ := order
  cases dir with
  | asc => exact Iff.rfl
  | desc => exact consistent_neg_iff

section Ascending

variable {field : Text} {a b : Fetched}

theorem ascending_eq_zero : ascending field a b = 0 ↔ strictEqual field a b = true := by
  rw [ascending]
  split_ifs with hsame <;> simp [hsame]

theorem ascending_neg :
    ascending field a b < 0 ↔
      strictEqual field a b = false ∧ below (a.value field) (b.value field) = true := by
  rw [ascending]
  split_ifs with hsame hbelow <;> simp_all

theorem ascending_pos :
    0 < ascending field a b ↔
      strictEqual field a b = false ∧ below (a.value field) (b.value field) = false := by
  rw [ascending]
  split_ifs with hsame hbelow <;> simp_all

end Ascending

section Consistency

variable {field : Text} {rows : List Fetched} {a b : Fetched}

/-- A consistent comparison tells any two values apart that are not `===`. -/
theorem told_apart (h : Consistent (ascending field) rows) (ha : a ∈ rows) (hb : b ∈ rows) :
    strictEqual field a b = true ∨ below (a.value field) (b.value field) = true ∨
      below (b.value field) (a.value field) = true := by
  rcases hsame : strictEqual field a b with _ | _
  · rcases hbelow : below (a.value field) (b.value field) with _ | _
    · have hneg := (h.neg_iff hb ha).mpr (ascending_pos.mpr ⟨hsame, hbelow⟩)
      exact Or.inr (Or.inr (ascending_neg.mp hneg).2)
    · exact Or.inr (Or.inl rfl)
  · exact Or.inl rfl

theorem below_undefined_left (v : JsValue) : below .undefined v = false :=
  below_of_left (fun _ h => JsValue.noConfusion h) v

theorem below_undefined_right (v : JsValue) : below v .undefined = false := by
  have hnan : numberOf .undefined = .nan := rfl
  rw [below_of_right v fun _ h => JsValue.noConfusion h, hnan, JsNumber.lt]
  cases (numberOf v).extended <;> rfl

theorem samePrimitive_undefined (h : samePrimitive .undefined v = true) : v = .undefined := by
  cases v with
  | undefined => rfl
  | _ => exact Bool.noConfusion h

theorem samePrimitive_null (h : samePrimitive .null v = true) : v = .null := by
  cases v with
  | null => rfl
  | _ => exact Bool.noConfusion h

theorem orderly_of_consistent (h : Consistent (ascending field) rows) :
    Orderly field rows where
  missing a ha b hb hmissing := by
    obtain hsame | hbelow | hbelow := told_apart h ha hb
    · rw [strictEqual, hmissing, Bool.or_eq_true] at hsame
      exact samePrimitive_undefined (hsame.resolve_right (by simp [isObject]))
    · rw [hmissing, below_undefined_left] at hbelow
      exact Bool.noConfusion hbelow
    · rw [hmissing, below_undefined_right] at hbelow
      exact Bool.noConfusion hbelow
  number a ha hnan := by
    have hsame := ascending_eq_zero.mp (h.refl a ha)
    rw [strictEqual, hnan] at hsame
    exact Bool.noConfusion hsame
  date a ha b hb s t hs ht := by
    have hlt : ∀ {s t : Option ℤ}, below (.date s) (.date t) = true →
        s ≠ none ∧ t ≠ none ∧ s ≠ t := by
      intro s t hbelow
      refine ⟨?_, ?_, ?_⟩
      · rintro rfl
        exact Bool.noConfusion hbelow
      · rintro rfl
        cases s <;> exact Bool.noConfusion hbelow
      · rintro rfl
        rw [below_same rfl] at hbelow
        exact Bool.noConfusion hbelow
    obtain hsame | hbelow | hbelow := told_apart h ha hb
    · rw [strictEqual_iff, hs, ht] at hsame
      obtain ⟨-, hobject, -⟩ | ⟨-, -, hid⟩ := hsame
      · exact Bool.noConfusion hobject
      · exact Or.inl hid
    · rw [hs, ht] at hbelow
      exact Or.inr (hlt hbelow)
    · rw [hs, ht] at hbelow
      obtain ⟨ht', hs', hne⟩ := hlt hbelow
      exact Or.inr ⟨hs', ht', hne.symm⟩
  null a ha b hb hnull hother := by
    obtain hsame | hbelow | hbelow := told_apart h ha hb
    · rw [strictEqual, hnull, Bool.or_eq_true] at hsame
      exact absurd (samePrimitive_null (hsame.resolve_right (by simp [isObject]))) hother
    · rw [hnull, below_of_left fun _ h => JsValue.noConfusion h] at hbelow
      exact Or.inr hbelow
    · rw [hnull, below_of_right _ fun _ h => JsValue.noConfusion h] at hbelow
      exact Or.inl hbelow
  text a ha b hb d hd s t hnull hs ht hneg hpos := by
    have hba : ascending field b a < 0 := by
      rw [ascending_neg, strictEqual, hs, hnull]
      exact ⟨rfl, hneg⟩
    have had : ascending field a d < 0 := by
      rw [ascending_neg, strictEqual, ht, hnull]
      exact ⟨rfl, hpos⟩
    have hbd := (ascending_neg.mp (h.less b hb a ha d hd hba had)).2
    rw [hs, ht] at hbd
    exact of_decide_eq_true hbd

theorem null_or_text (hkind : OneKind field rows) (h : Orderly field rows) (ha : a ∈ rows)
    (hb : b ∈ rows) {s : Text} (hs : a.value field = .string s) :
    b.value field = .null ∨ ∃ t, b.value field = .string t := by
  obtain ⟨kind, hkind⟩ := hkind
  obtain hv | hv | hv := hkind b hb
  · exact absurd (h.missing b hb a ha hv) (by rw [hs]; exact fun h => JsValue.noConfusion h)
  · exact Or.inl hv
  · obtain hv' | hv' | hv' := hkind a ha
    · rw [hs] at hv'
      exact JsValue.noConfusion hv'
    · rw [hs] at hv'
      exact JsValue.noConfusion hv'
    · cases kind with
      | string => exact Or.inr hv
      | _ =>
        obtain ⟨x, hx⟩ := hv'
        rw [hs] at hx
        exact JsValue.noConfusion hx

/-- Where `<` orders each two values of a field, it orders them all. -/
theorem below_trans (hkind : OneKind field rows) (h : Orderly field rows) {d : Fetched}
    (ha : a ∈ rows) (hb : b ∈ rows) (hd : d ∈ rows)
    (hab : below (a.value field) (b.value field) = true)
    (hbd : below (b.value field) (d.value field) = true) :
    below (a.value field) (d.value field) = true := by
  by_cases htext : ∃ x ∈ rows, ∃ s, x.value field = .string s
  · obtain ⟨x, hx, s, hs⟩ := htext
    have hnonzero : ∀ {u v : Fetched}, u ∈ rows → v ∈ rows → ∀ {r : Text},
        u.value field = .null → v.value field = .string r →
          (stringToNumber r).lt (.finite 0) = true ∨
            (JsNumber.finite 0).lt (stringToNumber r) = true := by
      intro u v hu hv r hnull hr
      have hside := h.null u hu v hv hnull (by rw [hr]; exact fun h => JsValue.noConfusion h)
      rw [hr] at hside
      exact hside
    obtain ha' | ⟨r, ha'⟩ := null_or_text hkind h hx ha hs
    · obtain hb' | ⟨s, hb'⟩ := null_or_text hkind h hx hb hs
      · rw [ha', hb'] at hab
        exact absurd hab (by rw [below_same rfl]; exact Bool.noConfusion)
      · obtain hd' | ⟨t, hd'⟩ := null_or_text hkind h hx hd hs
        · -- the text is above zero and below it
          rw [ha', hb'] at hab
          rw [hb', hd'] at hbd
          exact absurd hbd (by rw [below_asymm hab]; exact Bool.noConfusion)
        · rw [ha', hb'] at hab
          rw [hb', hd'] at hbd
          rw [ha', hd']
          rcases hnonzero ha hd ha' hd' with hneg | hpos
          · have htext := h.text a ha d hd b hb t s ha' hd' hb' hneg hab
            exact absurd (of_decide_eq_true hbd) (not_lt.mpr (le_of_lt htext))
          · exact hpos
    · obtain hb' | ⟨s, hb'⟩ := null_or_text hkind h hx hb hs
      · obtain hd' | ⟨t, hd'⟩ := null_or_text hkind h hx hd hs
        · rw [hb', hd'] at hbd
          exact absurd hbd (by rw [below_same rfl]; exact Bool.noConfusion)
        · rw [ha', hb'] at hab
          rw [hb', hd'] at hbd
          rw [ha', hd']
          exact decide_eq_true (h.text b hb a ha d hd r t hb' ha' hd' hab hbd)
      · obtain hd' | ⟨t, hd'⟩ := null_or_text hkind h hx hd hs
        · rw [ha', hb'] at hab
          rw [hb', hd'] at hbd
          rw [ha', hd']
          rcases hnonzero hd ha hd' ha' with hneg | hpos
          · exact hneg
          · have htext := h.text d hd b hb a ha s r hd' hb' ha' hbd hpos
            exact absurd (of_decide_eq_true hab) (not_lt.mpr (le_of_lt htext))
        · rw [ha', hb'] at hab
          rw [hb', hd'] at hbd
          rw [ha', hd']
          exact decide_eq_true ((of_decide_eq_true hab).trans (of_decide_eq_true hbd))
  · have hnone : ∀ {x : Fetched}, x ∈ rows → ∀ s, x.value field ≠ .string s :=
      fun hx s hs => htext ⟨_, hx, s, hs⟩
    rw [below_of_left (hnone ha)] at hab ⊢
    rw [below_of_left (hnone hb)] at hbd
    exact JsNumber.lt_trans hab hbd

theorem lt_or_gt {m n : JsNumber} (hm : m ≠ .nan) (hn : n ≠ .nan) (hne : m.extended ≠ n.extended) :
    m.lt n = true ∨ n.lt m = true := by
  rw [Ne, ← JsNumber.extended_eq_none] at hm hn
  rw [JsNumber.lt, JsNumber.lt]
  cases hx : m.extended with
  | none => exact absurd hx hm
  | some x =>
    cases hy : n.extended with
    | none => exact absurd hy hn
    | some y =>
      rw [hx, hy] at hne
      rcases lt_or_gt_of_ne (fun h => hne (congrArg some h)) with hlt | hlt
      · exact Or.inl (decide_eq_true hlt)
      · exact Or.inr (decide_eq_true hlt)

theorem below_null (h : Orderly field rows) (ha : a ∈ rows) (hb : b ∈ rows)
    (hnull : a.value field = .null) (hne : b.value field ≠ .null) :
    below (a.value field) (b.value field) = true ∨
      below (b.value field) (a.value field) = true := by
  rw [hnull, below_of_left fun _ h => JsValue.noConfusion h,
    below_of_right _ fun _ h => JsValue.noConfusion h]
  exact (h.null a ha b hb hnull hne).symm

/-- In an orderly field any two values that are not `===` are told apart. -/
theorem below_total (hkind : OneKind field rows) (h : Orderly field rows) (ha : a ∈ rows)
    (hb : b ∈ rows) (hne : strictEqual field a b = false) :
    below (a.value field) (b.value field) = true ∨
      below (b.value field) (a.value field) = true := by
  have hsame : samePrimitive (a.value field) (b.value field) = false :=
    (Bool.or_eq_false_iff.mp hne).1
  obtain ⟨kind, hkind⟩ := hkind
  obtain hv | hv | hv := hkind a ha
  · rw [hv, h.missing a ha b hb hv] at hsame
    exact Bool.noConfusion hsame
  · by_cases hw : b.value field = .null
    · rw [hv, hw] at hsame
      exact Bool.noConfusion hsame
    · exact below_null h ha hb hv hw
  · obtain hw | hw | hw := hkind b hb
    · rw [hw, h.missing b hb a ha hw] at hsame
      exact Bool.noConfusion hsame
    · by_cases hv' : a.value field = .null
      · rw [hv', hw] at hsame
        exact Bool.noConfusion hsame
      · exact (below_null h hb ha hw hv').symm
    · cases kind with
      | number =>
        obtain ⟨m, hm⟩ := hv
        obtain ⟨n, hn⟩ := hw
        have hm' : m ≠ .nan := fun hnan => h.number a ha (by rw [hm, hnan])
        have hn' : n ≠ .nan := fun hnan => h.number b hb (by rw [hn, hnan])
        rw [hm, hn] at hsame ⊢
        refine lt_or_gt hm' hn' fun hext => ?_
        rw [samePrimitive, Bool.eq_false_iff] at hsame
        exact hsame (JsNumber.same_iff.mpr ⟨hm', hext⟩)
      | string =>
        obtain ⟨s, hs⟩ := hv
        obtain ⟨t, ht⟩ := hw
        rw [hs, ht] at hsame ⊢
        rcases lt_or_gt_of_ne (of_decide_eq_false hsame) with hlt | hlt
        · exact Or.inl (decide_eq_true hlt)
        · exact Or.inr (decide_eq_true hlt)
      | bool =>
        obtain ⟨x, hx⟩ := hv
        obtain ⟨y, hy⟩ := hw
        rw [hx, hy] at hsame ⊢
        cases x <;> cases y
        · exact Bool.noConfusion hsame
        · exact Or.inl rfl
        · exact Or.inr rfl
        · exact Bool.noConfusion hsame
      | date =>
        obtain ⟨s, hs⟩ := hv
        obtain ⟨t, ht⟩ := hw
        obtain hid | ⟨hs', ht', hst⟩ := h.date a ha b hb s t hs ht
        · rw [strictEqual, hs, ht, decide_eq_true hid] at hne
          exact Bool.noConfusion hne
        · obtain ⟨x, rfl⟩ := Option.ne_none_iff_exists'.mp hs'
          obtain ⟨y, rfl⟩ := Option.ne_none_iff_exists'.mp ht'
          rw [hs, ht]
          refine lt_or_gt (m := .finite x) (n := .finite y) (by simp) (by simp) ?_
          simpa [JsNumber.extended] using fun hxy => hst (by rw [hxy])

/-- **The fields that the comparison orders.** -/
theorem consistent_iff (held : FetchedRows field) (hkind : OneKind field held.rows) :
    Consistent (ascending field) held.rows ↔ Orderly field held.rows := by
  refine ⟨orderly_of_consistent, fun h => ?_⟩
  have happart : ∀ {a b : Fetched}, a ∈ held.rows → b ∈ held.rows →
      below (a.value field) (b.value field) = true → strictEqual field a b = false := by
    intro a b ha hb hbelow
    rw [Bool.eq_false_iff]
    intro hsame
    rw [below_same (plainValue_of_strictEqual held ha hb hsame)] at hbelow
    exact Bool.noConfusion hbelow
  have hgreater : ∀ {a b : Fetched}, a ∈ held.rows → b ∈ held.rows →
      (0 < ascending field a b ↔ below (b.value field) (a.value field) = true) := by
    intro a b ha hb
    rw [ascending_pos]
    constructor
    · rintro ⟨hne, hnot⟩
      refine (below_total hkind h ha hb hne).resolve_left ?_
      rw [hnot]
      exact Bool.noConfusion
    · intro hbelow
      refine ⟨Bool.eq_false_iff.mpr fun hsame => ?_, below_asymm hbelow⟩
      have hother := happart hb ha hbelow
      rw [strictEqual_symm hsame] at hother
      exact Bool.noConfusion hother
  constructor
  · intro a ha
    rw [ascending_eq_zero, strictEqual_iff]
    cases hobject : isObject (a.value field) with
    | false => exact Or.inl ⟨rfl, rfl, h.number a ha⟩
    | true => exact Or.inr ⟨rfl, rfl, rfl⟩
  · intro a _ b _ hab
    exact ascending_eq_zero.mpr (strictEqual_symm (ascending_eq_zero.mp hab))
  · intro a _ b _ d _ hab hbd
    exact ascending_eq_zero.mpr
      (strictEqual_trans (ascending_eq_zero.mp hab) (ascending_eq_zero.mp hbd))
  · intro a ha b hb d hd hab hbd
    have htrans := below_trans hkind h ha hb hd (ascending_neg.mp hab).2 (ascending_neg.mp hbd).2
    exact ascending_neg.mpr ⟨happart ha hd htrans, htrans⟩
  · intro a ha b hb d hd hab hbd
    exact (hgreater ha hd).mpr
      (below_trans hkind h hd hb ha ((hgreater hb hd).mp hbd) ((hgreater ha hb).mp hab))

end Consistency

/-! ## What the query does -/

section Query

variable {P : Platform} {order : OrderBy}

theorem inPlace_iff (hkind : OneKind order.field rows) {a b : Fetched} (ha : a ∈ rows)
    (hb : b ∈ rows) :
    InPlace P order a b ↔
      match order.dir with
      | .asc => below (b.value order.field) (a.value order.field) = false
      | .desc => below (a.value order.field) (b.value order.field) = false := by
  rw [InPlace]
  cases order.dir with
  | asc =>
    dsimp only
    rw [lessThan_eq P (hkind.comparable hb) (hkind.comparable ha), Option.some.injEq]
  | desc =>
    dsimp only
    rw [lessThan_eq P (hkind.comparable ha) (hkind.comparable hb), Option.some.injEq]

theorem ordered_of_orderly {S : ArraySort Fetched} (held : FetchedRows order.field)
    (hkind : OneKind order.field held.rows) (h : Orderly order.field held.rows) :
    Ordered P S order held.rows := by
  have hconsistent : Consistent (compared order) held.rows :=
    consistent_compared.mpr ((consistent_iff held hkind).mpr h)
  have hsame : ∀ a ∈ held.rows, ∀ b ∈ held.rows, compared order a b = 0 ↔
      plainValue (a.value order.field) = plainValue (b.value order.field) := by
    intro a ha b hb
    have hzero : compared order a b = 0 ↔ strictEqual order.field a b = true := by
      rw [← ascending_eq_zero, compared]
      cases order.dir with
      | asc => exact Iff.rfl
      | desc => exact Int.neg_eq_zero
    rw [hzero]
    refine ⟨plainValue_of_strictEqual held ha hb, fun hplain => ?_⟩
    by_contra hne
    obtain hbelow | hbelow := below_total hkind h ha hb (Bool.eq_false_iff.mpr hne)
    · rw [below_same hplain] at hbelow
      exact Bool.noConfusion hbelow
    · rw [below_same hplain.symm] at hbelow
      exact Bool.noConfusion hbelow
  have hrun : ∀ {arrived : List Fetched}, arrived.Perm held.rows →
      ∃ answer, runQuery P S (some order) arrived = some answer ∧ answer.Perm held.rows ∧
        answer.Pairwise fun a b => compared order a b ≤ 0 := by
    intro arrived hperm
    have hcompares : Compares (compareRows P order) (compared order) arrived := fun a ha b hb =>
      compares P hkind a (hperm.mem_iff.mp ha) b (hperm.mem_iff.mp hb)
    obtain ⟨answer, hanswer, hperm'⟩ := S.returns hcompares
    exact ⟨answer, hanswer, hperm'.trans hperm,
      S.sorted hcompares (hconsistent.mono fun a ha => hperm.mem_iff.mp ha) hanswer⟩
  intro arrived hperm
  obtain ⟨answer, hanswer, hperm', hsorted⟩ := hrun hperm
  refine ⟨answer, hanswer, hperm', ?_, ?_⟩
  · refine hsorted.imp_of_mem ?_
    intro a b ha hb hle _ _
    have ha' := hperm'.mem_iff.mp ha
    have hb' := hperm'.mem_iff.mp hb
    rw [inPlace_iff hkind ha' hb']
    rcases lt_or_eq_of_le hle with hlt | heq
    · rw [compared] at hlt
      cases hdir : order.dir with
      | asc =>
        rw [hdir] at hlt
        exact below_asymm (ascending_neg.mp hlt).2
      | desc =>
        rw [hdir] at hlt
        exact (ascending_pos.mp (Int.neg_neg_iff_pos.mp hlt)).2
    · have hplain := (hsame a ha' b hb').mp heq
      cases order.dir with
      | asc => exact below_same hplain.symm
      | desc => exact below_same hplain
  · intro arrived' harrived' answer' hanswer'
    obtain ⟨other, hother, hperm'', hsorted'⟩ := hrun harrived'
    rw [hother] at hanswer'
    rw [← Option.some.inj hanswer']
    exact sorted_unique (f := fun a => plainValue (a.value order.field)) hconsistent hsame hperm'
      hperm'' hsorted hsorted'

theorem ordered_of_oneValue {S : ArraySort Fetched} (held : FetchedRows order.field)
    (hkind : OneKind order.field held.rows) (h : OneValue order.field held.rows) :
    Ordered P S order held.rows := by
  have hrun : ∀ {arrived : List Fetched}, arrived.Perm held.rows →
      ∃ answer, runQuery P S (some order) arrived = some answer ∧ answer.Perm held.rows := by
    intro arrived hperm
    have hcompares : Compares (compareRows P order) (compared order) arrived := fun a ha b hb =>
      compares P hkind a (hperm.mem_iff.mp ha) b (hperm.mem_iff.mp hb)
    obtain ⟨answer, hanswer, hperm'⟩ := S.returns hcompares
    exact ⟨answer, hanswer, hperm'.trans hperm⟩
  intro arrived hperm
  obtain ⟨answer, hanswer, hperm'⟩ := hrun hperm
  refine ⟨answer, hanswer, hperm', ?_, ?_⟩
  · refine List.Pairwise.imp_of_mem ?_ (List.pairwise_of_forall fun _ _ => trivial)
    intro a b ha hb _ _ _
    have ha' := hperm'.mem_iff.mp ha
    have hb' := hperm'.mem_iff.mp hb
    rw [inPlace_iff hkind ha' hb']
    cases order.dir with
    | asc => exact below_same (h b hb' a ha')
    | desc => exact below_same (h a ha' b hb')
  · intro arrived' harrived' answer' hanswer'
    obtain ⟨other, hother, hperm''⟩ := hrun harrived'
    rw [hother] at hanswer'
    rw [← Option.some.inj hanswer']
    have hall : ∀ l : List JsValue, l.Pairwise fun _ _ => True := fun l =>
      List.pairwise_of_forall fun _ _ => trivial
    refine List.Perm.eq_of_pairwise ?_ (hall _) (hall _) ((hperm'.trans hperm''.symm).map _)
    intro v w hv hw _ _
    obtain ⟨a, ha, rfl⟩ := List.mem_map.mp hv
    obtain ⟨b, hb, rfl⟩ := List.mem_map.mp hw
    exact h a (hperm'.mem_iff.mp ha) b (hperm''.mem_iff.mp hb)

/-- **When an ordered query orders.**  Whatever correct sort the platform has: exactly if the
comparison orders the values of the field, or they all show as one. -/
theorem ordered_iff (P : Platform) (order : OrderBy) (held : FetchedRows order.field)
    (hkind : OneKind order.field held.rows) :
    (∀ S : ArraySort Fetched, Ordered P S order held.rows) ↔
      Orderly order.field held.rows ∨ OneValue order.field held.rows := by
  constructor
  · intro h
    by_cases horderly : Orderly order.field held.rows
    · exact Or.inl horderly
    · refine Or.inr ?_
      have hnot : ¬Consistent (compared order) held.rows := fun hc =>
        horderly ((consistent_iff held hkind).mp (consistent_compared.mp hc))
      -- the idle sort returns the rows as they arrive
      have hidle : ∀ {arrived : List Fetched}, arrived.Perm held.rows →
          runQuery P (idleSort Fetched) (some order) arrived = some arrived := by
        intro arrived hperm
        refine idleSort_of_not (c := compared order) (fun a ha b hb =>
          compares P hkind a (hperm.mem_iff.mp ha) b (hperm.mem_iff.mp hb)) fun hc => ?_
        exact hnot (hc.mono fun a ha => hperm.mem_iff.mpr ha)
      have hfront : ∀ {a : Fetched}, a ∈ held.rows → ∃ rest, (a :: rest).Perm held.rows := by
        intro a ha
        obtain ⟨s, t, hst⟩ := List.append_of_mem ha
        rw [hst]
        exact ⟨s ++ t, List.perm_middle.symm⟩
      intro a ha b hb
      obtain ⟨rest, hrest⟩ := hfront ha
      obtain ⟨rest', hrest'⟩ := hfront hb
      obtain ⟨answer, hanswer, -, -, hsame⟩ := h (idleSort Fetched) _ hrest
      rw [hidle hrest] at hanswer
      have hvalues := hsame _ hrest' _ (hidle hrest')
      rw [← Option.some.inj hanswer] at hvalues
      exact (List.cons.inj hvalues).1
  · rintro (h | h) S
    · exact ordered_of_orderly held hkind h
    · exact ordered_of_oneValue held hkind h

end Query

/-! ### Rows with a text, or without -/

/-- A row of table `t` with a field `n`, or without it. -/
def namedRow (rowId : Text) (name : Option Text) : Fetched :=
  ⟨⟨⟨[116], rowId, false, none, 1, none⟩,
    (name.map fun s => (∅ : Record Text ColumnEntry).set [110] ⟨.string s, []⟩).getD ∅⟩, fun _ => 0⟩

theorem value_namedRow (rowId : Text) (name : Option Text) :
    (namedRow rowId name).value [110] = (name.map JsValue.string).getD .undefined := by
  cases name <;> rfl

/-- Rows with names. -/
def namedRows (names : List (Text × Option Text)) : FetchedRows [110] where
  rows := names.map fun n => namedRow n.1 n.2
  agree a ha _ _ hobject := by
    obtain ⟨n, -, rfl⟩ := List.mem_map.mp ha
    rw [value_namedRow] at hobject
    rcases hn : n.2 with _ | s <;> rw [hn] at hobject <;> exact Bool.noConfusion hobject

theorem oneKind_namedRows (names : List (Text × Option Text)) :
    OneKind [110] (namedRows names).rows := by
  refine ⟨.string, fun a ha => ?_⟩
  obtain ⟨n, -, rfl⟩ := List.mem_map.mp ha
  rw [value_namedRow]
  rcases n.2 with _ | s
  · exact Or.inl rfl
  · exact Or.inr (Or.inr ⟨s, rfl⟩)

/-- By the field `n`, ascending. -/
def byName : OrderBy := ⟨[110], .asc⟩

/-- A platform, for comparisons that write neither numbers nor dates. -/
def wordless : Platform := ⟨fun _ => [], fun _ => []⟩

/-- Two names. -/
theorem ordered_iff_two :
    (∀ S : ArraySort Fetched,
        Ordered wordless S byName (namedRows [([49], some [98]), ([50], some [97])]).rows) ↔
      Orderly [110] (namedRows [([49], some [98]), ([50], some [97])]).rows ∨
        OneValue [110] (namedRows [([49], some [98]), ([50], some [97])]).rows :=
  ordered_iff wordless byName (namedRows [([49], some [98]), ([50], some [97])])
    (oneKind_namedRows _)

/-- A name, a row without one, and a name before the first: which comes first depends on the order
in which the rows arrive. -/
theorem not_ordered : ¬∀ (P : Platform) (S : ArraySort Fetched) (order : OrderBy)
    (held : FetchedRows order.field),
      OneKind order.field held.rows → Ordered P S order held.rows := by
  intro h
  have hordered := h wordless (insertionSort Fetched) byName
    (namedRows [([49], some [98]), ([50], none), ([51], some [97])]) (oneKind_namedRows _)
  have hswap : [namedRow [51] (some [97]), namedRow [50] none, namedRow [49] (some [98])].Perm
      (namedRows [([49], some [98]), ([50], none), ([51], some [97])]).rows :=
    List.reverse_perm [namedRow [49] (some [98]), namedRow [50] none, namedRow [51] (some [97])]
  obtain ⟨answer, hanswer, -, -, hsame⟩ := hordered _ (List.Perm.refl _)
  have hrun : runQuery wordless (insertionSort Fetched) (some byName)
      (namedRows [([49], some [98]), ([50], none), ([51], some [97])]).rows =
      some [namedRow [51] (some [97]), namedRow [50] none, namedRow [49] (some [98])] := rfl
  have hrun' : runQuery wordless (insertionSort Fetched) (some byName)
      [namedRow [51] (some [97]), namedRow [50] none, namedRow [49] (some [98])] =
      some [namedRow [51] (some [97]), namedRow [49] (some [98]), namedRow [50] none] := rfl
  have hvalues := hsame _ hswap _ hrun'
  rw [hrun] at hanswer
  rw [← Option.some.inj hanswer] at hvalues
  exact absurd hvalues (by simp [fieldValues, value_namedRow, byName, plainValue])

end Interocitor.Queries
