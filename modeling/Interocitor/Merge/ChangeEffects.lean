import Interocitor.Foundation.JsonReader
import Interocitor.Merge.CustomMerge

/-!
# Effects as a diff

An observer of changes is not told what an entry wrote but what came of it.  The rows that the ops
of an entry address are cloned before the entry is applied, each of them once, and afterwards every
clone is compared with the row that is there now.  The effects are a correct diff (`CorrectDiff`) if
a row has one effect at most, if the fields of the effect turn the payload before into the payload
after, and if the rows that were addressed and have no effect are those that were there before and
are as they were.

As they were: with the same columns, stamps and data.  `valuesEqual` asks a little more than that.
It compares numbers by `Object.is` and dates by `===` on their times, so that `NaN` is `NaN` but an
invalid date is no date, not even its own clone (`columnValuesEqual_iff`).  A row that holds an
invalid date and that an entry addresses without changing it --- a late upsert, a late delete ---
is reported as updated.

* `effects_correct_iff`: the diff is correct if and only if no row that was addressed and left as it
  was holds an invalid date.
-/

namespace Interocitor

open CodeUnits OrderedRecord JsonText List Option

namespace ChangeEffects

open PlainKeys (RowChangeEffect ColumnChangeEffect sameEntry effectFieldsMap payloadNames
  rowChangeEffectMap)

/-! ## `captureRowsForOps` and `effectsFromCapturedRows` -/

/-- `rowKey`: `JSON.stringify([table, rowId])`. -/
def rowKey (table rowId : Text) : Text := 91 :: joined [quote table, quote rowId] ++ [93]

/-- `CapturedRow`. -/
structure CapturedRow where
  table : Text
  rowId : Text
  before : Option Row

/-- The loop of `captureRowsForOps`. -/
def captureRows (tables : Tables) :
    List Op → Record Text CapturedRow → Record Text CapturedRow
  | [], captured => captured
  | op :: ops, captured =>
    let key := rowKey op.table op.rowId
    if (captured.get key).isSome then captureRows tables ops captured
    else
      captureRows tables ops
        (captured.set key ⟨op.table, op.rowId, rowAt tables op.table op.rowId⟩)

/-- `captureRowsForOps`. -/
def captureRowsForOps (tables : Tables) (ops : List Op) : Record Text CapturedRow :=
  captureRows tables ops ∅

/-- An effect, whose fields are a map. -/
abbrev Effect := RowChangeEffect (Record Text ColumnChangeEffect)

/-- `createRowChangeEffect` of a captured row and of the row that is there now. -/
def effectOn (tables : Tables) (c : CapturedRow) : Option Effect :=
  rowChangeEffectMap c.table c.rowId c.before (rowAt tables c.table c.rowId)

/-- `effectsFromCapturedRows`. -/
def effectsFromCapturedRows (tables : Tables) (captured : Record Text CapturedRow) : List Effect :=
  captured.values.filterMap (effectOn tables)

/-! ## The same data -/

mutual

/-- The same data, objects with their properties in any order. -/
def sameData : JsValue → JsValue → Bool
  | .undefined, .undefined => true
  | .null, .null => true
  | .bool a, .bool b => decide (a = b)
  | .number a, .number b => decide (a = b)
  | .string a, .string b => decide (a = b)
  | .date a, .date b => decide (a = b)
  | .array l, .array r => sameItems l r
  | .object l, .object r => decide (sortedKeys l = sortedKeys r) && sameFields l r
  | _, _ => false
termination_by structural x => x

@[inherit_doc sameData]
def sameItems : List JsValue → List JsValue → Bool
  | [], [] => true
  | a :: l, b :: r => sameData a b && sameItems l r
  | _, _ => false
termination_by structural x => x

@[inherit_doc sameData]
def sameFields : List (Text × JsValue) → List (Text × JsValue) → Bool
  | [], _ => true
  | p :: l, r => sameField p r && sameFields l r
termination_by structural x => x

@[inherit_doc sameData]
def sameField : Text × JsValue → List (Text × JsValue) → Bool
  | (k, v), r => r.any fun q => decide (q.1 = k) && sameData v q.2
termination_by structural x => x

end

mutual

/-- No date in a value is invalid. -/
def timely : JsValue → Bool
  | .date t => t.isSome
  | .array items => timelyItems items
  | .object fields => timelyFields fields
  | _ => true
termination_by structural x => x

@[inherit_doc timely]
def timelyItems : List JsValue → Bool
  | [] => true
  | v :: l => timely v && timelyItems l
termination_by structural x => x

@[inherit_doc timely]
def timelyFields : List (Text × JsValue) → Bool
  | [] => true
  | p :: l => timelyField p && timelyFields l
termination_by structural x => x

@[inherit_doc timely]
def timelyField : Text × JsValue → Bool
  | (_, v) => timely v
termination_by structural x => x

end

theorem sameField_iff {k : Text} {v : JsValue} {r : List (Text × JsValue)} :
    sameField (k, v) r = true ↔ ∃ w, (k, w) ∈ r ∧ sameData v w = true := by
  simp only [sameField, List.any_eq_true, Bool.and_eq_true, decide_eq_true_eq]
  constructor
  · rintro ⟨⟨k', w⟩, hmem, rfl, h⟩
    exact ⟨w, hmem, h⟩
  · rintro ⟨w, hmem, h⟩
    exact ⟨(k, w), hmem, rfl, h⟩

mutual

theorem sameData_refl : ∀ v : JsValue, sameData v v = true
  | .undefined => rfl
  | .null => rfl
  | .bool _ => decide_eq_true rfl
  | .number _ => decide_eq_true rfl
  | .string _ => decide_eq_true rfl
  | .date _ => decide_eq_true rfl
  | .array items => by
    rw [sameData]
    exact sameItems_refl items
  | .object fields => by
    rw [sameData, decide_eq_true rfl, Bool.true_and]
    exact sameFields_of_subset fields fields fun _ h => h
termination_by structural x => x

theorem sameItems_refl : ∀ l : List JsValue, sameItems l l = true
  | [] => rfl
  | v :: l => by rw [sameItems, sameData_refl v, sameItems_refl l, Bool.and_self]
termination_by structural x => x

theorem sameFields_of_subset : ∀ l r : List (Text × JsValue), (∀ p ∈ l, p ∈ r) →
    sameFields l r = true
  | [], _, _ => rfl
  | p :: l, r, h => by
    rw [forall_mem_cons] at h
    rw [sameFields, sameField_of_mem p r h.1, sameFields_of_subset l r h.2, Bool.and_self]
termination_by structural x => x

theorem sameField_of_mem : ∀ (p : Text × JsValue) (r : List (Text × JsValue)), p ∈ r →
    sameField p r = true
  | (_, v), _, h => sameField_iff.mpr ⟨v, h, sameData_refl v⟩
termination_by structural x => x

end

mutual

/-- **`valuesEqual` is the same data without an invalid date in it.** -/
theorem columnValuesEqual_iff : ∀ v w : JsValue, v.Plain →
    (columnValuesEqual v w = true ↔ sameData v w = true ∧ timely v = true)
  | .undefined, w, _ => by cases w <;> simp [columnValuesEqual, sameData, timely]
  | .null, w, _ => by cases w <;> simp [columnValuesEqual, sameData, timely]
  | .bool a, w, _ => by cases w <;> simp [columnValuesEqual, sameData, timely]
  | .number a, w, _ => by cases w <;> simp [columnValuesEqual, sameData, timely]
  | .string a, w, _ => by cases w <;> simp [columnValuesEqual, sameData, timely]
  | .date a, w, _ => by
    cases w with
    | date b => cases a <;> cases b <;> simp [columnValuesEqual, sameData, timely]
    | _ => cases a <;> simp [columnValuesEqual, sameData]
  | .array l, w, h => by
    cases w with
    | array r =>
      rw [JsValue.Plain] at h
      rw [columnValuesEqual, sameData, timely]
      exact itemsEqual_iff l r h
    | _ => simp [columnValuesEqual, sameData]
  | .object l, w, h => by
    cases w with
    | object r =>
      rw [JsValue.Plain] at h
      rw [columnValuesEqual, sameData, timely, Bool.and_eq_true, Bool.and_eq_true,
        decide_eq_true_eq, and_assoc]
      refine and_congr_right fun hkeys => ?_
      -- the right side has the keys of the left, so each of them once
      have hnodup : (r.map Prod.fst).Nodup :=
        ((sortedKeys_eq_iff_perm l r).1 hkeys).nodup_iff.mp h.1
      exact fieldsEqual_iff_same l r h.2 hnodup
    | _ => simp [columnValuesEqual, sameData]
termination_by structural x => x

theorem itemsEqual_iff : ∀ l r : List JsValue, PlainItems l →
    (itemsEqual l r = true ↔ sameItems l r = true ∧ timelyItems l = true)
  | [], r, _ => by cases r <;> simp [itemsEqual, sameItems, timelyItems]
  | v :: l, r, h => by
    cases r with
    | nil => simp [itemsEqual, sameItems]
    | cons w r =>
      rw [PlainItems] at h
      rw [itemsEqual, sameItems, timelyItems, Bool.and_eq_true, Bool.and_eq_true,
        Bool.and_eq_true, columnValuesEqual_iff v w h.1, itemsEqual_iff l r h.2]
      exact and_and_and_comm
termination_by structural x => x

theorem fieldsEqual_iff_same : ∀ l r : List (Text × JsValue), PlainFields l →
    (r.map Prod.fst).Nodup →
    (fieldsEqual l r = true ↔ sameFields l r = true ∧ timelyFields l = true)
  | [], r, _, _ => by simp [fieldsEqual, sameFields, timelyFields]
  | p :: l, r, h, hr => by
    rw [PlainFields] at h
    rw [fieldsEqual, sameFields, timelyFields, Bool.and_eq_true, Bool.and_eq_true,
      Bool.and_eq_true, fieldEqual_iff p r h.1 hr, fieldsEqual_iff_same l r h.2 hr]
    exact and_and_and_comm
termination_by structural x => x

theorem fieldEqual_iff : ∀ (p : Text × JsValue) (r : List (Text × JsValue)), PlainField p →
    (r.map Prod.fst).Nodup →
    (fieldEqual p r = true ↔ sameField p r = true ∧ timelyField p = true)
  | (k, v), r, h, hr => by
    rw [PlainField] at h
    rw [fieldEqual, sameField_iff, timelyField]
    cases hfind : find k r with
    | none =>
      have hnot : ∀ w, (k, w) ∉ r := fun w hmem =>
        find_eq_none_iff.mp hfind (mem_map_of_mem (f := Prod.fst) hmem)
      refine iff_of_false Bool.false_ne_true ?_
      rintro ⟨⟨w, hmem, -⟩, -⟩
      exact hnot w hmem
    | some w =>
      have hw : ∀ w', (k, w') ∈ r → w' = w := fun w' hmem =>
        some.inj ((find_of_mem hr hmem).symm.trans hfind)
      dsimp only
      rw [columnValuesEqual_iff v w h]
      constructor
      · rintro ⟨hsame, htimely⟩
        exact ⟨⟨w, mem_of_find hfind, hsame⟩, htimely⟩
      · rintro ⟨⟨w', hmem, hsame⟩, htimely⟩
        exact ⟨hw w' hmem ▸ hsame, htimely⟩
termination_by structural x => x

end

/-! ## Payloads and fields -/

/-- A column is as it was: missing, or with the same stamp and the same data. -/
def SameEntry : Option ColumnEntry → Option ColumnEntry → Prop
  | none, none => True
  | some a, some b => a.hlc = b.hlc ∧ sameData a.value b.value = true
  | _, _ => False

/-- A payload is as it was. -/
def SamePayload (p q : Record Text ColumnEntry) : Prop :=
  ∀ name, SameEntry (p.get name) (q.get name)

/-- The payload of a row, which is empty if there is none. -/
def payloadOf (row : Option Row) : Record Text ColumnEntry := row.elim ∅ Row.payload

theorem sameEntry_refl (e : Option ColumnEntry) : SameEntry e e := by
  cases e with
  | none => trivial
  | some e => exact ⟨rfl, sameData_refl e.value⟩

theorem sameEntry_iff {left right : Option ColumnEntry}
    (h : ∀ e, left = some e → e.value.Plain) :
    sameEntry left right = true ↔
      SameEntry left right ∧ ∀ e, left = some e → timely e.value = true := by
  cases left with
  | none =>
    cases right with
    | none => exact iff_of_true rfl ⟨trivial, fun e he => absurd he (by simp)⟩
    | some b => exact iff_of_false Bool.false_ne_true fun h => h.1
  | some a =>
    cases right with
    | none => exact iff_of_false Bool.false_ne_true fun h => h.1
    | some b =>
      rw [sameEntry, Bool.and_eq_true, decide_eq_true_eq,
        columnValuesEqual_iff a.value b.value (h a rfl), SameEntry, ← and_assoc]
      simp only [some.injEq, forall_eq']

theorem get_effectFieldsMap (before : Option Row) (after : Row) (l : List Text)
    (fields : Record Text ColumnChangeEffect) (name : Text) :
    (effectFieldsMap before after l fields).get name =
      if name ∈ l ∧ sameEntry (before.bind fun row => row.payload.get name)
          (after.payload.get name) = false then
        some ⟨(before.bind fun row => row.payload.get name).map .entry,
          (after.payload.get name).map .entry⟩
      else fields.get name := by
  induction l generalizing fields with
  | nil => rw [effectFieldsMap, if_neg fun h => absurd h.1 not_mem_nil]
  | cons n l ih =>
    rw [effectFieldsMap, ih]
    by_cases hn : n = name
    · subst hn
      cases hsame : sameEntry (before.bind fun row => row.payload.get n) (after.payload.get n) with
      | true => simp
      | false => simp [Record.get_set_self]
    · have hne : name ≠ n := fun h => hn h.symm
      split_ifs with hl hs hmem hmem
      all_goals simp_all [Record.get_set_ne]

theorem payloadOf_bind (before : Option Row) (name : Text) :
    (before.bind fun row => row.payload.get name) = (payloadOf before).get name := by
  cases before <;> rfl

/-- The fields of the effect on a row. -/
def fieldsOf (before : Option Row) (after : Row) : Record Text ColumnChangeEffect :=
  effectFieldsMap before after
    (payloadNames (before.map fun row => row.payload) after.payload) ∅

/-- **A column is a field if it differs**, with its entries before and after. -/
theorem get_fieldsOf (before : Option Row) (after : Row) (name : Text) :
    (fieldsOf before after).get name =
      if sameEntry ((payloadOf before).get name) (after.payload.get name) then none
      else some ⟨((payloadOf before).get name).map .entry,
        (after.payload.get name).map .entry⟩ := by
  rw [fieldsOf, get_effectFieldsMap, payloadOf_bind, Record.get_empty]
  cases hsame : sameEntry ((payloadOf before).get name) (after.payload.get name) with
  | true => rw [if_neg fun h => absurd h.2 (by simp), if_pos rfl]
  | false =>
    have hmem : name ∈ payloadNames (before.map fun row => row.payload) after.payload := by
      by_contra hno
      have hkeys : name ∉ (payloadOf before).keys ∧ name ∉ after.payload.keys := by
        cases before with
        | none =>
          refine ⟨not_mem_nil, fun h => hno ?_⟩
          exact mem_append.mpr (Or.inr (mem_filter.mpr ⟨h, by simp⟩))
        | some row =>
          refine ⟨fun h => hno (mem_append.mpr (Or.inl h)), fun h => hno ?_⟩
          by_cases hfirst : name ∈ row.payload.keys
          · exact mem_append.mpr (Or.inl hfirst)
          · exact mem_append.mpr (Or.inr (mem_filter.mpr ⟨h, decide_eq_true hfirst⟩))
      have hbefore : (payloadOf before).get name = none := find_eq_none_iff.mpr hkeys.1
      have hafter : after.payload.get name = none := find_eq_none_iff.mpr hkeys.2
      rw [hbefore, hafter] at hsame
      exact absurd hsame (by decide)
    rw [if_pos ⟨hmem, rfl⟩, if_neg Bool.false_ne_true]

/-- What a field leaves of a column: the entry after, or nothing. -/
def settled (current : Option ColumnEntry) (field : ColumnChangeEffect) : Option ColumnEntry :=
  match field.after with
  | none => none
  | some (.entry e) => some e
  -- an object of the prototype; no field of a map has it
  | some .emptyObject => current

/-- Apply a field to a payload. -/
def applyField (payload : Record Text ColumnEntry) (field : Text × ColumnChangeEffect) :
    Record Text ColumnEntry :=
  match settled (payload.get field.1) field.2 with
  | none => payload.erase field.1
  | some e => payload.set field.1 e

/-- Apply the fields of an effect to a payload. -/
def patched (payload : Record Text ColumnEntry) (fields : Record Text ColumnChangeEffect) :
    Record Text ColumnEntry :=
  fields.entries.foldl applyField payload

theorem get_applyField (payload : Record Text ColumnEntry) (field : Text × ColumnChangeEffect)
    (name : Text) :
    (applyField payload field).get name =
      if field.1 = name then settled (payload.get name) field.2 else payload.get name := by
  rw [applyField]
  by_cases hname : field.1 = name
  · subst hname
    rw [if_pos rfl]
    cases settled (payload.get field.1) field.2 with
    | none => rw [Record.get_erase, if_pos rfl]
    | some e => exact Record.get_set_self ..
  · rw [if_neg hname]
    cases settled (payload.get field.1) field.2 with
    | none => rw [Record.get_erase, if_neg hname]
    | some e => exact Record.get_set_ne _ _ hname

theorem get_patched (payload : Record Text ColumnEntry) (fields : Record Text ColumnChangeEffect)
    (name : Text) :
    (patched payload fields).get name =
      (fields.get name).elim (payload.get name) (settled (payload.get name)) := by
  have hfold : ∀ l : List (Text × ColumnChangeEffect), (l.map Prod.fst).Nodup →
      ∀ payload : Record Text ColumnEntry, (l.foldl applyField payload).get name =
        (find name l).elim (payload.get name) (settled (payload.get name)) := by
    intro l
    induction l with
    | nil => exact fun _ _ => rfl
    | cons field l ih =>
      intro hl payload
      rw [map_cons, nodup_cons] at hl
      rw [foldl_cons, ih hl.2, get_applyField, find]
      by_cases hname : field.1 = name
      · have hnone : find name l = none := find_eq_none_iff.mpr (hname ▸ hl.1)
        rw [if_pos hname, if_pos hname, hnone]
        rfl
      · rw [if_neg hname, if_neg hname]
  exact hfold fields.entries fields.nodup payload

variable {before : Option Row}

/-- **The fields turn the payload before into the payload after.** -/
theorem samePayload_patched {after : Row}
    (hplain : ∀ name e, (payloadOf before).get name = some e → e.value.Plain) :
    SamePayload (patched (payloadOf before) (fieldsOf before after)) after.payload := by
  intro name
  rw [get_patched, get_fieldsOf]
  cases hsame : sameEntry ((payloadOf before).get name) (after.payload.get name) with
  | true =>
    rw [if_pos rfl, elim_none]
    exact ((sameEntry_iff (hplain name)).mp hsame).1
  | false =>
    rw [if_neg Bool.false_ne_true, elim_some]
    have hsettled : settled ((payloadOf before).get name)
        ⟨((payloadOf before).get name).map .entry, (after.payload.get name).map .entry⟩ =
          after.payload.get name := by
      cases after.payload.get name <;> rfl
    rw [hsettled]
    exact sameEntry_refl _

/-- There are no fields exactly if the payload is as it was and has no invalid date. -/
theorem fieldsOf_empty_iff {after : Row}
    (hplain : ∀ name e, (payloadOf before).get name = some e → e.value.Plain) :
    (fieldsOf before after).entries = [] ↔
      SamePayload (payloadOf before) after.payload ∧
        ∀ name e, (payloadOf before).get name = some e → timely e.value = true := by
  rw [Record.entries_eq_nil_iff]
  have hname : ∀ name, (fieldsOf before after).get name = none ↔
      SameEntry ((payloadOf before).get name) (after.payload.get name) ∧
        ∀ e, (payloadOf before).get name = some e → timely e.value = true := by
    intro name
    rw [get_fieldsOf, ← sameEntry_iff (hplain name)]
    cases sameEntry ((payloadOf before).get name) (after.payload.get name) <;> simp
  simp only [hname]
  exact forall_and

/-! ## What is captured -/

theorem rowKey_inj {t r t' r' : Text} (h : rowKey t r = rowKey t' r') : t = t' ∧ r = r' := by
  have htext : ∀ t r : Text, rowKey t r = 91 :: (quote t ++ 44 :: (quote r ++ [93])) := by
    intro t r
    simp only [rowKey, joined, cons_append, append_assoc]
  rw [htext, htext, List.cons.injEq] at h
  obtain ⟨rfl, hrest⟩ := JsonReader.quote_append_inj h.2
  rw [List.cons.injEq] at hrest
  exact ⟨rfl, (JsonReader.quote_append_inj hrest.2).1⟩

/-- The row that an op addresses, as it is captured. -/
def capturedRow (tables : Tables) (op : Op) : CapturedRow :=
  ⟨op.table, op.rowId, rowAt tables op.table op.rowId⟩

/-- The op whose row is captured under a key is the first one with that key. -/
theorem get_captureRows (tables : Tables) (ops : List Op) (captured : Record Text CapturedRow)
    (key : Text) :
    (captureRows tables ops captured).get key =
      (captured.get key).or
        ((ops.find? fun op => decide (rowKey op.table op.rowId = key)).map
          (capturedRow tables)) := by
  induction ops generalizing captured with
  | nil =>
    rw [captureRows, List.find?_nil, map_none, or_none]
  | cons op ops ih =>
    rw [captureRows]
    by_cases hkey : rowKey op.table op.rowId = key
    · rw [List.find?_cons_of_pos (by simpa using hkey), hkey, map_some]
      cases hget : captured.get key with
      | some c => rw [isSome_some, if_pos rfl, ih, hget, some_or, some_or]
      | none =>
        rw [isSome_none, if_neg Bool.false_ne_true, ih, Record.get_set_self, some_or, none_or]
        rfl
    · rw [List.find?_cons_of_neg (by simpa using hkey)]
      split_ifs
      · exact ih captured
      · rw [ih, Record.get_set_ne _ _ hkey]

/-- **The rows that the ops address are captured**, and no others. -/
theorem captured_iff {tables : Tables} {ops : List Op} {c : CapturedRow} :
    c ∈ (captureRowsForOps tables ops).values ↔ ∃ op ∈ ops, c = capturedRow tables op := by
  rw [Record.mem_values_iff]
  constructor
  · rintro ⟨key, h⟩
    rw [captureRowsForOps, get_captureRows, Record.get_empty, none_or, map_eq_some_iff] at h
    obtain ⟨op, hop, rfl⟩ := h
    exact ⟨op, mem_of_find?_eq_some hop, rfl⟩
  · rintro ⟨op, hop, rfl⟩
    refine ⟨rowKey op.table op.rowId, ?_⟩
    rw [captureRowsForOps, get_captureRows, Record.get_empty, none_or]
    obtain ⟨op', hfind⟩ := isSome_iff_exists.mp (List.find?_isSome
      (p := fun o : Op => decide (rowKey o.table o.rowId = rowKey op.table op.rowId)).mpr
        ⟨op, hop, decide_eq_true rfl⟩)
    have hkey := List.find?_some hfind
    rw [decide_eq_true_eq] at hkey
    obtain ⟨htable, hrow⟩ := rowKey_inj hkey
    rw [hfind, map_some, capturedRow, capturedRow, htable, hrow]

theorem nodup_captured (tables : Tables) (ops : List Op) :
    ((captureRowsForOps tables ops).values.map fun c => (c.table, c.rowId)).Nodup := by
  have hkeys : (captureRowsForOps tables ops).keys =
      ((captureRowsForOps tables ops).values.map fun c => (c.table, c.rowId)).map
        fun p => rowKey p.1 p.2 := by
    rw [Record.keys, Record.values, List.map_map, List.map_map]
    refine map_congr_left ?_
    rintro ⟨key, c⟩ hmem
    have hget := Record.mem_entries_iff.mp hmem
    rw [captureRowsForOps, get_captureRows, Record.get_empty, none_or, map_eq_some_iff] at hget
    obtain ⟨op, hop, rfl⟩ := hget
    have hkey := List.find?_some hop
    rw [decide_eq_true_eq] at hkey
    exact hkey.symm
  refine List.Nodup.of_map (fun p : Text × Text => rowKey p.1 p.2) ?_
  rw [← hkeys]
  exact (captureRowsForOps tables ops).nodup

/-! ## Rows that an entry addresses -/

/-- **A row that an op addressed is there**, and so is every row that was there. -/
theorem isSome_rowAt {v : ℕ} {schema : Option DatabaseSchemaDefinition} {ops : List Op}
    {affected affected' : List Row} {tables tables' : Tables}
    (h : applyOpsLoop v schema ops affected tables = .ok (affected', tables')) :
    (∀ op ∈ ops, (rowAt tables' op.table op.rowId).isSome = true) ∧
      ∀ table rowId, (rowAt tables table rowId).isSome = true →
        (rowAt tables' table rowId).isSome = true := by
  induction ops generalizing affected tables with
  | nil =>
    rw [applyOpsLoop, Except.ok.injEq, Prod.mk.injEq] at h
    obtain ⟨rfl, rfl⟩ := h
    exact ⟨fun op hop => absurd hop not_mem_nil, fun _ _ h => h⟩
  | cons op ops ih =>
    rw [applyOpsLoop] at h
    cases hop : applyOp tables op v schema with
    | error e => simp [hop] at h
    | ok out =>
      obtain ⟨res, tables₁⟩ := out
      rw [hop] at h
      obtain ⟨hrest, hstay⟩ := ih h
      have hrow := fun table rowId => rowAt_applyOp hop table rowId
      have hself : (rowAt tables₁ op.table op.rowId).isSome = true := by
        rw [(hrow op.table op.rowId).2, if_pos ⟨rfl, rfl⟩]
        cases hbefore : rowAt tables op.table op.rowId with
        | some row => cases res <;> rfl
        | none =>
          have happly := (hrow op.table op.rowId).1
          rw [hbefore] at happly
          rw [or_none]
          exact applyToRow_none happly
      have hone : ∀ table rowId, (rowAt tables table rowId).isSome = true →
          (rowAt tables₁ table rowId).isSome = true := by
        intro table rowId hthere
        rw [(hrow table rowId).2]
        split_ifs
        · cases res with
          | some row => rfl
          | none => exact hthere
        · exact hthere
      refine ⟨?_, fun table rowId hthere => hstay table rowId (hone table rowId hthere)⟩
      rw [forall_mem_cons]
      exact ⟨hstay _ _ hself, hrest⟩

/-! ## The diff -/

/-- A row was there before, and its deleted flag and its payload are as they were. -/
def Unchanged (before after : Option Row) : Prop :=
  ∃ b a, before = some b ∧ after = some a ∧ b._meta.deleted = a._meta.deleted ∧
    SamePayload b.payload a.payload

/-- No column of a row holds an invalid date. -/
def TimelyRow (row : Option Row) : Prop :=
  ∀ name e, (payloadOf row).get name = some e → timely e.value = true

/-- Every object in the tables has each of its properties once, as objects do. -/
def PlainTables (tables : Tables) : Prop :=
  ∀ table rowId name e, (payloadOf (rowAt tables table rowId)).get name = some e → e.value.Plain

/-- The effects say what became of the rows that the ops address. -/
structure CorrectDiff (tables tables' : Tables) (ops : List Op) (effects : List Effect) :
    Prop where
  once : (effects.map fun e => (e.table, e.rowId)).Nodup
  touched : ∀ e ∈ effects, ∃ op ∈ ops, op.table = e.table ∧ op.rowId = e.rowId
  patches : ∀ e ∈ effects,
    SamePayload (patched (payloadOf (rowAt tables e.table e.rowId)) e.fields)
      (payloadOf (rowAt tables' e.table e.rowId))
  silent : ∀ op ∈ ops, (∀ e ∈ effects, ¬ (e.table = op.table ∧ e.rowId = op.rowId)) ↔
    Unchanged (rowAt tables op.table op.rowId) (rowAt tables' op.table op.rowId)

theorem rowChangeEffectMap_eq (table rowId : Text) (before : Option Row) (after : Row) :
    rowChangeEffectMap table rowId before (some after) =
      if before.any (fun row => decide (row._meta.deleted = after._meta.deleted)) &&
          (fieldsOf before after).entries.isEmpty then none
      else some ⟨table, rowId, PlainKeys.effectKind (before.map Row._meta) after._meta,
        fieldsOf before after⟩ := rfl

theorem rowChangeEffectMap_eq_none_iff {table rowId : Text} {after : Row}
    (hplain : ∀ name e, (payloadOf before).get name = some e → e.value.Plain) :
    rowChangeEffectMap table rowId before (some after) = none ↔
      Unchanged before (some after) ∧ TimelyRow before := by
  rw [rowChangeEffectMap_eq]
  have hfields := @fieldsOf_empty_iff before after hplain
  cases before with
  | none =>
    refine iff_of_false (by simp) ?_
    rintro ⟨⟨b, a, hb, -⟩, -⟩
    exact absurd hb (by simp)
  | some b =>
    have hempty : (fieldsOf (some b) after).entries.isEmpty = true ↔
        SamePayload b.payload after.payload ∧ TimelyRow (some b) := by
      rw [List.isEmpty_iff]
      exact hfields
    have hunchanged : Unchanged (some b) (some after) ↔
        b._meta.deleted = after._meta.deleted ∧ SamePayload b.payload after.payload := by
      constructor
      · rintro ⟨b', a', hb, ha, hdeleted, hpayload⟩
        obtain rfl := some.inj hb
        obtain rfl := some.inj ha
        exact ⟨hdeleted, hpayload⟩
      · rintro ⟨hdeleted, hpayload⟩
        exact ⟨b, after, rfl, rfl, hdeleted, hpayload⟩
    rw [ite_eq_left_iff, hunchanged, and_assoc, ← hempty]
    simp only [reduceCtorEq, imp_false, not_not, any_some, Bool.and_eq_true, decide_eq_true_eq]

theorem of_rowChangeEffectMap {table rowId : Text} {before after : Option Row} {e : Effect}
    (h : rowChangeEffectMap table rowId before after = some e) :
    e.table = table ∧ e.rowId = rowId ∧
      ∃ row, after = some row ∧ e.fields = fieldsOf before row := by
  cases after with
  | none => exact absurd h (by simp [rowChangeEffectMap])
  | some row =>
    rw [rowChangeEffectMap_eq] at h
    split_ifs at h
    obtain rfl := some.inj h
    exact ⟨rfl, rfl, row, rfl, rfl⟩

section Diff

variable {tables tables' : Tables} {ops : List Op}

theorem mem_effects_iff {e : Effect} :
    e ∈ effectsFromCapturedRows tables' (captureRowsForOps tables ops) ↔
      ∃ op ∈ ops, rowChangeEffectMap op.table op.rowId (rowAt tables op.table op.rowId)
        (rowAt tables' op.table op.rowId) = some e := by
  rw [effectsFromCapturedRows, mem_filterMap]
  constructor
  · rintro ⟨c, hc, he⟩
    obtain ⟨op, hop, rfl⟩ := captured_iff.mp hc
    exact ⟨op, hop, he⟩
  · rintro ⟨op, hop, he⟩
    exact ⟨capturedRow tables op, captured_iff.mpr ⟨op, hop, rfl⟩, he⟩

theorem nodup_effects (tables tables' : Tables) (ops : List Op) :
    ((effectsFromCapturedRows tables' (captureRowsForOps tables ops)).map
      fun e => (e.table, e.rowId)).Nodup := by
  refine List.Nodup.sublist ?_ (nodup_captured tables ops)
  rw [effectsFromCapturedRows]
  induction (captureRowsForOps tables ops).values with
  | nil => exact List.Sublist.slnil
  | cons c l ih =>
    rw [map_cons]
    cases he : effectOn tables' c with
    | none =>
      rw [filterMap_cons_none he]
      exact ih.cons _
    | some e =>
      obtain ⟨htable, hrow, -⟩ := of_rowChangeEffectMap he
      rw [filterMap_cons_some he, map_cons, htable, hrow]
      exact ih.cons_cons _

/-- There is no effect on a row exactly if it was not changed and holds no invalid date. -/
theorem no_effect_iff (hplain : PlainTables tables)
    (hthere : ∀ op ∈ ops, (rowAt tables' op.table op.rowId).isSome = true) {op : Op}
    (hop : op ∈ ops) :
    (∀ e ∈ effectsFromCapturedRows tables' (captureRowsForOps tables ops),
        ¬ (e.table = op.table ∧ e.rowId = op.rowId)) ↔
      Unchanged (rowAt tables op.table op.rowId) (rowAt tables' op.table op.rowId) ∧
        TimelyRow (rowAt tables op.table op.rowId) := by
  obtain ⟨after, hafter⟩ := isSome_iff_exists.mp (hthere op hop)
  rw [hafter, ← @rowChangeEffectMap_eq_none_iff _ op.table op.rowId _ (hplain op.table op.rowId)]
  constructor
  · intro h
    cases he : rowChangeEffectMap op.table op.rowId (rowAt tables op.table op.rowId)
      (some after) with
    | none => rfl
    | some e =>
      obtain ⟨htable, hrow, -⟩ := of_rowChangeEffectMap he
      exact absurd ⟨htable, hrow⟩ (h e (mem_effects_iff.mpr ⟨op, hop, by rw [hafter]; exact he⟩))
  · rintro hnone e he ⟨htable, hrow⟩
    obtain ⟨op', hop', he'⟩ := mem_effects_iff.mp he
    obtain ⟨htable', hrow', -⟩ := of_rowChangeEffectMap he'
    rw [← htable', htable, ← hrow', hrow, hafter, hnone] at he'
    exact absurd he' (by simp)

/-- **Effects are a correct diff, but for invalid dates.**  For every tables state and every entry
that is applied: the effects are a correct diff if and only if no row that an op addresses and that
is left as it was holds an invalid date. -/
theorem effects_correct_iff (hplain : PlainTables tables) {entry : ChangeEntry} {v : ℕ}
    {schema : Option DatabaseSchemaDefinition} {affected : List Row}
    (happly : applyChangeEntry tables entry v schema = .ok (affected, tables')) :
    CorrectDiff tables tables' entry.ops
        (effectsFromCapturedRows tables' (captureRowsForOps tables entry.ops)) ↔
      ∀ op ∈ entry.ops,
        Unchanged (rowAt tables op.table op.rowId) (rowAt tables' op.table op.rowId) →
          TimelyRow (rowAt tables op.table op.rowId) := by
  have hthere := (isSome_rowAt happly).1
  constructor
  · intro h op hop hunchanged
    exact ((no_effect_iff hplain hthere hop).mp ((h.silent op hop).mpr hunchanged)).2
  · intro h
    refine ⟨nodup_effects tables tables' entry.ops, ?_, ?_, ?_⟩
    · intro e he
      obtain ⟨op, hop, he⟩ := mem_effects_iff.mp he
      obtain ⟨htable, hrow, -⟩ := of_rowChangeEffectMap he
      exact ⟨op, hop, htable.symm, hrow.symm⟩
    · intro e he
      obtain ⟨op, hop, he⟩ := mem_effects_iff.mp he
      obtain ⟨htable, hrow, after, hafter, hfields⟩ := of_rowChangeEffectMap he
      rw [htable, hrow, hafter, hfields]
      exact samePayload_patched (hplain op.table op.rowId)
    · intro op hop
      rw [no_effect_iff hplain hthere hop]
      exact ⟨fun hboth => hboth.1, fun hunchanged => ⟨hunchanged, h op hop hunchanged⟩⟩

end Diff

/-! ### A late delete -/

/-- A row with one column, a date. -/
def datedRow (time : Option ℤ) : Row :=
  ⟨⟨[116], [114], false, none, 1, none⟩,
    (∅ : Record Text ColumnEntry).set [99] ⟨.date time, stampText ⟨5, 0, [97]⟩⟩⟩

@[inherit_doc datedRow]
def dated (time : Option ℤ) : Tables :=
  (∅ : Record Text (Record Text Row)).set [116]
    ((∅ : Record Text Row).set [114] (datedRow time))

/-- A delete that is older than the column. -/
def lateDelete : ChangeEntry := ⟨[], 0, [98], [], [.delete [116] [114] (stampText ⟨3, 0, [98]⟩)]⟩

theorem payloadOf_dated {time : Option ℤ} {table rowId name : Text} {e : ColumnEntry}
    (h : (payloadOf (rowAt (dated time) table rowId)).get name = some e) :
    e = ⟨.date time, stampText ⟨5, 0, [97]⟩⟩ := by
  rw [rowAt, dated, Record.get_set] at h
  split_ifs at h with htable
  · rw [bind_some, Record.get_set] at h
    split_ifs at h with hrow
    · rw [payloadOf, elim_some, datedRow, Record.get_set] at h
      split_ifs at h
      · exact (some.inj h).symm
      · exact absurd h (by simp)
    · exact absurd h (by simp [payloadOf])
  · exact absurd h (by simp [payloadOf])

theorem plainTables_dated (time : Option ℤ) : PlainTables (dated time) := by
  intro table rowId name e h
  rw [payloadOf_dated h]
  trivial

theorem applyDelete_late (time : Option ℤ) :
    applyDelete (some (datedRow time)) [116] [114] (stampText ⟨3, 0, [98]⟩) 1 = none := by
  have holder : isPos (hlcCompareStr (stampText ⟨5, 0, [97]⟩) (stampText ⟨3, 0, [98]⟩)) = true :=
    (isPos_hlcCompareStr _ _).mpr (by decide)
  have hvalues : (datedRow time).payload.values = [⟨.date time, stampText ⟨5, 0, [97]⟩⟩] := rfl
  have hlive : truthy (datedRow time)._meta.deletedHlc = none := rfl
  have hnewer : (decide (stampText ⟨5, 0, [97]⟩ ≠ []) &&
      isPos (hlcCompareStr (stampText ⟨5, 0, [97]⟩) (stampText ⟨3, 0, [98]⟩))) = true := by
    rw [holder, Bool.and_true, decide_eq_true_eq]
    exact stampText_ne_nil _
  rw [applyDelete, hlive, any_none, if_neg Bool.false_ne_true, hvalues, any_cons,
    hnewer, Bool.true_or, if_pos rfl]

theorem apply_lateDelete (time : Option ℤ) :
    applyChangeEntry (dated time) lateDelete 1 none = .ok ([], dated time) := by
  have hrow : applyToRow ((((dated time).get [116]).getD ∅).get [114])
      (.delete [116] [114] (stampText ⟨3, 0, [98]⟩)) 1 none = .ok none :=
    congrArg Except.ok (applyDelete_late time)
  have hop : applyOp (dated time) (.delete [116] [114] (stampText ⟨3, 0, [98]⟩)) 1 none =
      .ok (none, dated time) := by
    unfold applyOp
    dsimp only [Op.table, Op.rowId]
    rw [hrow]
    rfl
  rw [applyChangeEntry, lateDelete, applyOpsLoop, hop]
  rfl

theorem unchanged_refl {row : Option Row} (h : row.isSome = true) : Unchanged row row := by
  obtain ⟨r, rfl⟩ := isSome_iff_exists.mp h
  exact ⟨r, r, rfl, rfl, rfl, fun name => sameEntry_refl _⟩

/-- The late delete, a new row, and a delete of the row that comes back at once. -/
def busyEntry : ChangeEntry :=
  ⟨[], 0, [98], [], [.delete [116] [114] (stampText ⟨3, 0, [98]⟩),
    .upsert [116] [115] ((∅ : Record Text ColumnEntry).set [99] ⟨.null, stampText ⟨7, 0, [97]⟩⟩),
    .delete [116] [114] (stampText ⟨8, 0, [98]⟩),
    .upsert [116] [114] ((∅ : Record Text ColumnEntry).set [99] ⟨.null, stampText ⟨9, 0, [97]⟩⟩)]⟩

/-- The row, the kind and the columns of every effect of an entry that is applied. -/
def effectsOf (tables : Tables) (entry : ChangeEntry) :
    Option (List (Text × PlainKeys.EffectKind × List Text)) :=
  match applyChangeEntry tables entry 1 none with
  | .ok (_, tables') =>
    some ((effectsFromCapturedRows tables' (captureRowsForOps tables entry.ops)).map fun e =>
      (e.rowId, e.kind, e.fields.keys))
  | .error _ => none

/-- With a valid date the effects are right: one for the row and one for the new row. -/
theorem effects_correct_iff_busy : ∃ affected tables',
    applyChangeEntry (dated (some 0)) busyEntry 1 none = .ok (affected, tables') ∧
      effectsOf (dated (some 0)) busyEntry =
        some [([114], .update, [[99]]), ([115], .create, [[99]])] ∧
      CorrectDiff (dated (some 0)) tables' busyEntry.ops
        (effectsFromCapturedRows tables'
          (captureRowsForOps (dated (some 0)) busyEntry.ops)) := by
  have heffects : effectsOf (dated (some 0)) busyEntry =
      some [([114], .update, [[99]]), ([115], .create, [[99]])] := by decide +kernel
  cases happly : applyChangeEntry (dated (some 0)) busyEntry 1 none with
  | error e =>
    rw [effectsOf, happly] at heffects
    exact absurd heffects (by simp)
  | ok p =>
    refine ⟨p.1, p.2, rfl, heffects, ?_⟩
    refine (effects_correct_iff (plainTables_dated (some 0)) happly).mpr fun op _ _ name e he => ?_
    rw [payloadOf_dated he]
    rfl

/-- With an invalid date it is reported as updated. -/
theorem not_effects_correct : ¬∀ (tables tables' : Tables) (entry : ChangeEntry) (v : ℕ)
    (schema : Option DatabaseSchemaDefinition) (affected : List Row), PlainTables tables →
    applyChangeEntry tables entry v schema = .ok (affected, tables') →
      CorrectDiff tables tables' entry.ops
        (effectsFromCapturedRows tables' (captureRowsForOps tables entry.ops)) := by
  intro h
  have hdiff := h (dated none) (dated none) lateDelete 1 none [] (plainTables_dated none)
    (apply_lateDelete none)
  have htimely := (effects_correct_iff (plainTables_dated none) (apply_lateDelete none)).mp hdiff
    (.delete [116] [114] (stampText ⟨3, 0, [98]⟩)) mem_cons_self (unchanged_refl rfl)
  have hdate := htimely [99] ⟨.date none, stampText ⟨5, 0, [97]⟩⟩ rfl
  exact absurd hdate (by decide)

end ChangeEffects

end Interocitor
