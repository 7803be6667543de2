import Interocitor.Foundation.JoinUpTo
import Interocitor.Merge.PlainKeys

/-!
# Custom merges

A schema can give a column a merge function of its own, at the level of the field, of the table or
of the database.  It is asked to be deterministic, commutative, associative and idempotent, and
`applyOp` then folds it over the entries of the column that come in.

The laws hold up to what the engine can tell apart: the stamp, and the value by
`columnValuesEqual`.  That is an equivalence on values whose objects have every property once,
except that an invalid date is not equal to itself, so the laws are asked on a set of entries that
holds what is written to the column and what is merged from it.  An entry that the function
returns need not have the stamp of either argument.

The strategy of a column is looked up in the plain object `fields` of its table, and there every
object has something under the inherited names.  So what the schema declares (`declaredStrategy`)
is what the column gets, except for these names in tables with a `fields` object.

* `lawful_merges_converge_iff`: the names for which they end alike.
* `constructor_column_diverges`: a column `constructor`, which keeps its first entry.
-/

namespace Interocitor

open CodeUnits OrderedRecord HybridClock JoinUpTo List Option
open PlainKeys (mapsOf tablesOf mapsOf_tablesOf)
open PlainObjects (PlainObject)

/-! ## `columnValuesEqual` is an equivalence -/

mutual

/-- Every object in a value has each of its properties once. -/
def JsValue.Plain : JsValue → Prop
  | .array items => PlainItems items
  | .object fields => (fields.map Prod.fst).Nodup ∧ PlainFields fields
  | _ => True
termination_by structural x => x

@[inherit_doc JsValue.Plain]
def PlainItems : List JsValue → Prop
  | [] => True
  | v :: l => v.Plain ∧ PlainItems l
termination_by structural x => x

@[inherit_doc JsValue.Plain]
def PlainFields : List (Text × JsValue) → Prop
  | [] => True
  | p :: l => PlainField p ∧ PlainFields l
termination_by structural x => x

@[inherit_doc JsValue.Plain]
def PlainField : Text × JsValue → Prop
  | (_, v) => v.Plain
termination_by structural x => x

end

theorem PlainFields.plain {l : List (Text × JsValue)} (h : PlainFields l) {k : Text} {v : JsValue}
    (hm : (k, v) ∈ l) : v.Plain := by
  induction l with
  | nil => exact absurd hm (by simp)
  | cons p l ih =>
    rw [PlainFields] at h
    rcases mem_cons.1 hm with rfl | hm
    · exact h.1
    · exact ih h.2 hm

theorem fieldsEqual_iff {l r : List (Text × JsValue)} :
    fieldsEqual l r = true ↔
      ∀ k v, (k, v) ∈ l → ∃ w, find k r = some w ∧ columnValuesEqual v w = true := by
  induction l with
  | nil => simp [fieldsEqual]
  | cons p l ih =>
    obtain ⟨k, v⟩ := p
    have hhead : fieldEqual (k, v) r = true ↔
        ∃ w, find k r = some w ∧ columnValuesEqual v w = true := by
      rw [fieldEqual]
      cases find k r <;> simp
    rw [fieldsEqual, Bool.and_eq_true, hhead, ih]
    constructor
    · rintro ⟨h, hrest⟩ k' v' hm
      rcases mem_cons.1 hm with heq | hm
      · obtain ⟨rfl, rfl⟩ := Prod.mk.inj heq
        exact h
      · exact hrest k' v' hm
    · intro h
      exact ⟨h k v mem_cons_self, fun k' v' hm => h k' v' (mem_cons_of_mem _ hm)⟩

mutual

theorem columnValuesEqual_symm : ∀ v w : JsValue, v.Plain → w.Plain →
    columnValuesEqual v w = true → columnValuesEqual w v = true
  | .undefined, w, _, _, h => by cases w <;> simp_all [columnValuesEqual]
  | .null, w, _, _, h => by cases w <;> simp_all [columnValuesEqual]
  | .bool a, w, _, _, h => by cases w <;> simp_all [columnValuesEqual]
  | .number a, w, _, _, h => by cases w <;> simp_all [columnValuesEqual]
  | .string a, w, _, _, h => by cases w <;> simp_all [columnValuesEqual]
  | .date a, w, _, _, h => by
    cases w with
    | date b => cases a <;> cases b <;> simp_all [columnValuesEqual]
    | _ => cases a <;> simp [columnValuesEqual] at h
  | .array l, w, hv, hw, h => by
    cases w with
    | array r =>
      rw [JsValue.Plain] at hv hw
      rw [columnValuesEqual] at h ⊢
      exact itemsEqual_symm l r hv hw h
    | _ => simp [columnValuesEqual] at h
  | .object l, w, hv, hw, h => by
    cases w with
    | object r =>
      rw [JsValue.Plain] at hv hw
      rw [columnValuesEqual, Bool.and_eq_true, decide_eq_true_eq] at h ⊢
      refine ⟨h.1.symm, fieldsEqual_iff.2 ?_⟩
      intro k w hm
      -- the property is on the left too, because the keys are the same
      have hkeys := (sortedKeys_eq_iff_perm l r).1 h.1
      obtain ⟨⟨k', v⟩, hv', rfl⟩ := mem_map.1 (hkeys.mem_iff.2 (mem_map_of_mem hm))
      obtain ⟨w', hfind, heq⟩ := fieldsEqual_iff.1 h.2 _ v hv'
      have hw' : w' = w :=
        some.inj (hfind.symm.trans (find_of_mem hw.1 hm))
      refine ⟨v, find_of_mem hv.1 hv', ?_⟩
      exact fields_symm l hv.2 _ v hv' w (hw.2.plain hm) (hw' ▸ heq)
    | _ => simp [columnValuesEqual] at h
termination_by structural x => x

theorem itemsEqual_symm : ∀ l r : List JsValue, PlainItems l → PlainItems r →
    itemsEqual l r = true → itemsEqual r l = true
  | [], r, _, _, h => by cases r <;> simp_all [itemsEqual]
  | v :: l, r, hl, hr, h => by
    cases r with
    | nil => simp [itemsEqual] at h
    | cons w r =>
      rw [PlainItems] at hl hr
      rw [itemsEqual, Bool.and_eq_true] at h ⊢
      exact ⟨columnValuesEqual_symm v w hl.1 hr.1 h.1, itemsEqual_symm l r hl.2 hr.2 h.2⟩
termination_by structural x => x

theorem fields_symm : ∀ l : List (Text × JsValue), PlainFields l → ∀ k v, (k, v) ∈ l →
    ∀ w, w.Plain → columnValuesEqual v w = true → columnValuesEqual w v = true
  | [], _, _, _, hm, _, _, _ => absurd hm (by simp)
  | p :: l, hl, k, v, hm, w, hw, h => by
    rw [PlainFields] at hl
    rcases mem_cons.1 hm with heq | hm
    · have hv : v = p.2 := congrArg Prod.snd heq
      rw [hv] at h ⊢
      exact field_symm p hl.1 w hw h
    · exact fields_symm l hl.2 k v hm w hw h
termination_by structural x => x

theorem field_symm : ∀ p : Text × JsValue, PlainField p →
    ∀ w, w.Plain → columnValuesEqual p.2 w = true → columnValuesEqual w p.2 = true
  | (_, v), hp, w, hw, h => columnValuesEqual_symm v w hp hw h
termination_by structural x => x

end

mutual

theorem columnValuesEqual_trans : ∀ v w u : JsValue, columnValuesEqual v w = true →
    columnValuesEqual w u = true → columnValuesEqual v u = true
  | .undefined, w, u, h, h' => by cases w <;> cases u <;> simp_all [columnValuesEqual]
  | .null, w, u, h, h' => by cases w <;> cases u <;> simp_all [columnValuesEqual]
  | .bool a, w, u, h, h' => by cases w <;> cases u <;> simp_all [columnValuesEqual]
  | .number a, w, u, h, h' => by cases w <;> cases u <;> simp_all [columnValuesEqual]
  | .string a, w, u, h, h' => by cases w <;> cases u <;> simp_all [columnValuesEqual]
  | .date a, w, u, h, h' => by
    cases w with
    | date b =>
      cases u with
      | date c => cases a <;> cases b <;> cases c <;> simp_all [columnValuesEqual]
      | _ => cases b <;> simp [columnValuesEqual] at h'
    | _ => cases a <;> simp [columnValuesEqual] at h
  | .array l, w, u, h, h' => by
    cases w with
    | array r =>
      cases u with
      | array s =>
        rw [columnValuesEqual] at h h' ⊢
        exact itemsEqual_trans l r s h h'
      | _ => simp [columnValuesEqual] at h'
    | _ => simp [columnValuesEqual] at h
  | .object l, w, u, h, h' => by
    cases w with
    | object r =>
      cases u with
      | object s =>
        rw [columnValuesEqual, Bool.and_eq_true, decide_eq_true_eq] at h h' ⊢
        refine ⟨h.1.trans h'.1, fieldsEqual_iff.2 ?_⟩
        intro k v hm
        obtain ⟨w, hw, hvw⟩ := fieldsEqual_iff.1 h.2 k v hm
        obtain ⟨u, hu, hwu⟩ := fieldsEqual_iff.1 h'.2 k w (mem_of_find hw)
        exact ⟨u, hu, fields_trans l k v hm w u hvw hwu⟩
      | _ => simp [columnValuesEqual] at h'
    | _ => simp [columnValuesEqual] at h
termination_by structural x => x

theorem itemsEqual_trans : ∀ l r s : List JsValue, itemsEqual l r = true →
    itemsEqual r s = true → itemsEqual l s = true
  | [], r, s, h, h' => by cases r <;> cases s <;> simp_all [itemsEqual]
  | v :: l, r, s, h, h' => by
    cases r with
    | nil => simp [itemsEqual] at h
    | cons w r =>
      cases s with
      | nil => simp [itemsEqual] at h'
      | cons u s =>
        rw [itemsEqual, Bool.and_eq_true] at h h' ⊢
        exact ⟨columnValuesEqual_trans v w u h.1 h'.1, itemsEqual_trans l r s h.2 h'.2⟩
termination_by structural x => x

theorem fields_trans : ∀ l : List (Text × JsValue), ∀ k v, (k, v) ∈ l →
    ∀ w u, columnValuesEqual v w = true → columnValuesEqual w u = true →
      columnValuesEqual v u = true
  | [], _, _, hm, _, _, _, _ => absurd hm (by simp)
  | p :: l, k, v, hm, w, u, h, h' => by
    rcases mem_cons.1 hm with heq | hm
    · have hv : v = p.2 := congrArg Prod.snd heq
      rw [hv] at h ⊢
      exact field_trans p w u h h'
    · exact fields_trans l k v hm w u h h'
termination_by structural x => x

theorem field_trans : ∀ p : Text × JsValue, ∀ w u, columnValuesEqual p.2 w = true →
    columnValuesEqual w u = true → columnValuesEqual p.2 u = true
  | (_, v), w, u, h, h' => columnValuesEqual_trans v w u h h'
termination_by structural x => x

end

/-! ## Lawful strategies -/

/-- The same stamp, and values that the engine takes for equal. -/
def EqualEntry (a b : ColumnEntry) : Prop :=
  a.hlc = b.hlc ∧ columnValuesEqual a.value b.value = true

instance (a b : ColumnEntry) : Decidable (EqualEntry a b) :=
  inferInstanceAs (Decidable (_ ∧ _))

/-- What `MergeFunction` asks of a custom merge, on a set of entries. -/
structure LawfulMerge (D : Set ColumnEntry) (merge : ColumnEntry → ColumnEntry → ColumnEntry) :
    Prop where
  plain : ∀ {a}, a ∈ D → a.value.Plain
  closed : ∀ {a b}, a ∈ D → b ∈ D → merge a b ∈ D
  hlc_ne_nil : ∀ {a b}, a ∈ D → b ∈ D → (merge a b).hlc ≠ []
  deterministic : ∀ {a a' b b'}, a ∈ D → a' ∈ D → b ∈ D → b' ∈ D → EqualEntry a a' →
    EqualEntry b b' → EqualEntry (merge a b) (merge a' b')
  commutative : ∀ {a b}, a ∈ D → b ∈ D → EqualEntry (merge a b) (merge b a)
  associative : ∀ {a b c}, a ∈ D → b ∈ D → c ∈ D →
    EqualEntry (merge (merge a b) c) (merge a (merge b c))
  idempotent : ∀ {a}, a ∈ D → EqualEntry (merge a a) a

variable {D : Set ColumnEntry}

theorem LawfulMerge.lawful {merge : ColumnEntry → ColumnEntry → ColumnEntry}
    (h : LawfulMerge D merge) :
    Lawful D EqualEntry merge where
  symm ha hb hab := ⟨hab.1.symm, columnValuesEqual_symm _ _ (h.plain ha) (h.plain hb) hab.2⟩
  trans _ _ _ hab hbc := ⟨hab.1.trans hbc.1, columnValuesEqual_trans _ _ _ hab.2 hbc.2⟩
  closed := h.closed
  congr := h.deterministic
  comm := h.commutative
  assoc := h.associative
  idem := h.idempotent

theorem LawfulMerge.stamped {merge : ColumnEntry → ColumnEntry → ColumnEntry}
    (h : LawfulMerge D merge) :
    LawfulMerge { e ∈ D | e.hlc ≠ [] } merge where
  plain ha := h.plain ha.1
  closed ha hb := ⟨h.closed ha.1 hb.1, h.hlc_ne_nil ha.1 hb.1⟩
  hlc_ne_nil ha hb := h.hlc_ne_nil ha.1 hb.1
  deterministic ha ha' hb hb' := h.deterministic ha.1 ha'.1 hb.1 hb'.1
  commutative ha hb := h.commutative ha.1 hb.1
  associative ha hb hc := h.associative ha.1 hb.1 hc.1
  idempotent ha := h.idempotent ha.1

/-! ## What a schema declares -/

/-- The strategy that a schema has for a column as a property: of the field, of the table, of the
database, or `"lww"`. -/
def declaredStrategy (schema : Option DatabaseSchemaDefinition) (table field : Text) :
    MergeStrategy :=
  let databaseLevel := (schema.bind fun s => s.mergeStrategy).getD .lww
  match schema.bind fun s => (s.tables.get table).join with
  | some (.strategy s) => s
  | some (.config c) =>
    (c.fields.bind fun fields => fields.get field).getD (c.strategy.getD databaseLevel)
  | none => databaseLevel

/-- What is declared is what is resolved, unless the `fields` object inherits the name. -/
theorem resolveStrategy_eq_declared {schema : Option DatabaseSchemaDefinition} {table field : Text}
    (h : HasFields schema table → field ∉ inheritedNames) :
    resolveStrategy schema table field =
      requireConvergentStrategy table field (declaredStrategy schema table field) := by
  have hdatabase : ∀ o : Option MergeStrategy,
      (o.map (requireConvergentStrategy table field)).getD (.ok .lww) =
        requireConvergentStrategy table field (o.getD .lww) := by
    intro o
    cases o <;> rfl
  simp only [resolveStrategy, declaredStrategy]
  cases htable : schema.bind fun s => (s.tables.get table).join with
  | none => exact hdatabase _
  | some merge =>
    cases merge with
    | strategy s => rfl
    | config c =>
      have hfield : fieldStrategy c.fields field = c.fields.bind fun fields => fields.get field := by
        cases hfields : c.fields with
        | none => rfl
        | some fields =>
          have hown := h ⟨c, htable, by rw [hfields]; rfl⟩
          simp only [fieldStrategy, bind_some, if_neg hown, or_none]
      dsimp only
      rw [hfield, hdatabase]
      cases c.fields.bind fun fields => fields.get field with
      | some s => rfl
      | none => cases c.strategy <;> rfl

/-- A column merges by `join`: that is what `mergeColumn` does with the strategy of the column, on
the entries in `D`. -/
structure MergesBy (schema : Option DatabaseSchemaDefinition) (table rowId field : Text)
    (D : Set ColumnEntry) (join : ColumnEntry → ColumnEntry → ColumnEntry) : Prop where
  lawful : Lawful D EqualEntry join
  merges : ∀ incoming ∈ D, ∃ strategy, resolveStrategy schema table field = .ok strategy ∧
    ∀ old ∈ D, ∃ r, mergeColumn (some old) incoming strategy table rowId field = .ok r ∧
      r.getD old ∈ D ∧ EqualEntry (r.getD old) (join old incoming)

variable {schema : Option DatabaseSchemaDefinition} {table rowId field : Text}

theorem mergesBy_empty (join : ColumnEntry → ColumnEntry → ColumnEntry) :
    MergesBy schema table rowId field ∅ join where
  lawful := by constructor <;> exact fun h => absurd h (Set.notMem_empty _)
  merges incoming h := absurd h (Set.notMem_empty incoming)

/-- **A lawful custom merge.**  Keeping the entry there is, where the result is equal to it, keeps
an equal one. -/
theorem mergesBy_custom {merge : ColumnEntry → ColumnEntry → MergeContext → ColumnEntry}
    (hres : resolveStrategy schema table field = .ok (.custom merge))
    (h : LawfulMerge D fun a b => merge a b ⟨table, rowId, field⟩) :
    MergesBy schema table rowId field { e ∈ D | e.hlc ≠ [] }
      fun a b => merge a b ⟨table, rowId, field⟩ := by
  have hl := h.stamped.lawful
  refine ⟨hl, fun incoming hin => ⟨.custom merge, hres, fun old hold => ?_⟩⟩
  have hresult := hl.closed hold hin
  simp only [mergeColumn, if_neg hold.2]
  split_ifs with hchanged
  · exact ⟨_, rfl, hresult, hl.refl hresult⟩
  · refine ⟨none, rfl, hold, hl.symm hresult hold ?_⟩
    obtain ⟨hhlc, hvalue⟩ := not_or.1 hchanged
    exact ⟨not_not.1 hhlc, by simpa using hvalue⟩

/-- The entry with the later stamp; the first one of two with one stamp. -/
def later (a b : ColumnEntry) : ColumnEntry := if stampOf a.hlc < stampOf b.hlc then b else a

/-- Entries with one stamp have equal values. -/
def AgreeOn (D : Set ColumnEntry) : Prop :=
  ∀ a ∈ D, ∀ b ∈ D, a.hlc = b.hlc → columnValuesEqual a.value b.value = true

theorem stampOf_later (a b : ColumnEntry) :
    stampOf (later a b).hlc = max (stampOf a.hlc) (stampOf b.hlc) := by
  unfold later
  split_ifs with h
  · rw [max_eq_right h.le]
  · rw [max_eq_left (not_lt.1 h)]

/-- **The last writer wins, as a lawful merge.** -/
theorem lawful_later (hser : ∀ e ∈ D, Serialized e.hlc) (hagree : AgreeOn D) :
    Lawful D EqualEntry later := by
  have hclosed : ∀ {a b}, a ∈ D → b ∈ D → later a b ∈ D := by
    intro a b ha hb
    unfold later
    split_ifs
    · exact hb
    · exact ha
  -- on `D` entries are equal as soon as their stamps are
  have hequal : ∀ {a b}, a ∈ D → b ∈ D → stampOf a.hlc = stampOf b.hlc → EqualEntry a b := by
    intro a b ha hb hstamp
    have hhlc := ((hser a ha).stampOf_inj (hser b hb)).1 hstamp
    exact ⟨hhlc, hagree a ha b hb hhlc⟩
  constructor
  · intro a b ha hb hab
    exact hequal hb ha (congrArg stampOf hab.1.symm)
  · intro a b c ha hb hc hab hbc
    exact hequal ha hc (congrArg stampOf (hab.1.trans hbc.1))
  · exact hclosed
  · intro a a' b b' ha ha' hb hb' haa hbb
    refine hequal (hclosed ha hb) (hclosed ha' hb') ?_
    rw [stampOf_later, stampOf_later, haa.1, hbb.1]
  · intro a b ha hb
    refine hequal (hclosed ha hb) (hclosed hb ha) ?_
    rw [stampOf_later, stampOf_later, max_comm]
  · intro a b c ha hb hc
    refine hequal (hclosed (hclosed ha hb) hc) (hclosed ha (hclosed hb hc)) ?_
    rw [stampOf_later, stampOf_later, stampOf_later, stampOf_later, max_assoc]
  · intro a ha
    refine hequal (hclosed ha ha) ha ?_
    rw [stampOf_later, max_self]

theorem mergesBy_lww (hres : resolveStrategy schema table field = .ok .lww)
    (hser : ∀ e ∈ D, Serialized e.hlc) (hagree : AgreeOn D) :
    MergesBy schema table rowId field D later := by
  have hl := lawful_later hser hagree
  refine ⟨hl, fun incoming hin => ⟨.lww, hres, fun old hold => ?_⟩⟩
  rw [mergeColumn_lww table rowId field (hser old hold) (hser incoming hin)
    (hagree old hold incoming hin)]
  unfold later
  split_ifs
  · exact ⟨_, rfl, hin, hl.refl hin⟩
  · exact ⟨_, rfl, hold, hl.refl hold⟩

/-- The columns of a schema whose strategies are `"lww"` and custom functions, on whichever level,
with the entries `W` written to them: the entries have canonical stamps, those of a last-writer-wins
column with one stamp have equal values, and the custom functions are lawful on a set that holds
the entries of their column. -/
structure LawfulColumns (schema : Option DatabaseSchemaDefinition)
    (W : Text → Text → Text → Set ColumnEntry) : Prop where
  stamps : ∀ table rowId field, ∀ e ∈ W table rowId field, Serialized e.hlc
  supported : ∀ table field, declaredStrategy schema table field = .lww ∨
    ∃ merge, declaredStrategy schema table field = .custom merge
  lww : ∀ table rowId field, declaredStrategy schema table field = .lww →
    AgreeOn (W table rowId field)
  custom : ∀ table rowId field merge, declaredStrategy schema table field = .custom merge →
    ∃ D, W table rowId field ⊆ D ∧ LawfulMerge D fun a b => merge a b ⟨table, rowId, field⟩

/-- **Every column of such a schema has a merge**, which is the custom function if it has one, if
no name that is written to is inherited by a `fields` object. -/
theorem LawfulColumns.exists_mergesBy {W : Text → Text → Text → Set ColumnEntry}
    (h : LawfulColumns schema W) (table rowId field : Text)
    (hown : (W table rowId field).Nonempty → HasFields schema table → field ∉ inheritedNames) :
    ∃ D join, W table rowId field ⊆ D ∧ (∀ e ∈ D, e.hlc ≠ []) ∧
      MergesBy schema table rowId field D join ∧
      ∀ merge, declaredStrategy schema table field = .custom merge →
        join = fun a b => merge a b ⟨table, rowId, field⟩ := by
  have hstamps := h.stamps table rowId field
  rcases (W table rowId field).eq_empty_or_nonempty with hempty | hne
  · rcases h.supported table field with hlww | ⟨merge, hmerge⟩
    · refine ⟨∅, later, hempty.subset, fun e he => absurd he (Set.notMem_empty e),
        mergesBy_empty later, fun merge hmerge => absurd (hlww.symm.trans hmerge) (by simp)⟩
    · refine ⟨∅, fun a b => merge a b ⟨table, rowId, field⟩, hempty.subset,
        fun e he => absurd he (Set.notMem_empty e), mergesBy_empty _, fun merge' hmerge' => ?_⟩
      obtain rfl : merge = merge' := by simpa using hmerge.symm.trans hmerge'
      rfl
  · have hres := resolveStrategy_eq_declared (hown hne)
    rcases h.supported table field with hlww | ⟨merge, hmerge⟩
    · rw [hlww] at hres
      exact ⟨_, later, subset_rfl, fun e he => (hstamps e he).ne_nil,
        mergesBy_lww hres hstamps (h.lww table rowId field hlww),
        fun merge hmerge => absurd (hlww.symm.trans hmerge) (by simp)⟩
    · rw [hmerge] at hres
      obtain ⟨D, hsub, hlawful⟩ := h.custom table rowId field merge hmerge
      refine ⟨_, _, fun e he => ?_, fun e he => he.2, mergesBy_custom hres hlawful,
        fun merge' hmerge' => ?_⟩
      · exact ⟨hsub he, (hstamps e he).ne_nil⟩
      · obtain rfl : merge = merge' := by simpa using hmerge.symm.trans hmerge'
        rfl

/-! ## One op -/

/-- What becomes of the entry of a column when an entry comes in for it, or none. -/
def Takes (D : Set ColumnEntry) (join : ColumnEntry → ColumnEntry → ColumnEntry) :
    Option ColumnEntry → Option ColumnEntry → Option ColumnEntry → Prop
  | old, none, after => after = old
  | none, some x, after => after = some x
  | some old, some x, after => ∃ e ∈ D, after = some e ∧ EqualEntry e (join old x)

section Row

variable {D : Text → Set ColumnEntry} {join : Text → ColumnEntry → ColumnEntry → ColumnEntry}
  (hm : ∀ col, MergesBy schema table rowId col (D col) (join col))

include hm

/-- **The column loop merges each entry into its column**, and reports no change only when the
payload is as it was. -/
theorem applyColumns_takes {cols : List (Text × ColumnEntry)}
    (hnodup : (cols.map Prod.fst).Nodup) (hD : ∀ p ∈ cols, p.2 ∈ D p.1)
    {payload : Record Text ColumnEntry} (changed : Bool)
    (hpayload : ∀ col e, payload.get col = some e → e ∈ D col) :
    ∃ payload' changed', applyColumns schema table rowId cols payload changed =
        .ok (payload', changed') ∧
      (∀ col, Takes (D col) (join col) (payload.get col) (find col cols) (payload'.get col)) ∧
      (changed' = false → payload' = payload ∧ changed = false) := by
  induction cols generalizing payload changed with
  | nil => exact ⟨payload, changed, rfl, fun _ => rfl, fun h => ⟨rfl, h⟩⟩
  | cons p cols ih =>
    obtain ⟨col, entry⟩ := p
    rw [map_cons, nodup_cons] at hnodup
    have hentry : entry ∈ D col := hD _ mem_cons_self
    have hrest : ∀ q ∈ cols, q.2 ∈ D q.1 := fun q hq => hD q (mem_cons_of_mem _ hq)
    -- the rest of the loop leaves this column, because no name occurs twice
    have hfind : find col cols = none := find_eq_none_iff.2 hnodup.1
    obtain ⟨strategy, hres, hmerge⟩ := (hm col).merges entry hentry
    have htake : ∀ e ∈ D col,
        Takes (D col) (join col) (payload.get col) (some entry) (some e) →
        ∃ payload' changed', applyColumns schema table rowId cols (payload.set col e) true =
            .ok (payload', changed') ∧
          (∀ c, Takes (D c) (join c) (payload.get c) (find c ((col, entry) :: cols))
            (payload'.get c)) ∧
          (changed' = false → payload' = payload ∧ changed = false) := by
      intro e he htakes
      have hset : ∀ c e', (payload.set col e).get c = some e' → e' ∈ D c := by
        intro c e' hc
        by_cases hcc : col = c
        · subst hcc
          rw [Record.get_set_self, some.injEq] at hc
          exact hc ▸ he
        · rw [Record.get_set_ne _ _ hcc] at hc
          exact hpayload c e' hc
      obtain ⟨payload', changed', heq, hall, hch⟩ := ih hnodup.2 hrest true hset
      refine ⟨payload', changed', heq, ?_, fun h => absurd (hch h).2 (by simp)⟩
      intro c
      have hc := hall c
      by_cases hcc : col = c
      · subst hcc
        rw [hfind, Record.get_set_self] at hc
        rw [find, if_pos rfl, show payload'.get col = some e from hc]
        exact htakes
      · rw [Record.get_set_ne _ _ hcc] at hc
        rw [find, if_neg hcc]
        exact hc
    rw [applyColumns, hres]
    cases hget : payload.get col with
    | none =>
      refine htake entry hentry ?_
      rw [hget]
      rfl
    | some old =>
      obtain ⟨r, hr, hrD, hsame⟩ := hmerge old (hpayload col old hget)
      have htakes : Takes (D col) (join col) (some old) (some entry) (some (r.getD old)) :=
        ⟨_, hrD, rfl, hsame⟩
      simp only [hr]
      cases r with
      | some winner =>
        refine htake winner hrD ?_
        rw [hget]
        exact htakes
      | none =>
        -- nothing is stored, and what is there is equal to the merged entry
        obtain ⟨payload', changed', heq, hall, hch⟩ := ih hnodup.2 hrest changed hpayload
        refine ⟨payload', changed', heq, ?_, hch⟩
        intro c
        have hc := hall c
        by_cases hcc : col = c
        · subst hcc
          rw [hfind, hget] at hc
          rw [find, if_pos rfl, hget, show payload'.get col = some old from hc]
          exact htakes
        · rw [find, if_neg hcc]
          exact hc

/-- **An upsert merges its entries into the row**, if there is no tombstone.  The row that is not
stored again is as it should be. -/
theorem applyUpsert_takes {existing : Option Row}
    (hlive : ∀ row, existing = some row → row._meta.deleted = false)
    (hexisting : ∀ row col e, existing = some row → row.payload.get col = some e → e ∈ D col)
    {columns : Record Text ColumnEntry} (hD : ∀ col e, columns.get col = some e → e ∈ D col)
    (v : ℕ) :
    ∃ res row, applyUpsert existing table rowId columns v schema = .ok res ∧
      res.or existing = some row ∧
      row._meta = (existing.getD (blankRow table rowId v false none))._meta ∧
      ∀ col, Takes (D col) (join col) (existing.bind fun r => r.payload.get col)
        (columns.get col) (row.payload.get col) := by
  have hstart : ∀ col, (existing.getD (blankRow table rowId v false none)).payload.get col =
      existing.bind fun r => r.payload.get col := by
    intro col
    cases existing <;> rfl
  have hpayload : ∀ col e, (existing.getD (blankRow table rowId v false none)).payload.get col =
      some e → e ∈ D col := by
    intro col e he
    rw [hstart] at he
    obtain ⟨row, hrow, hget⟩ := bind_eq_some_iff.1 he
    exact hexisting row col e hrow hget
  have hentries : ∀ p ∈ columns.entries, p.2 ∈ D p.1 := fun p hp =>
    hD p.1 p.2 (Record.mem_entries_iff.1 hp)
  obtain ⟨payload', changed', heq, hall, hch⟩ := applyColumns_takes hm columns.nodup hentries
    existing.isNone hpayload
  have hbranch : (if (existing.getD (blankRow table rowId v false none))._meta.deleted then
      truthy (existing.getD (blankRow table rowId v false none))._meta.deletedHlc else none) =
      none := by
    cases existing with
    | none => rfl
    | some row =>
      rw [getD_some, hlive row rfl]
      rfl
  have hcolumns : ∀ col, Takes (D col) (join col) (existing.bind fun r => r.payload.get col)
      (columns.get col) (payload'.get col) := by
    intro col
    rw [← hstart col]
    exact hall col
  simp only [applyUpsert, hbranch, heq]
  cases changed' with
  | true => exact ⟨_, _, rfl, some_or, rfl, hcolumns⟩
  | false =>
    obtain ⟨rfl, hisNone⟩ := hch rfl
    cases existing with
    | none => exact absurd hisNone (by simp)
    | some row => exact ⟨none, row, rfl, rfl, rfl, hcolumns⟩

/-- The same for the tables: the addressed row takes the entries, and no other row changes. -/
theorem applyOp_takes {tables : Tables}
    (hlive : ∀ row, rowAt tables table rowId = some row → row._meta.deleted = false)
    (htables : ∀ row col e, rowAt tables table rowId = some row → row.payload.get col = some e →
      e ∈ D col)
    {columns : Record Text ColumnEntry} (hD : ∀ col e, columns.get col = some e → e ∈ D col)
    (v : ℕ) :
    ∃ res tables' row,
      applyOp tables (.upsert table rowId columns) v schema = .ok (res, tables') ∧
      rowAt tables' table rowId = some row ∧
      row._meta = ((rowAt tables table rowId).getD (blankRow table rowId v false none))._meta ∧
      (∀ col, Takes (D col) (join col)
        ((rowAt tables table rowId).bind fun r => r.payload.get col) (columns.get col)
        (row.payload.get col)) ∧
      ∀ t r, ¬ (table = t ∧ rowId = r) → rowAt tables' t r = rowAt tables t r := by
  obtain ⟨res, row, hres, hor, hmeta, htakes⟩ := applyUpsert_takes hm hlive htables hD v
  have happly : applyToRow (rowAt tables table rowId) (.upsert table rowId columns) v schema =
      .ok res := hres
  obtain ⟨tables', hop⟩ : ∃ tables', applyOp tables (.upsert table rowId columns) v schema =
      .ok (res, tables') := by
    simp only [applyOp, rowAt_of_tables_get, Op.table, Op.rowId, happly]
    cases res with
    | none => exact ⟨_, rfl⟩
    | some row => exact ⟨_, rfl⟩
  refine ⟨res, tables', row, hop, ?_, hmeta, htakes, ?_⟩
  · have hat := (rowAt_applyOp hop table rowId).2
    exact (hat.trans (if_pos ⟨rfl, rfl⟩)).trans hor
  · intro t r hne
    have hat := (rowAt_applyOp hop t r).2
    exact hat.trans (if_neg hne)

end Row

/-! ## Runs -/

/-- Folding `applyOp` over a list of ops from empty tables, with a schema. -/
def foldOps (schemaVersion : ℕ) (schema : Option DatabaseSchemaDefinition) (ops : List Op) :
    Except MergeError Tables :=
  ops.foldlM (fun tables op => (applyOp tables op schemaVersion schema).map Prod.snd) ∅

/-- The op is not a delete. -/
def Op.IsUpsert : Op → Prop
  | .upsert _ _ _ => True
  | .delete _ _ _ => False

/-- The entries that ops write to a column. -/
def writtenTo (ops : List Op) (table rowId col : Text) : Set ColumnEntry :=
  { e | ∃ op ∈ ops, op.table = table ∧ op.rowId = rowId ∧ op.entryAt col = some e }

/-- A set with the entry that came in for the column. -/
def addFound (S : Set ColumnEntry) : Option ColumnEntry → Set ColumnEntry
  | none => S
  | some x => insert x S

/-- The same payloads: the same rows, in them the same columns, in those equal entries. -/
def SamePayloads (s t : Tables) : Prop :=
  ∀ table rowId, Option.Rel
    (fun a b : Row => ∀ col, Option.Rel EqualEntry (a.payload.get col) (b.payload.get col))
    (rowAt s table rowId) (rowAt t table rowId)

theorem writtenTo_congr {ops ops' : List Op} (h : ∀ op, op ∈ ops ↔ op ∈ ops')
    (table rowId col : Text) : writtenTo ops table rowId col = writtenTo ops' table rowId col := by
  ext e
  simp only [writtenTo, Set.mem_ofPred_eq, h]

theorem writtenTo_append_other (ops : List Op) (op : Op) {table rowId : Text}
    (h : ¬ (op.table = table ∧ op.rowId = rowId)) (col : Text) :
    writtenTo (ops ++ [op]) table rowId col = writtenTo ops table rowId col := by
  ext e
  simp only [writtenTo, Set.mem_ofPred_eq, mem_append, mem_singleton]
  constructor
  · rintro ⟨o, ho | rfl, ht, hr, he⟩
    · exact ⟨o, ho, ht, hr, he⟩
    · exact absurd ⟨ht, hr⟩ h
  · rintro ⟨o, ho, hrest⟩
    exact ⟨o, .inl ho, hrest⟩

theorem writtenTo_append_self (ops : List Op) (table rowId : Text)
    (columns : Record Text ColumnEntry) (col : Text) :
    writtenTo (ops ++ [.upsert table rowId columns]) table rowId col =
      addFound (writtenTo ops table rowId col) (columns.get col) := by
  ext e
  simp only [writtenTo, Set.mem_ofPred_eq, mem_append, mem_singleton]
  constructor
  · rintro ⟨o, ho | rfl, ht, hr, he⟩
    · cases columns.get col with
      | none => exact ⟨o, ho, ht, hr, he⟩
      | some x => exact .inr ⟨o, ho, ht, hr, he⟩
    · rw [show columns.get col = some e from he]
      exact .inl rfl
  · intro h
    cases hx : columns.get col with
    | none =>
      rw [hx] at h
      obtain ⟨o, ho, hrest⟩ := h
      exact ⟨o, .inl ho, hrest⟩
    | some x =>
      rw [hx] at h
      rcases h with rfl | ⟨o, ho, hrest⟩
      · exact ⟨_, .inr rfl, rfl, rfl, hx⟩
      · exact ⟨o, .inl ho, hrest⟩

section Runs

variable {D : Text → Text → Text → Set ColumnEntry}
  {join : Text → Text → Text → ColumnEntry → ColumnEntry → ColumnEntry}
  (hm : ∀ table rowId col, MergesBy schema table rowId col (D table rowId col)
    (join table rowId col))

theorem gathers_of_takes {D : Set ColumnEntry} {join : ColumnEntry → ColumnEntry → ColumnEntry}
    (hl : Lawful D EqualEntry join) {S : Set ColumnEntry} {old new after : Option ColumnEntry}
    (hS : hl.Gathers S old) (hnew : ∀ x, new = some x → x ∈ D)
    (h : Takes D join old new after) : hl.Gathers (addFound S new) after := by
  cases new with
  | none =>
    rw [show after = old from h]
    exact hS
  | some x =>
    have hx := hnew x rfl
    cases old with
    | none =>
      rw [show after = some x from h]
      exact hS.first hx
    | some old =>
      obtain ⟨e, he, rfl, hsame⟩ := h
      exact hS.next hx he hsame

/-- What is known of the row at a table and a row id after some upserts: it is there if it was
written to, and each of its columns is merged from what was written to it. -/
structure MergedAt (ops : List Op) (table rowId : Text) (existing : Option Row) : Prop where
  present : existing.isSome = true ↔ ∃ op ∈ ops, op.table = table ∧ op.rowId = rowId
  live : ∀ row, existing = some row → row._meta.deleted = false
  column : ∀ col, (hm table rowId col).lawful.Gathers (writtenTo ops table rowId col)
    (existing.bind fun row => row.payload.get col)

variable {ops : List Op}

theorem MergedAt.mem {table rowId : Text} {existing : Option Row}
    (h : MergedAt hm ops table rowId existing) {row : Row} {col : Text} {e : ColumnEntry}
    (hrow : existing = some row) (he : row.payload.get col = some e) : e ∈ D table rowId col := by
  have hcol := h.column col
  rw [hrow, bind_some, he] at hcol
  exact hcol.2.mem

theorem mergedAt_applyOp {tables : Tables}
    (h : ∀ table rowId, MergedAt hm ops table rowId (rowAt tables table rowId)) {op : Op}
    (hup : op.IsUpsert) (hD : ∀ col e, op.entryAt col = some e → e ∈ D op.table op.rowId col)
    (v : ℕ) :
    ∃ tables', (applyOp tables op v schema).map Prod.snd = .ok tables' ∧
      ∀ table rowId, MergedAt hm (ops ++ [op]) table rowId (rowAt tables' table rowId) := by
  cases op with
  | delete _ _ _ => exact absurd hup id
  | upsert t r columns =>
    have hbefore := h t r
    obtain ⟨res, tables', row, hop, hrow, hmeta, htakes, hother⟩ := applyOp_takes (hm t r)
      hbefore.live (fun row col e => hbefore.mem hm) hD v
    refine ⟨tables', by rw [hop]; rfl, ?_⟩
    intro table rowId
    by_cases haddr : t = table ∧ r = rowId
    · obtain ⟨rfl, rfl⟩ := haddr
      rw [hrow]
      refine ⟨?_, ?_, ?_⟩
      · exact iff_of_true rfl ⟨_, mem_append_right _ (mem_singleton_self _), rfl, rfl⟩
      · intro row' hrow'
        obtain rfl := some.inj hrow'
        rw [hmeta]
        cases hold : rowAt tables t r with
        | none => rfl
        | some old => exact hbefore.live old hold
      · intro col
        rw [writtenTo_append_self]
        exact gathers_of_takes _ (hbefore.column col) (hD col) (htakes col)
    · rw [hother table rowId haddr]
      have hold := h table rowId
      refine ⟨hold.present.trans ?_, hold.live, ?_⟩
      · constructor
        · rintro ⟨o, ho, hoa⟩
          exact ⟨o, mem_append_left _ ho, hoa⟩
        · rintro ⟨o, ho, hoa⟩
          rcases mem_append.1 ho with ho | ho
          · exact ⟨o, ho, hoa⟩
          · rw [mem_singleton.1 ho] at hoa
            exact absurd hoa haddr
      · intro col
        rw [writtenTo_append_other ops (.upsert t r columns) haddr col]
        exact hold.column col

/-- **A whole run of upserts**: nothing raises, and every column is merged from what was written to
it. -/
theorem merged_foldOps (v : ℕ) (hup : ∀ op ∈ ops, op.IsUpsert)
    (hD : ∀ table rowId col, writtenTo ops table rowId col ⊆ D table rowId col) :
    ∃ tables, foldOps v schema ops = .ok tables ∧
      ∀ table rowId, MergedAt hm ops table rowId (rowAt tables table rowId) := by
  induction ops using List.reverseRecOn with
  | nil =>
    refine ⟨∅, rfl, ?_⟩
    intro table rowId
    have hnone : rowAt (∅ : Tables) table rowId = none := by
      rw [rowAt, Record.get_empty]
      rfl
    rw [hnone]
    refine ⟨by simp, fun row hrow => absurd hrow (by simp), ?_⟩
    intro col
    refine Set.eq_empty_iff_forall_notMem.2 ?_
    rintro e ⟨op, hop, -⟩
    exact absurd hop (by simp)
  | append_singleton ops op ih =>
    have hprev : ∀ table rowId col, writtenTo ops table rowId col ⊆ D table rowId col := by
      rintro table rowId col e ⟨o, ho, hrest⟩
      exact hD table rowId col ⟨o, mem_append_left _ ho, hrest⟩
    obtain ⟨tables, hfold, hall⟩ := ih (fun o ho => hup o (mem_append_left _ ho)) hprev
    have hlast : op ∈ ops ++ [op] := mem_append_right _ (mem_singleton_self op)
    obtain ⟨tables', hop, hall'⟩ := mergedAt_applyOp hm hall (hup op hlast)
      (fun col e he => hD _ _ _ ⟨op, hlast, rfl, rfl, he⟩) v
    refine ⟨tables', ?_, hall'⟩
    unfold foldOps at hfold ⊢
    rw [foldlM_append, hfold]
    exact (congrArg (· >>= pure) hop).trans rfl

/-- Two rows merged from the same entries have equal payloads. -/
theorem MergedAt.samePayloads {ops ops' : List Op} (hops : ∀ op, op ∈ ops ↔ op ∈ ops')
    {table rowId : Text} {a b : Option Row} (ha : MergedAt hm ops table rowId a)
    (hb : MergedAt hm ops' table rowId b) :
    Option.Rel
      (fun a b : Row => ∀ col, Option.Rel EqualEntry (a.payload.get col) (b.payload.get col))
      a b := by
  have hboth : a.isSome = true ↔ b.isSome = true := by
    rw [ha.present, hb.present]
    simp only [hops]
  have hcolumn : ∀ col, Option.Rel EqualEntry (a.bind fun row => row.payload.get col)
      (b.bind fun row => row.payload.get col) := by
    intro col
    have hcol := ha.column col
    rw [writtenTo_congr hops] at hcol
    exact hcol.unique (hb.column col)
  cases a with
  | none =>
    cases b with
    | none => exact .none
    | some row => exact absurd (hboth.2 rfl) (by simp)
  | some row =>
    cases b with
    | none => exact absurd (hboth.1 rfl) (by simp)
    | some row' => exact .some hcolumn

end Runs

/-- Nothing raises, and the payloads are equal, whichever way the ops are ordered and repeated. -/
def MergesConverge (v : ℕ) (schema : Option DatabaseSchemaDefinition) (ops : List Op) : Prop :=
  ∀ ops₁ ops₂ : List Op, (∀ op, op ∈ ops₁ ↔ op ∈ ops) → (∀ op, op ∈ ops₂ ↔ op ∈ ops) →
    ∃ s t, PlainKeys.foldOps v schema ops₁ .empty = .ok s ∧
      PlainKeys.foldOps v schema ops₂ .empty = .ok t ∧ SamePayloads (mapsOf s) (mapsOf t)

theorem plain_foldOps_ok {v : ℕ} {schema : Option DatabaseSchemaDefinition} {ops : List Op}
    (hnames : ∀ op ∈ ops, op.Ordinary) {tables : Tables} (h : foldOps v schema ops = .ok tables) :
    PlainKeys.foldOps v schema ops .empty = .ok (tablesOf tables) := by
  rw [foldOps] at h
  exact (PlainKeys.foldOps_eq v schema hnames ∅).trans (by rw [h]; rfl)

/-- **Lawful custom merges converge**, if the ops have ordinary names and no column is one that the
`fields` object of its table inherits. -/
theorem lawful_merges_converge (v : ℕ) (schema : Option DatabaseSchemaDefinition) {ops : List Op}
    (hup : ∀ op ∈ ops, op.IsUpsert) (hnames : ∀ op ∈ ops, op.Ordinary)
    (hown : ∀ op ∈ ops, HasFields schema op.table → ∀ c ∈ op.columnNames, c ∉ inheritedNames)
    (h : LawfulColumns schema (writtenTo ops)) : MergesConverge v schema ops := by
  have hwritten : ∀ table rowId col, (writtenTo ops table rowId col).Nonempty →
      HasFields schema table → col ∉ inheritedNames := by
    rintro table rowId col ⟨e, op, hop, rfl, -, he⟩ hfields
    cases op with
    | delete _ _ _ => exact absurd (hup _ hop) id
    | upsert _ _ columns => exact hown _ hop hfields col (Record.mem_keys_iff.mpr ⟨e, he⟩)
  have hmerges := fun table rowId col => h.exists_mergesBy table rowId col (hwritten table rowId col)
  choose D join hsub _ hm _ using hmerges
  have hrun : ∀ ops' : List Op, (∀ op, op ∈ ops' ↔ op ∈ ops) → ∃ tables,
      PlainKeys.foldOps v schema ops' .empty = .ok (tablesOf tables) ∧
        ∀ table rowId, MergedAt hm ops' table rowId (rowAt tables table rowId) := by
    intro ops' hops
    obtain ⟨tables, hfold, hrows⟩ := merged_foldOps hm v
      (fun op hop => hup op ((hops op).1 hop)) fun table rowId col => by
        rw [writtenTo_congr hops]
        exact hsub table rowId col
    exact ⟨tables, plain_foldOps_ok (fun op hop => hnames op ((hops op).1 hop)) hfold, hrows⟩
  intro ops₁ ops₂ h₁ h₂
  obtain ⟨s, hs, hsrows⟩ := hrun ops₁ h₁
  obtain ⟨t, ht, htrows⟩ := hrun ops₂ h₂
  refine ⟨_, _, hs, ht, fun table rowId => ?_⟩
  rw [mapsOf_tablesOf, mapsOf_tablesOf]
  exact (hsrows table rowId).samePayloads hm (fun op => (h₁ op).trans (h₂ op).symm)
    (htrows table rowId)

/-! ## Inherited names -/

theorem not_mergesConverge_inherited (v : ℕ) (schema : Option DatabaseSchemaDefinition) {op : Op}
    (h : op.table ∈ inheritedNames ∨ op.rowId ∈ inheritedNames) :
    ¬ MergesConverge v schema [op] := by
  intro hconv
  obtain ⟨s, t, hs, -⟩ := hconv [op] [op] (fun _ => Iff.rfl) fun _ => Iff.rfl
  obtain ⟨fault, hfault⟩ := PlainKeys.applyOp_inherited h v schema
  rw [PlainKeys.foldOps, foldlM_cons, hfault] at hs
  exact absurd hs (by simp [Except.map, bind, Except.bind])

/-- The entry of a column. -/
def columnOf (tables : Tables) (table rowId col : Text) : Option ColumnEntry :=
  (rowAt tables table rowId).bind fun row => row.payload.get col

theorem SamePayloads.columnOf {s t : Tables} (h : SamePayloads s t) (table rowId col : Text) :
    Option.Rel EqualEntry (columnOf s table rowId col) (columnOf t table rowId col) := by
  have hrow := h table rowId
  rw [Interocitor.columnOf, Interocitor.columnOf]
  cases hs : rowAt s table rowId with
  | none =>
    cases ht : rowAt t table rowId with
    | none => exact .none
    | some b =>
      rw [hs, ht] at hrow
      cases hrow
  | some a =>
    cases ht : rowAt t table rowId with
    | none =>
      rw [hs, ht] at hrow
      cases hrow
    | some b =>
      rw [hs, ht] at hrow
      cases hrow with
      | some hab => exact hab col

section Column

variable {schema : Option DatabaseSchemaDefinition} {table rowId col : Text}
  {strategy : MergeStrategy}

/-- A write of one column. -/
def writeOf (table rowId col : Text) (e : ColumnEntry) : Op :=
  .upsert table rowId ((∅ : Record Text ColumnEntry).set col e)

/-- A write of one column to a live row merges the entry into the column. -/
theorem columnOf_applyOp_writeOf (hres : resolveStrategy schema table col = .ok strategy)
    {tables tables' : Tables} {v : ℕ} {e : ColumnEntry}
    (hlive : ∀ row, rowAt tables table rowId = some row → row._meta.deleted = false)
    (h : (applyOp tables (writeOf table rowId col e) v schema).map Prod.snd = .ok tables') :
    (∃ r, mergeColumn (columnOf tables table rowId col) e strategy table rowId col = .ok r ∧
      columnOf tables' table rowId col = r.or (columnOf tables table rowId col)) ∧
      ∀ row, rowAt tables' table rowId = some row → row._meta.deleted = false := by
  cases hop : applyOp tables (writeOf table rowId col e) v schema with
  | error err =>
    rw [hop] at h
    cases h
  | ok out =>
    obtain ⟨res, after⟩ := out
    rw [hop] at h
    obtain rfl : after = tables' := Except.ok.inj h
    obtain ⟨happly, hrow⟩ := rowAt_applyOp hop table rowId
    rw [if_pos ⟨rfl, rfl⟩] at hrow
    change applyUpsert (rowAt tables table rowId) table rowId _ v schema = _ at happly
    have hbase : ((rowAt tables table rowId).getD
          (blankRow table rowId v false none))._meta.deleted = false ∧
        ((rowAt tables table rowId).getD (blankRow table rowId v false none)).payload.get col =
          columnOf tables table rowId col := by
      rw [columnOf]
      cases hold : rowAt tables table rowId with
      | none => exact ⟨rfl, rfl⟩
      | some row => exact ⟨hlive row hold, rfl⟩
    have hcols : ((∅ : Record Text ColumnEntry).set col e).entries = [(col, e)] := rfl
    simp only [applyUpsert, hbase.1, hcols, applyColumns, hres, hbase.2, Bool.false_eq_true,
      if_false] at happly
    rw [show columnOf after table rowId col = (res.or (rowAt tables table rowId)).bind
      fun row => row.payload.get col by rw [columnOf, hrow], hrow]
    cases hmerge : mergeColumn (columnOf tables table rowId col) e strategy table rowId col with
    | error err =>
      rw [hmerge] at happly
      cases happly
    | ok r =>
      rw [hmerge] at happly
      cases r with
      | some winner =>
        obtain rfl := Except.ok.inj happly
        refine ⟨⟨some winner, rfl, Record.get_set_self _ _ _⟩, fun row hsome => ?_⟩
        · obtain rfl := some.inj hsome
          exact hbase.1
      | none =>
        cases hold : rowAt tables table rowId with
        | none =>
          rw [columnOf, hold] at hmerge
          exact absurd hmerge (by simp [mergeColumn])
        | some row =>
          rw [hold] at happly
          obtain rfl := Except.ok.inj happly
          refine ⟨⟨none, rfl, ?_⟩, fun row' hsome => hlive row' (hold.trans hsome)⟩
          rw [columnOf, hold]
          rfl

/-- Entries that are merged into a column one after the other. -/
def mergeInto (strategy : MergeStrategy) (table rowId col : Text) (l : List ColumnEntry)
    (old : Option ColumnEntry) : Except MergeError (Option ColumnEntry) :=
  l.foldlM (fun old e => (mergeColumn old e strategy table rowId col).map fun r => r.or old) old

/-- **Writes to one column** are merged one after the other. -/
theorem columnOf_foldOps_writeOf (hres : resolveStrategy schema table col = .ok strategy) (v : ℕ)
    {l : List ColumnEntry} {tables tables' : Tables}
    (hlive : ∀ row, rowAt tables table rowId = some row → row._meta.deleted = false)
    (h : (l.map (writeOf table rowId col)).foldlM (fun tables op =>
      (applyOp tables op v schema).map Prod.snd) tables = .ok tables') :
    mergeInto strategy table rowId col l (columnOf tables table rowId col) =
      .ok (columnOf tables' table rowId col) := by
  induction l generalizing tables with
  | nil => rw [← Except.ok.inj h]; rfl
  | cons e l ih =>
    rw [map_cons, foldlM_cons] at h
    cases hop : (applyOp tables (writeOf table rowId col e) v schema).map Prod.snd with
    | error err =>
      rw [hop] at h
      cases h
    | ok after =>
      rw [hop] at h
      obtain ⟨⟨r, hmerge, hcol⟩, hlive'⟩ := columnOf_applyOp_writeOf hres hlive hop
      rw [mergeInto, foldlM_cons, hmerge]
      change mergeInto strategy table rowId col l
        (r.or (columnOf tables table rowId col)) = _
      rw [← hcol]
      exact ih hlive' h

end Column

/-- A table configured with a `fields` object that has nothing in it. -/
def emptyFields (table : Text) : DatabaseSchemaDefinition where
  version := none
  tables := (∅ : Record Text (Option TableMerge)).set table (some (.config ⟨none, some ∅⟩))
  mergeStrategy := none

theorem hasFields_emptyFields {table table' : Text}
    (h : HasFields (some (emptyFields table)) table') : table' = table := by
  obtain ⟨c, hc, -⟩ := h
  rw [bind_some, emptyFields, Record.get_set] at hc
  split_ifs at hc with heq
  · exact heq.symm
  · exact absurd hc (by simp)

theorem declaredStrategy_emptyFields (table table' field : Text) :
    declaredStrategy (some (emptyFields table)) table' field = .lww := by
  simp only [declaredStrategy, emptyFields, bind_some, Record.get_set]
  split_ifs <;> rfl

/-- Writes of `null` to a column, with these stamps. -/
def writesOf (table rowId col : Text) (counters : List ℕ) : List Op :=
  counters.map fun counter => writeOf table rowId col ⟨.null, stampText ⟨0, counter, [100]⟩⟩

/-- **A column that a `fields` object inherits.**  Under `constructor` the first entry stays, under
`toString` an entry without a stamp takes the place of every second one, and the others throw. -/
theorem not_mergesConverge_column (v : ℕ) {table rowId col : Text} (htable : table ∉ inheritedNames)
    (hrowId : rowId ∉ inheritedNames) (hcol : col ∈ inheritedNames) (hproto : col ≠ protoName) :
    ¬ MergesConverge v (some (emptyFields table)) (writesOf table rowId col [1, 2, 3]) := by
  intro hconv
  have hres : resolveStrategy (some (emptyFields table)) table col =
      .ok (inheritedStrategy col) := by
    simp only [resolveStrategy, emptyFields, bind_some, Record.get_set_self, join_some,
      fieldStrategy, Record.get_empty, if_pos hcol, none_or]
    simp only [inheritedStrategy, if_neg hproto]
    split_ifs <;> rfl
  have hlast : ∀ op, op ∈ writesOf table rowId col [3, 1, 2] ↔
      op ∈ writesOf table rowId col [1, 2, 3] := by
    have hperm : [3, 1, 2].Perm [1, 2, 3] := by decide
    exact fun op => (hperm.map _).mem_iff
  obtain ⟨s, t, hs, ht, hrows⟩ := hconv _ _ (fun _ => Iff.rfl) hlast
  have hmerged : ∀ {counters : List ℕ} {s : PlainKeys.Tables},
      PlainKeys.foldOps v (some (emptyFields table)) (writesOf table rowId col counters) .empty =
        .ok s →
      mergeInto (inheritedStrategy col) table rowId col
          (counters.map fun counter => ⟨.null, stampText ⟨0, counter, [100]⟩⟩) none =
        .ok (columnOf (mapsOf s) table rowId col) := by
    intro counters s hs
    have hordinary : ∀ op ∈ writesOf table rowId col counters, op.Ordinary := by
      intro op hop
      obtain ⟨e, -, rfl⟩ := mem_map.1 hop
      exact ⟨htable, hrowId, fun hmem => hproto (mem_singleton.1 hmem).symm⟩
    have hfold := (PlainKeys.foldOps_eq v (some (emptyFields table)) hordinary ∅).symm.trans hs
    cases hmaps : (writesOf table rowId col counters).foldlM (fun tables op =>
        (applyOp tables op v (some (emptyFields table))).map Prod.snd) (∅ : Tables) with
    | error err =>
      rw [hmaps] at hfold
      cases hfold
    | ok tables =>
      rw [hmaps] at hfold
      obtain rfl := Except.ok.inj hfold
      rw [writesOf, ← Function.comp_def (writeOf table rowId col), ← List.map_map] at hmaps
      rw [mapsOf_tablesOf]
      exact columnOf_foldOps_writeOf hres v (fun row hrow => absurd hrow (by simp [rowAt])) hmaps
  have hsame := hrows.columnOf table rowId col
  have hfirst := hmerged hs
  have hsecond := hmerged ht
  rw [inheritedStrategy] at hfirst hsecond
  split_ifs at hfirst hsecond
  · rw [← Except.ok.inj hfirst, ← Except.ok.inj hsecond] at hsame
    cases hsame with
    | some h => exact absurd h (by decide)
  · rw [← Except.ok.inj hfirst, ← Except.ok.inj hsecond] at hsame
    cases hsame with
    | some h => exact absurd h (by decide)
  · cases hfirst

/-! ## The names for which merges converge -/

/-- Upserts with table names, row ids and column names of these sets, in a database in which these
tables are configured with a `fields` object. -/
structure NamesIn (T R C F : Set Text) (schema : Option DatabaseSchemaDefinition) (op : Op) :
    Prop where
  upsert : op.IsUpsert
  table : op.table ∈ T
  rowId : op.rowId ∈ R
  columns : ∀ c ∈ op.columnNames, c ∈ C
  fields : HasFields schema op.table → op.table ∈ F

/-- Lawful custom merges converge on ops with these names. -/
def LawfulMergesConverge (T R C F : Set Text) : Prop :=
  ∀ (v : ℕ) (schema : Option DatabaseSchemaDefinition) (ops : List Op),
    (∀ op ∈ ops, NamesIn T R C F schema op) → LawfulColumns schema (writtenTo ops) →
      MergesConverge v schema ops

theorem lawfulColumns_writesOf (table rowId col : Text) (counters : List ℕ) :
    LawfulColumns (some (emptyFields table)) (writtenTo (writesOf table rowId col counters)) := by
  have hentry : ∀ t r c, ∀ e ∈ writtenTo (writesOf table rowId col counters) t r c,
      ∃ counter, e = ⟨.null, stampText ⟨0, counter, [100]⟩⟩ := by
    rintro t r c e ⟨op, hop, -, -, he⟩
    obtain ⟨counter, -, rfl⟩ := mem_map.1 hop
    rw [writeOf, Op.entryAt, Record.get_set] at he
    split_ifs at he
    · exact ⟨counter, (some.inj he).symm⟩
    · exact absurd he (by simp)
  refine ⟨fun t r c e he => ?_, fun t c => .inl (declaredStrategy_emptyFields table t c),
    fun t r c _ a ha b hb _ => ?_, fun t r c merge hmerge => ?_⟩
  · obtain ⟨counter, rfl⟩ := hentry t r c e he
    exact ⟨_, rfl⟩
  · obtain ⟨_, rfl⟩ := hentry t r c a ha
    obtain ⟨_, rfl⟩ := hentry t r c b hb
    rfl
  · rw [declaredStrategy_emptyFields] at hmerge
    exact absurd hmerge (by simp)

/-- **The names for which lawful custom merges converge.**  No table and no row has a name that
plain objects inherit, and no column of a table that may have a `fields` object. -/
theorem lawful_merges_converge_iff {T R C F : Set Text} (hT : T.Nonempty) (hR : R.Nonempty)
    (hproto : protoName ∉ C) :
    LawfulMergesConverge T R C F ↔
      (∀ t ∈ T, t ∉ inheritedNames) ∧ (∀ r ∈ R, r ∉ inheritedNames) ∧
        ∀ t ∈ T, t ∈ F → ∀ c ∈ C, c ∉ inheritedNames := by
  constructor
  · intro h
    -- an upsert without columns is lawful under any names
    have hrow : ∀ t ∈ T, ∀ r ∈ R, t ∉ inheritedNames ∧ r ∉ inheritedNames := by
      intro t ht r hr
      rw [← not_or]
      intro hin
      have hupsert : (Op.upsert t r ∅).table ∈ inheritedNames ∨
          (Op.upsert t r ∅).rowId ∈ inheritedNames := hin
      refine not_mergesConverge_inherited 1 none hupsert (h 1 none _ (fun op hop => ?_) ?_)
      · rw [mem_singleton.1 hop]
        exact ⟨trivial, ht, hr, fun c hc => absurd hc not_mem_nil,
          fun ⟨c, hc, _⟩ => absurd hc (by simp)⟩
      · have hempty : ∀ t' r' c, writtenTo [.upsert t r ∅] t' r' c = ∅ := by
          intro t' r' c
          refine Set.eq_empty_iff_forall_notMem.2 ?_
          rintro e ⟨op, hop, -, -, he⟩
          rw [mem_singleton.1 hop] at he
          exact absurd he (by simp [Op.entryAt])
        refine ⟨fun t' r' c e he => ?_, fun _ _ => .inl rfl, fun t' r' c _ a ha => ?_,
          fun t' r' c merge hmerge => absurd hmerge (by simp [declaredStrategy])⟩
        · rw [hempty] at he
          exact absurd he (Set.notMem_empty e)
        · rw [hempty] at ha
          exact absurd ha (Set.notMem_empty a)
    obtain ⟨t₀, ht₀⟩ := hT
    obtain ⟨r₀, hr₀⟩ := hR
    refine ⟨fun t ht => (hrow t ht r₀ hr₀).1, fun r hr => (hrow t₀ ht₀ r hr).2,
      fun t ht htF c hc hin => ?_⟩
    have hne : c ≠ protoName := fun heq => hproto (heq ▸ hc)
    refine not_mergesConverge_column 1 (hrow t ht r₀ hr₀).1 (hrow t ht r₀ hr₀).2 hin hne
      (h 1 _ _ (fun op hop => ?_) (lawfulColumns_writesOf t r₀ c [1, 2, 3]))
    obtain ⟨counter, -, rfl⟩ := mem_map.1 hop
    refine ⟨trivial, ht, hr₀, fun c' hc' => ?_, fun _ => htF⟩
    rw [mem_singleton.1 hc']
    exact hc
  · rintro ⟨htables, hrows, hcolumns⟩ v schema ops hops h
    refine lawful_merges_converge v schema (fun op hop => (hops op hop).upsert) (fun op hop => ?_)
      (fun op hop hfields c hc => ?_) h
    · exact ⟨htables _ (hops op hop).table, hrows _ (hops op hop).rowId,
        fun hmem => hproto ((hops op hop).columns _ hmem)⟩
    · exact hcolumns _ (hops op hop).table ((hops op hop).fields hfields) c
        ((hops op hop).columns c hc)

theorem lawful_merges_converge_iff_ordinary :
    LawfulMergesConverge {[116], [115]} {[114]} {[99]} {[116]} := by
  have hproto : protoName ∉ ({[99]} : Set Text) := fun h =>
    absurd (Set.mem_singleton_iff.1 h) (by decide)
  refine (lawful_merges_converge_iff (Set.insert_nonempty _ _) (Set.singleton_nonempty _)
    hproto).mpr ⟨?_, ?_, ?_⟩
  · rintro t (rfl | rfl)
    · decide
    · decide
  · rintro r rfl
    decide
  · rintro _ _ _ c rfl
    decide

/-- **A column named `constructor`.**  Its table has a `fields` object, and so the function `Object`
merges it: the entry that arrives first stays. -/
theorem constructor_column_diverges :
    LawfulColumns (some (emptyFields [116]))
        (writtenTo (writesOf [116] [114] constructorName [1, 2, 3])) ∧
      (∀ op ∈ writesOf [116] [114] constructorName [1, 2, 3], op.IsUpsert) ∧
      ¬ MergesConverge 1 (some (emptyFields [116]))
        (writesOf [116] [114] constructorName [1, 2, 3]) := by
  refine ⟨lawfulColumns_writesOf _ _ _ _, fun op hop => ?_,
    not_mergesConverge_column 1 (by decide) (by decide) (by decide) (by decide)⟩
  obtain ⟨counter, -, rfl⟩ := mem_map.1 hop
  trivial

/-! ## A merge function -/

end Interocitor
