import Interocitor.Queries.Ordered
import Interocitor.Queries.RowKeys
import Mathlib.Data.Rat.Encodable

/-!
# Keys of the query cache and of the row cache

The engine keeps the rows of a query under a text that it makes from the descriptor: the table, the
operator and the field of the clause, its values, and the order, each with a label in front, joined
by bars; a list of values is joined by commas.  Nothing is escaped.  Tables, fields and texts may
have bars, commas and labels in them, and then two queries have one key, and one of them is answered
with the rows of the other.

The labels are no prefixes of each other, so the list of the parts has everything in it: descriptors
with the same parts ask for the same rows, whatever the store.  It is only the joining that loses
something, and it loses nothing as long as no text has a bar, and none in a list a comma.

* `cache_keys_separate`: what equal keys mean.
-/

namespace Interocitor.Queries

open CodeUnits OrderedRecord Comparators List Option

/-! ## Descriptors and keys -/

/-- `QueryDescriptor`. -/
structure QueryDescriptor where
  table : Text
  clause : Option WhereClause
  orderBy : Option OrderBy

/-- The name of an operator. -/
def WhereOperator.text : WhereOperator → Text
  | equals => [101, 113, 117, 97, 108, 115]
  | above => [97, 98, 111, 118, 101]
  | aboveOrEqual => [97, 98, 111, 118, 101, 79, 114, 69, 113, 117, 97, 108]
  | below => [98, 101, 108, 111, 119]
  | belowOrEqual => [98, 101, 108, 111, 119, 79, 114, 69, 113, 117, 97, 108]
  | between => [98, 101, 116, 119, 101, 101, 110]
  | startsWith => [115, 116, 97, 114, 116, 115, 87, 105, 116, 104]
  | anyOf => [97, 110, 121, 79, 102]

/-- The name of a direction. -/
def Direction.text : Direction → Text
  | asc => [97, 115, 99]
  | desc => [100, 101, 115, 99]

/-- The labels of the parts. -/
inductive Label where
  | table
  | clause
  | value
  | values
  | lower
  | upper
  | lowerOpen
  | upperOpen
  | order
  deriving DecidableEq

/-- The label as it is written. -/
def Label.text : Label → Text
  | table => [116, 61]
  | clause => [119, 61]
  | value => [118, 61]
  | values => [118, 115, 61]
  | lower => [108, 61]
  | upper => [117, 61]
  | lowerOpen => [108, 111, 61]
  | upperOpen => [117, 111, 61]
  | order => [111, 61]

section Keys

variable (P : Platform)

/-- `serializePrimitive`. -/
def serializePrimitive : WherePrimitive → Text
  | .date time => [100, 58] ++ P.numberText (timeNumber time)
  | .string s => [115, 58] ++ s
  | .number n => [110, 58] ++ P.numberText n
  | .bool b => [98, 58] ++ if b then [49] else [48]

/-- A part that need not be there. -/
def optionalPart (label : Label) (o : Option Text) : List Text :=
  (o.map fun t => label.text ++ t).toList

/-- A part that says `1`. -/
def flag (b : Bool) : Option Text := if b then some [49] else none

/-- The values of a list, joined. -/
def joinedValues (values : List WherePrimitive) : Text :=
  List.intercalate [44] (values.map (serializePrimitive P))

/-- The parts of a clause. -/
def clauseParts (c : WhereClause) : List Text :=
  [Label.clause.text ++ (c.field ++ 58 :: c.op.text)] ++
    optionalPart .value (c.value.map (serializePrimitive P)) ++
    optionalPart .values (c.values.map (joinedValues P)) ++
    optionalPart .lower (c.lower.map (serializePrimitive P)) ++
    optionalPart .upper (c.upper.map (serializePrimitive P)) ++
    optionalPart .lowerOpen (flag c.lowerOpen) ++ optionalPart .upperOpen (flag c.upperOpen)

/-- The parts of a key. -/
def keyParts (d : QueryDescriptor) : List Text :=
  [Label.table.text ++ d.table] ++ (d.clause.map (clauseParts P)).getD [] ++
    optionalPart .order (d.orderBy.map fun o => o.field ++ 58 :: o.dir.text)

/-- `computeCacheKey`. -/
def computeCacheKey (d : QueryDescriptor) : Text := List.intercalate [124] (keyParts P d)

end Keys

/-- `getRowCacheKey`. -/
def getRowCacheKey (pair : Text × Text) : Text :=
  [114, 61] ++ pair.1 ++ [124, 105, 100, 61] ++ pair.2

/-! ## Answers -/

/-- A store that the engine may have. -/
inductive AnyStore where
  | memory (store : LocalStore)
  | indexedDb (store : IndexedDbStore) (schema : Record Text TableSchema)

namespace AnyStore

/-- `queryWhere` or `getTable`; `none` is an exception. -/
def query (P : Platform) (store : AnyStore) (table : Text) : Option WhereClause → Option (List Row)
  | none =>
    match store with
    | memory s => some (s.getTable table)
    | indexedDb s _ => some (s.getTable table)
  | some clause =>
    match store with
    | memory s => s.queryWhere P table clause
    | indexedDb s schema => (s.queryWhere P schema table clause).toOption

/-- `getRow`. -/
def getRow (store : AnyStore) (pair : Text × Text) : Option Row :=
  match store with
  | memory s => s.getRow pair.1 pair.2
  | indexedDb s _ => s.getRow pair.1 pair.2

end AnyStore

/-- What a query answers: `runQuery`, with the objects that the values of a row are. -/
def answer (P : Platform) (S : ArraySort Fetched) (objects : Row → Text → ℕ) (store : AnyStore)
    (d : QueryDescriptor) : Option (List Fetched) :=
  (store.query P d.table d.clause).bind fun rows =>
    runQuery P S d.orderBy (rows.map fun row => ⟨row, objects row⟩)

/-- What `runRow` answers. -/
def answerRow (store : AnyStore) (pair : Text × Text) : Option Row :=
  (store.getRow pair).filter fun row => !row._meta.deleted

/-! ## The parts of a key -/

section Parts

variable (P : Platform)

/-- What stands behind a label. -/
def component (d : QueryDescriptor) : Label → Option Text
  | .table => some d.table
  | .clause => d.clause.map fun c => c.field ++ 58 :: c.op.text
  | .value => d.clause.bind fun c => c.value.map (serializePrimitive P)
  | .values => d.clause.bind fun c => c.values.map (joinedValues P)
  | .lower => d.clause.bind fun c => c.lower.map (serializePrimitive P)
  | .upper => d.clause.bind fun c => c.upper.map (serializePrimitive P)
  | .lowerOpen => d.clause.bind fun c => flag c.lowerOpen
  | .upperOpen => d.clause.bind fun c => flag c.upperOpen
  | .order => d.orderBy.map fun o => o.field ++ 58 :: o.dir.text

/-- The labels, in the order in which they are written. -/
def labels : List Label :=
  [.table, .clause, .value, .values, .lower, .upper, .lowerOpen, .upperOpen, .order]

theorem mem_labels (label : Label) : label ∈ labels := by
  cases label <;> decide

theorem keyParts_eq (d : QueryDescriptor) :
    keyParts P d = labels.flatMap fun label => optionalPart label (component P d label) := by
  obtain ⟨table, clause, orderBy⟩ := d
  cases clause with
  | none => cases orderBy <;> rfl
  | some c =>
    simp only [keyParts, clauseParts, map_some, getD_some, labels, flatMap_cons,
      flatMap_nil, append_nil, component, bind_some, append_assoc]
    rfl

theorem label_inj {a b : Label} {s t : Text} (h : a.text ++ s = b.text ++ t) : a = b ∧ s = t := by
  have hlabel : a = b := by
    cases a <;> cases b <;> first | rfl | (simp [Label.text] at h)
  subst hlabel
  exact ⟨rfl, append_cancel_left h⟩

theorem mem_keyParts {d : QueryDescriptor} {label : Label} {t : Text} :
    label.text ++ t ∈ keyParts P d ↔ component P d label = some t := by
  rw [keyParts_eq, mem_flatMap]
  simp only [optionalPart, Option.mem_toList, map_eq_some_iff]
  constructor
  · rintro ⟨label', -, t', ht', heq⟩
    obtain ⟨rfl, rfl⟩ := label_inj heq
    exact ht'
  · exact fun h => ⟨label, mem_labels label, t, h, rfl⟩

/-- **The parts determine what stands behind each label.** -/
theorem component_inj {d d' : QueryDescriptor} (h : keyParts P d = keyParts P d') (label : Label) :
    component P d label = component P d' label := by
  refine Option.ext fun t => ?_
  rw [← mem_keyParts, ← mem_keyParts, h]

end Parts

/-! ## Values that are written alike -/

/-- What is relied on of `String` of a number: it tells all numbers apart but the two zeros, and is
made of neither bars nor commas. -/
structure Platform.WritesNumbers (P : Platform) : Prop where
  zeros : P.numberText .negZero = P.numberText (.finite 0)
  inj : ∀ x y, P.numberText x = P.numberText y → x = y ∨ x.isZero = true ∧ y.isZero = true
  plain : ∀ x, 44 ∉ P.numberText x ∧ 124 ∉ P.numberText x

/-- A number whose zero has no sign. -/
def plainZero : JsNumber → JsNumber
  | .negZero => .finite 0
  | x => x

/-- A value whose zero has no sign. -/
def WherePrimitive.plain : WherePrimitive → WherePrimitive
  | .number x => .number (plainZero x)
  | w => w

/-- A clause whose zeros have no sign. -/
def WhereClause.plain (c : WhereClause) : WhereClause :=
  { c with
    value := c.value.map WherePrimitive.plain
    values := c.values.map (List.map WherePrimitive.plain)
    lower := c.lower.map WherePrimitive.plain
    upper := c.upper.map WherePrimitive.plain }

/-- A descriptor whose zeros have no sign. -/
def QueryDescriptor.plain (d : QueryDescriptor) : QueryDescriptor :=
  { d with clause := d.clause.map WhereClause.plain }

section Written

variable {P : Platform} (h : P.WritesNumbers)

theorem isZero_iff {x : JsNumber} : x.isZero = true ↔ x = .negZero ∨ x = .finite 0 := by
  cases x with
  | negZero => simp [JsNumber.isZero, JsNumber.isFinite, JsNumber.value]
  | finite q =>
    have hzero : (JsNumber.finite q).isZero = decide (q = 0) := rfl
    rw [hzero, decide_eq_true_iff]
    simp
  | nan => simp [JsNumber.isZero, JsNumber.isFinite]
  | posInf => simp [JsNumber.isZero, JsNumber.isFinite]
  | negInf => simp [JsNumber.isZero, JsNumber.isFinite]

include h

theorem plainZero_of_numberText {x y : JsNumber} (hxy : P.numberText x = P.numberText y) :
    plainZero x = plainZero y := by
  rcases h.inj x y hxy with rfl | ⟨hx, hy⟩
  · rfl
  · rcases isZero_iff.mp hx with rfl | rfl <;> rcases isZero_iff.mp hy with rfl | rfl <;> rfl

theorem timeNumber_of_numberText {t u : Option ℤ}
    (htu : P.numberText (timeNumber t) = P.numberText (timeNumber u)) : t = u := by
  have hzero : ∀ t, (timeNumber t).isZero = true → t = some 0 := by
    intro t ht
    cases t with
    | none => exact absurd ht (by decide)
    | some t =>
      rcases isZero_iff.mp ht with h | h
      · cases h
      · exact congrArg some (Int.cast_eq_zero.mp (JsNumber.finite.inj h))
  rcases h.inj _ _ htu with heq | ⟨ht, hu⟩
  · cases t with
    | none =>
      cases u with
      | none => rfl
      | some u => cases heq
    | some t =>
      cases u with
      | none => cases heq
      | some u => exact congrArg some (Int.cast_injective (JsNumber.finite.inj heq))
  · rw [hzero t ht, hzero u hu]

theorem plain_of_serialize {v w : WherePrimitive}
    (hvw : serializePrimitive P v = serializePrimitive P w) : v.plain = w.plain := by
  cases v with
  | string s =>
    cases w with
    | string t => rw [append_cancel_left hvw]
    | _ => exact absurd (List.cons.inj hvw).1 (by decide)
  | number x =>
    cases w with
    | number y =>
      exact congrArg WherePrimitive.number (plainZero_of_numberText h (append_cancel_left hvw))
    | _ => exact absurd (List.cons.inj hvw).1 (by decide)
  | bool b =>
    cases w with
    | bool c =>
      cases b <;> cases c <;> first | rfl | exact absurd (append_cancel_left hvw) (by decide)
    | _ => exact absurd (List.cons.inj hvw).1 (by decide)
  | date t =>
    cases w with
    | date u => rw [timeNumber_of_numberText h (append_cancel_left hvw)]
    | _ => exact absurd (List.cons.inj hvw).1 (by decide)

theorem map_plain_of_serialize {v w : Option WherePrimitive}
    (hvw : v.map (serializePrimitive P) = w.map (serializePrimitive P)) :
    v.map WherePrimitive.plain = w.map WherePrimitive.plain := by
  cases v with
  | none =>
    cases w with
    | none => rfl
    | some w => cases hvw
  | some v =>
    cases w with
    | none => cases hvw
    | some w => exact congrArg some (plain_of_serialize h (some.inj hvw))

theorem list_plain_of_serialize {l m : List WherePrimitive}
    (hlm : l.map (serializePrimitive P) = m.map (serializePrimitive P)) :
    l.map WherePrimitive.plain = m.map WherePrimitive.plain := by
  induction l generalizing m with
  | nil =>
    cases m with
    | nil => rfl
    | cons w m => cases hlm
  | cons v l ih =>
    cases m with
    | nil => cases hlm
    | cons w m =>
      obtain ⟨hhead, htail⟩ := List.cons.inj hlm
      exact congrArg₂ List.cons (plain_of_serialize h hhead) (ih htail)

end Written

theorem append_colon_inj {s t a b : Text} (ha : (58 : CodeUnit) ∉ a) (hb : (58 : CodeUnit) ∉ b)
    (h : s ++ 58 :: a = t ++ 58 :: b) : s = t ∧ a = b := by
  rcases append_eq_append_iff.mp h with ⟨m, htable, hrest⟩ | ⟨m, htable, hrest⟩
  · cases m with
    | nil =>
      rw [append_nil] at htable
      exact ⟨htable.symm, (List.cons.inj hrest).2⟩
    | cons u m =>
      refine absurd ?_ ha
      rw [(List.cons.inj hrest).2]
      exact mem_append_right m mem_cons_self
  · cases m with
    | nil =>
      rw [append_nil] at htable
      exact ⟨htable, (List.cons.inj hrest).2.symm⟩
    | cons u m =>
      refine absurd ?_ hb
      rw [(List.cons.inj hrest).2]
      exact mem_append_right m mem_cons_self

theorem operator_text_inj {a b : WhereOperator} (h : a.text = b.text) : a = b := by
  revert h
  cases a <;> cases b <;> first | exact fun _ => rfl | exact fun h => absurd h (by decide)

theorem direction_text_inj {a b : Direction} (h : a.text = b.text) : a = b := by
  revert h
  cases a <;> cases b <;> first | exact fun _ => rfl | exact fun h => absurd h (by decide)

theorem colon_notMem_operator (op : WhereOperator) : (58 : CodeUnit) ∉ op.text := by
  cases op <;> decide

theorem colon_notMem_direction (dir : Direction) : (58 : CodeUnit) ∉ dir.text := by
  cases dir <;> decide

theorem flag_inj {a b : Bool} (h : flag a = flag b) : a = b := by
  cases a <;> cases b <;> first | rfl | exact absurd h (by decide)

/-- The values of a list, one by one. -/
def writtenValues (P : Platform) (d : QueryDescriptor) : Option (List Text) :=
  d.clause.bind fun c => c.values.map (List.map (serializePrimitive P))

/-- Two keys have the same parts, and their lists the same values. -/
def SameParts (P : Platform) (d d' : QueryDescriptor) : Prop :=
  keyParts P d = keyParts P d' ∧ writtenValues P d = writtenValues P d'

/-- **Descriptors whose parts are the same** are the same, but for the signs of zeros. -/
theorem SameParts.plain_eq {P : Platform} (hP : P.WritesNumbers) {d d' : QueryDescriptor}
    (h : SameParts P d d') : d.plain = d'.plain := by
  have hc := component_inj P h.1
  have hv := h.2
  obtain ⟨table, clause, orderBy⟩ := d
  obtain ⟨table', clause', orderBy'⟩ := d'
  have htable : table = table' := some.inj (hc .table)
  have horder : orderBy = orderBy' := by
    have ho := hc .order
    cases orderBy with
    | none =>
      cases orderBy' with
      | none => rfl
      | some o => cases ho
    | some o =>
      cases orderBy' with
      | none => cases ho
      | some o' =>
        obtain ⟨hfield, hdir⟩ := append_colon_inj (colon_notMem_direction _)
          (colon_notMem_direction _) (some.inj ho)
        obtain ⟨field, dir⟩ := o
        obtain ⟨field', dir'⟩ := o'
        obtain rfl : field = field' := hfield
        obtain rfl : dir = dir' := direction_text_inj hdir
        rfl
  have hclause : clause.map WhereClause.plain = clause'.map WhereClause.plain := by
    have ho := hc .clause
    cases clause with
    | none =>
      cases clause' with
      | none => rfl
      | some c => cases ho
    | some c =>
      cases clause' with
      | none => cases ho
      | some c' =>
        obtain ⟨hfield, hop⟩ := append_colon_inj (colon_notMem_operator _)
          (colon_notMem_operator _) (some.inj ho)
        have hvalue := map_plain_of_serialize hP (hc .value)
        have hlower := map_plain_of_serialize hP (hc .lower)
        have hupper := map_plain_of_serialize hP (hc .upper)
        have hlowerOpen := flag_inj (hc .lowerOpen)
        have hupperOpen := flag_inj (hc .upperOpen)
        have hvalues : c.values.map (List.map WherePrimitive.plain) =
            c'.values.map (List.map WherePrimitive.plain) := by
          have hlists : c.values.map (List.map (serializePrimitive P)) =
            c'.values.map (List.map (serializePrimitive P)) := hv
          cases hl : c.values with
          | none =>
            cases hl' : c'.values with
            | none => rfl
            | some m =>
              rw [hl, hl'] at hlists
              cases hlists
          | some l =>
            cases hl' : c'.values with
            | none =>
              rw [hl, hl'] at hlists
              cases hlists
            | some m =>
              rw [hl, hl'] at hlists
              exact congrArg some (list_plain_of_serialize hP (some.inj hlists))
        simp only [map_some, WhereClause.plain, hfield, operator_text_inj hop, hvalue,
          hlower, hupper, hlowerOpen, hupperOpen, hvalues]
  simp only [QueryDescriptor.plain, htable, horder, hclause]

/-! ## Answers and the sign of a zero -/

section Plain

variable (P : Platform)

theorem extended_plainZero (x : JsNumber) : (plainZero x).extended = x.extended := by
  cases x <;> rfl

theorem toKey_plain (w : WherePrimitive) : toKey w.plain.toJs = toKey w.toJs := by
  cases w with
  | number x => exact congrArg (Option.map Key.number) (extended_plainZero x)
  | _ => rfl

theorem compare_plain (v : JsValue) (w : WherePrimitive) :
    compare P v w.plain.toJs = compare P v w.toJs := by
  cases w with
  | number x =>
    have hlt : ∀ p : Primitive, (Primitive.number (plainZero x)).lessThan p =
        (Primitive.number x).lessThan p := by
      intro p
      show (plainZero x).lt p.toNumber = x.lt p.toNumber
      rw [JsNumber.lt, JsNumber.lt, extended_plainZero]
    have hgt : ∀ p : Primitive, p.lessThan (.number (plainZero x)) = p.lessThan (.number x) := by
      have hnumbers : ∀ y : JsNumber, y.lt (plainZero x) = y.lt x := by
        intro y
        rw [JsNumber.lt, JsNumber.lt, extended_plainZero]
      have hnot : ∀ (p : Primitive) y, ¬ BothStrings p (.number y) := by
        rintro p y ⟨s, t, -, ht⟩
        cases ht
      intro p
      rw [lessThan_of_not (hnot p _), lessThan_of_not (hnot p _)]
      exact hnumbers p.toNumber
    rw [compare_eq, compare_eq]
    show (toPrimitive P v).bind (fun p => some (p.compare (.number (plainZero x)))) =
      (toPrimitive P v).bind fun p => some (p.compare (.number x))
    simp only [Primitive.compare, hlt, hgt]
  | _ => rfl

theorem givenValue_plain (v : JsValue) (o : Option WherePrimitive) :
    compare P v (givenValue (o.map WherePrimitive.plain)) = compare P v (givenValue o) := by
  cases o with
  | none => rfl
  | some w => exact compare_plain P v w

theorem tiedWithAny_plain (v : JsValue) (l : List WherePrimitive) :
    tiedWithAny P v (l.map WherePrimitive.plain) = tiedWithAny P v l := by
  induction l with
  | nil => rfl
  | cons w l ih => rw [map_cons, tiedWithAny, tiedWithAny, compare_plain, ih]

variable {P} (h : P.WritesNumbers)
include h

theorem stringOf_plain (o : Option WherePrimitive) :
    stringOf P (o.map WherePrimitive.plain) = stringOf P o := by
  cases o with
  | none => rfl
  | some w =>
    cases w with
    | number x =>
      cases x with
      | negZero => exact h.zeros.symm
      | _ => rfl
    | _ => rfl

theorem matchesClause_plain (v : JsValue) (c : WhereClause) :
    matchesClause P v c.plain = matchesClause P v c := by
  have hvalues : ∀ o : Option (List WherePrimitive),
      tiedWithAny P v ((o.map (List.map WherePrimitive.plain)).getD []) =
        tiedWithAny P v (o.getD []) := by
    intro o
    cases o with
    | none => rfl
    | some l => exact tiedWithAny_plain P v l
  obtain ⟨field, op, value, values, lower, upper, lowerOpen, upperOpen⟩ := c
  cases v <;> cases op <;>
    simp only [matchesClause, WhereClause.plain, givenValue_plain, stringOf_plain h, hvalues] <;>
    rfl

theorem scan_plain (rows : List Row) (c : WhereClause) : scan P rows c.plain = scan P rows c := by
  have htest : (fun row => matchesClause P (readColumnValue row c.plain.field) c.plain) =
      fun row => matchesClause P (readColumnValue row c.field) c :=
    funext fun row => matchesClause_plain h _ c
  rw [scan, scan, htest]

theorem rangeForClause_plain (table : Text) (c : WhereClause) :
    rangeForClause P table c.plain = rangeForClause P table c := by
  have hkey : ∀ o : Option WherePrimitive, toKey (givenValue (o.map WherePrimitive.plain)) =
      toKey (givenValue o) := by
    intro o
    cases o with
    | none => rfl
    | some w => exact toKey_plain w
  have hnone : ∀ o : Option WherePrimitive, (o.map WherePrimitive.plain = none) = (o = none) := by
    intro o
    rw [Option.map_eq_none_iff]
  obtain ⟨field, op, value, values, lower, upper, lowerOpen, upperOpen⟩ := c
  cases op <;>
    simp only [rangeForClause, WhereClause.plain, hkey, stringOf_plain h, hnone]

theorem queryIndex_plain (store : IndexedDbStore) (field table : Text) (c : WhereClause) :
    store.queryIndex P field table c.plain = store.queryIndex P field table c := by
  have honly : ∀ l : List WherePrimitive,
      (l.map WherePrimitive.plain).mapM (store.getOnly field table) =
        l.mapM (store.getOnly field table) := by
    intro l
    have hone : ∀ w : WherePrimitive,
        store.getOnly field table w.plain = store.getOnly field table w := by
      intro w
      rw [IndexedDbStore.getOnly, IndexedDbStore.getOnly, toKey_plain]
    induction l with
    | nil => rfl
    | cons w l ih => rw [map_cons, mapM_cons, mapM_cons, hone, ih]
  have hvalues : (c.plain.values.getD []).mapM (store.getOnly field table) =
      (c.values.getD []).mapM (store.getOnly field table) := by
    show ((c.values.map (List.map WherePrimitive.plain)).getD []).mapM _ = _
    cases c.values with
    | none => rfl
    | some l => exact honly l
  rw [IndexedDbStore.queryIndex, IndexedDbStore.queryIndex, hvalues, rangeForClause_plain h]
  rfl

/-- **A query is answered whatever the sign of a zero.** -/
theorem answer_plain (S : ArraySort Fetched) (objects : Row → Text → ℕ) (store : AnyStore)
    (d : QueryDescriptor) : answer P S objects store d.plain = answer P S objects store d := by
  have hquery : store.query P d.plain.table d.plain.clause = store.query P d.table d.clause := by
    show store.query P d.table (d.clause.map WhereClause.plain) = _
    cases d.clause with
    | none => rfl
    | some c =>
      cases store with
      | memory s => exact scan_plain h _ c
      | indexedDb s schema =>
        have hfield : c.plain.field = c.field := rfl
        have hwhere : s.queryWhere P schema d.table c.plain = s.queryWhere P schema d.table c := by
          simp only [IndexedDbStore.queryWhere, scan_plain h, queryIndex_plain h, hfield]
        exact congrArg Except.toOption hwhere
  rw [answer, answer, hquery]
  rfl

end Plain

/-! ## Texts without separators -/

/-- A text without bars. -/
def NoBar (t : Text) : Prop := (124 : CodeUnit) ∉ t

/-- A value without bars. -/
def WherePrimitive.NoBar : WherePrimitive → Prop
  | .string s => Queries.NoBar s
  | _ => True

/-- A value without commas. -/
def WherePrimitive.NoComma : WherePrimitive → Prop
  | .string s => (44 : CodeUnit) ∉ s
  | _ => True

/-- No text of a descriptor has a bar, and none in a list of values a comma. -/
structure QueryDescriptor.Unseparated (d : QueryDescriptor) : Prop where
  table : NoBar d.table
  field : ∀ c, d.clause = some c → NoBar c.field
  value : ∀ c, d.clause = some c → ∀ w, c.value = some w → w.NoBar
  lower : ∀ c, d.clause = some c → ∀ w, c.lower = some w → w.NoBar
  upper : ∀ c, d.clause = some c → ∀ w, c.upper = some w → w.NoBar
  values : ∀ c, d.clause = some c → ∀ l, c.values = some l → ∀ w ∈ l, w.NoBar ∧ w.NoComma
  order : ∀ o, d.orderBy = some o → NoBar o.field

theorem mem_intercalate {u s : CodeUnit} {l : List Text} (h : u ∈ List.intercalate [s] l) :
    u = s ∨ ∃ t ∈ l, u ∈ t := by
  induction l with
  | nil => exact absurd h not_mem_nil
  | cons t l ih =>
    cases l with
    | nil =>
      have hone : List.intercalate [s] [t] = t := by simp [List.intercalate]
      rw [hone] at h
      exact .inr ⟨t, mem_cons_self, h⟩
    | cons t' l =>
      rw [intercalate_cons_of_ne_nil (cons_ne_nil t' l), mem_append, mem_append, mem_singleton] at h
      rcases h with (h | h) | h
      · exact .inr ⟨t, mem_cons_self, h⟩
      · exact .inl h
      · rcases ih h with h | ⟨t'', ht'', hu⟩
        · exact .inl h
        · exact .inr ⟨t'', mem_cons_of_mem t ht'', hu⟩

section Separated

variable {P : Platform} (h : P.WritesNumbers)
include h

theorem noBar_serialize {w : WherePrimitive} (hw : w.NoBar) : NoBar (serializePrimitive P w) := by
  cases w with
  | string s => simpa [NoBar, WherePrimitive.NoBar, serializePrimitive] using hw
  | number x => simpa [NoBar, serializePrimitive] using (h.plain x).2
  | bool b => cases b <;> simp [NoBar, serializePrimitive]
  | date t => simpa [NoBar, serializePrimitive] using (h.plain (timeNumber t)).2

theorem noComma_serialize {w : WherePrimitive} (hw : w.NoComma) :
    (44 : CodeUnit) ∉ serializePrimitive P w := by
  cases w with
  | string s => simpa [WherePrimitive.NoComma, serializePrimitive] using hw
  | number x => simpa [serializePrimitive] using (h.plain x).1
  | bool b => cases b <;> simp [serializePrimitive]
  | date t => simpa [serializePrimitive] using (h.plain (timeNumber t)).1

variable {d : QueryDescriptor}

theorem noBar_component (hd : d.Unseparated) {label : Label} {t : Text}
    (ht : component P d label = some t) : NoBar t := by
  have hoperator : ∀ op : WhereOperator, (124 : CodeUnit) ∉ op.text := fun op => by
    cases op <;> decide
  have hdirection : ∀ dir : Direction, (124 : CodeUnit) ∉ dir.text := fun dir => by
    cases dir <;> decide
  have hflag : ∀ b, flag b = some t → NoBar t := by
    intro b hb
    cases b with
    | false => cases hb
    | true =>
      rw [← some.inj hb]
      show (124 : CodeUnit) ∉ [49]
      decide
  cases label with
  | table =>
    rw [← some.inj ht]
    exact hd.table
  | clause =>
    obtain ⟨c, hc, rfl⟩ := map_eq_some_iff.mp ht
    rw [NoBar, mem_append, mem_cons]
    rintro (hu | hu | hu)
    · exact hd.field c hc hu
    · exact absurd hu (by decide)
    · exact hoperator c.op hu
  | value =>
    obtain ⟨c, hc, ht⟩ := bind_eq_some_iff.mp ht
    obtain ⟨w, hw, rfl⟩ := map_eq_some_iff.mp ht
    exact noBar_serialize h (hd.value c hc w hw)
  | values =>
    obtain ⟨c, hc, ht⟩ := bind_eq_some_iff.mp ht
    obtain ⟨l, hl, rfl⟩ := map_eq_some_iff.mp ht
    intro hu
    rcases mem_intercalate hu with hu | ⟨t, ht, hu⟩
    · exact absurd hu (by decide)
    · obtain ⟨w, hw, rfl⟩ := mem_map.mp ht
      exact noBar_serialize h (hd.values c hc l hl w hw).1 hu
  | lower =>
    obtain ⟨c, hc, ht⟩ := bind_eq_some_iff.mp ht
    obtain ⟨w, hw, rfl⟩ := map_eq_some_iff.mp ht
    exact noBar_serialize h (hd.lower c hc w hw)
  | upper =>
    obtain ⟨c, hc, ht⟩ := bind_eq_some_iff.mp ht
    obtain ⟨w, hw, rfl⟩ := map_eq_some_iff.mp ht
    exact noBar_serialize h (hd.upper c hc w hw)
  | lowerOpen =>
    obtain ⟨c, -, ht⟩ := bind_eq_some_iff.mp ht
    exact hflag _ ht
  | upperOpen =>
    obtain ⟨c, -, ht⟩ := bind_eq_some_iff.mp ht
    exact hflag _ ht
  | order =>
    obtain ⟨o, ho, rfl⟩ := map_eq_some_iff.mp ht
    rw [NoBar, mem_append, mem_cons]
    rintro (hu | hu | hu)
    · exact hd.order o ho hu
    · exact absurd hu (by decide)
    · exact hdirection o.dir hu

theorem noBar_keyParts (hd : d.Unseparated) : ∀ part ∈ keyParts P d, (124 : CodeUnit) ∉ part := by
  intro part hpart
  rw [keyParts_eq, mem_flatMap] at hpart
  obtain ⟨label, -, hpart⟩ := hpart
  rw [optionalPart, Option.mem_toList, map_eq_some_iff] at hpart
  obtain ⟨t, ht, rfl⟩ := hpart
  rw [mem_append]
  rintro (hu | hu)
  · revert hu
    cases label <;> decide
  · exact noBar_component h hd ht hu

theorem joinedValues_inj {l m : List WherePrimitive} (hl : ∀ w ∈ l, w.NoComma)
    (hm : ∀ w ∈ m, w.NoComma) (hlm : joinedValues P l = joinedValues P m) :
    l.map (serializePrimitive P) = m.map (serializePrimitive P) := by
  have hne : ∀ w, serializePrimitive P w ≠ [] := by
    intro w
    cases w <;> simp [serializePrimitive]
  have hempty : ∀ k : List WherePrimitive, joinedValues P k = [] → k = [] := by
    intro k hk
    cases k with
    | nil => rfl
    | cons w k =>
      cases k with
      | nil =>
        have hone : joinedValues P [w] = serializePrimitive P w := by
          simp [joinedValues, List.intercalate]
        exact absurd (hone.symm.trans hk) (hne w)
      | cons w' k =>
        rw [joinedValues, map_cons, intercalate_cons_of_ne_nil (by simp)] at hk
        exact absurd (append_eq_nil_iff.mp (append_eq_nil_iff.mp hk).1).1 (hne w)
  have hcomma : ∀ k : List WherePrimitive, (∀ w ∈ k, w.NoComma) →
      ∀ t ∈ k.map (serializePrimitive P), (44 : CodeUnit) ∉ t := by
    intro k hk t ht
    obtain ⟨w, hw, rfl⟩ := mem_map.mp ht
    exact noComma_serialize h (hk w hw)
  by_cases hnil : l = []
  · subst hnil
    rw [hempty m hlm.symm]
  · have hnil' : m ≠ [] := fun hm => hnil (hempty l (by rw [hlm, hm]; rfl))
    have hsplit := splitOn_intercalate 44 (hcomma l hl) (mt map_eq_nil_iff.mp hnil)
    have hjoined : List.intercalate [44] (l.map (serializePrimitive P)) =
        List.intercalate [44] (m.map (serializePrimitive P)) := hlm
    rw [hjoined, splitOn_intercalate 44 (hcomma m hm) (mt map_eq_nil_iff.mp hnil')] at hsplit
    exact hsplit.symm

/-- **Without separators in the texts, keys have the same parts.** -/
theorem sameParts_of_unseparated {d' : QueryDescriptor} (hd : d.Unseparated) (hd' : d'.Unseparated)
    (hkey : computeCacheKey P d = computeCacheKey P d') : SameParts P d d' := by
  have hne : ∀ d, keyParts P d ≠ [] := by
    intro d
    rw [keyParts, append_assoc, singleton_append]
    exact cons_ne_nil _ _
  have hparts : keyParts P d = keyParts P d' := by
    have hsplit := splitOn_intercalate 124 (noBar_keyParts h hd) (hne d)
    have hjoined : List.intercalate [124] (keyParts P d) = List.intercalate [124] (keyParts P d') :=
      hkey
    rw [hjoined, splitOn_intercalate 124 (noBar_keyParts h hd') (hne d')] at hsplit
    exact hsplit.symm
  refine ⟨hparts, ?_⟩
  have hvalues := component_inj P hparts .values
  have hlist : ∀ e : QueryDescriptor, component P e .values =
      (e.clause.bind WhereClause.values).map (joinedValues P) := by
    rintro ⟨table, _ | c, orderBy⟩ <;> rfl
  have hwritten : ∀ e : QueryDescriptor, writtenValues P e =
      (e.clause.bind WhereClause.values).map (List.map (serializePrimitive P)) := by
    rintro ⟨table, _ | c, orderBy⟩ <;> rfl
  have hcommas : ∀ {e : QueryDescriptor}, e.Unseparated → ∀ l,
      e.clause.bind WhereClause.values = some l → ∀ w ∈ l, w.NoComma := by
    intro e he l hl w hw
    obtain ⟨c, hc, hl⟩ := bind_eq_some_iff.mp hl
    exact (he.values c hc l hl w hw).2
  rw [hlist, hlist] at hvalues
  rw [hwritten, hwritten]
  cases hl : d.clause.bind WhereClause.values with
  | none =>
    cases hm : d'.clause.bind WhereClause.values with
    | none => rfl
    | some m =>
      rw [hl, hm] at hvalues
      cases hvalues
  | some l =>
    cases hm : d'.clause.bind WhereClause.values with
    | none =>
      rw [hl, hm] at hvalues
      cases hvalues
    | some m =>
      rw [hl, hm] at hvalues
      exact congrArg some (joinedValues_inj h (hcommas hd l hl) (hcommas hd' m hm)
        (some.inj hvalues))

end Separated

/-! ## Answers that differ -/

section Differ

variable {P : Platform} {S : ArraySort Fetched} {objects : Row → Text → ℕ}

/-- A row that a query answers. -/
def Answers (P : Platform) (d : QueryDescriptor) (row : Row) : Prop :=
  inTable d.table row = true ∧ ∀ c, d.clause = some c →
    matchesClause P (readColumnValue row c.field) c = some true

/-- The store that has one row. -/
def storeOf (row : Row) : LocalStore := LocalStore.empty.putRow row

theorem getTable_storeOf (row : Row) (table : Text) :
    (storeOf row).getTable table = if inTable table row then [row] else [] := by
  show [row].filter (inTable table) = _
  cases h : inTable table row with
  | true => rw [filter_cons_of_pos h, if_pos rfl, filter_nil]
  | false => rw [filter_cons_of_neg (by rw [h]; exact Bool.false_ne_true),
      if_neg Bool.false_ne_true, filter_nil]

theorem exists_compareRows_self (order : OrderBy) (a : Fetched) :
    ∃ c, compareRows P order a a = some c := by
  rw [compareRows]
  split_ifs with hsame
  · exact ⟨0, rfl⟩
  · have hless : ∃ less, lessThan P (a.value order.field) (a.value order.field) = some less := by
      cases hv : a.value order.field with
      | date t => exact ⟨_, rfl⟩
      | array items => simp [strictEqual, hv, isObject] at hsame
      | object fields => simp [strictEqual, hv, isObject] at hsame
      | _ => exact ⟨_, rfl⟩
    obtain ⟨less, hless⟩ := hless
    rw [hless]
    exact ⟨_, rfl⟩

theorem runQuery_singleton (orderBy : Option OrderBy) (a : Fetched) :
    runQuery P S orderBy [a] = some [a] := by
  cases orderBy with
  | none => rfl
  | some order =>
    obtain ⟨c, hc⟩ := exists_compareRows_self (P := P) order a
    have hcompares : Compares (compareRows P order) (fun _ _ => c) [a] := by
      intro x hx y hy
      rw [mem_singleton.mp hx, mem_singleton.mp hy, hc]
    obtain ⟨r, hr, hperm⟩ := S.returns hcompares
    rw [runQuery, hr, perm_singleton.mp hperm]

theorem runQuery_nil (orderBy : Option OrderBy) : runQuery P S orderBy [] = some [] := by
  cases orderBy with
  | none => rfl
  | some order =>
    have hcompares : Compares (compareRows P order) (fun _ _ => 0) [] :=
      fun x hx => absurd hx not_mem_nil
    obtain ⟨r, hr, hperm⟩ := S.returns hcompares
    rw [runQuery, hr, perm_nil.mp hperm]

theorem answer_storeOf_iff (d : QueryDescriptor) (row : Row) :
    answer P S objects (.memory (storeOf row)) d = some [⟨row, objects row⟩] ↔ Answers P d row := by
  rw [answer, Answers]
  cases hclause : d.clause with
  | none =>
    show ((some ((storeOf row).getTable d.table)).bind _) = _ ↔ _
    rw [getTable_storeOf]
    cases hin : inTable d.table row with
    | true =>
      refine ⟨fun _ => ⟨rfl, fun c hc => (by cases hc)⟩, fun _ => ?_⟩
      exact runQuery_singleton d.orderBy _
    | false =>
      refine ⟨fun h => ?_, fun h => absurd h.1 Bool.false_ne_true⟩
      have hnil : runQuery P S d.orderBy [] = some [⟨row, objects row⟩] := h
      rw [runQuery_nil] at hnil
      cases hnil
  | some c =>
    show ((scan P ((storeOf row).getTable d.table) c).bind _) = _ ↔ _
    rw [getTable_storeOf]
    cases hin : inTable d.table row with
    | true =>
      rw [if_pos rfl, scan, filterRows]
      cases hmatch : matchesClause P (readColumnValue row c.field) c with
      | none =>
        refine ⟨fun h => (by cases h), fun h => ?_⟩
        have hsome := h.2 c rfl
        rw [hmatch] at hsome
        cases hsome
      | some keep =>
        cases keep with
        | true =>
          refine ⟨fun _ => ⟨rfl, fun c' hc' => ?_⟩, fun _ => runQuery_singleton d.orderBy _⟩
          rw [← some.inj hc', hmatch]
        | false =>
          refine ⟨fun h => ?_, fun h => ?_⟩
          · have hnil : runQuery P S d.orderBy [] = some [⟨row, objects row⟩] := h
            rw [runQuery_nil] at hnil
            cases hnil
          · have hsome := h.2 c rfl
            rw [hmatch] at hsome
            cases hsome
    | false =>
      refine ⟨fun h => ?_, fun h => absurd h.1 Bool.false_ne_true⟩
      have hnil : runQuery P S d.orderBy [] = some [⟨row, objects row⟩] := h
      rw [runQuery_nil] at hnil
      cases hnil

end Differ

/-! ## Keys of rows -/

variable {p q : Text × Text}

theorem eq_of_keys (hcache : getRowCacheKey p = getRowCacheKey q)
    (hstore : LocalStore.rowKey p.1 p.2 = LocalStore.rowKey q.1 q.2) : p = q := by
  have hshift : ∀ {p q : Text × Text}, Shifted p q → getRowCacheKey p ≠ getRowCacheKey q := by
    rintro ⟨t, i⟩ ⟨t', i'⟩ ⟨m, htable, hrowId⟩ hkey
    dsimp only at htable hrowId
    subst htable hrowId
    -- after the shorter table there is a bar in the one and a slash in the other
    simp only [getRowCacheKey, append_assoc, append_cancel_left_eq] at hkey
    exact absurd (List.cons.inj hkey).1 (by decide)
  rcases rowKey_eq_iff.mp hstore with h | h | h
  · exact h
  · exact absurd hcache (hshift h)
  · exact absurd hcache.symm (hshift h)

theorem takeWhile_noBar {t : Text} (h : (124 : CodeUnit) ∉ t) (rest : Text) :
    (t ++ 124 :: rest).takeWhile (fun u => decide (u ≠ 124)) = t := by
  have hall : ∀ u ∈ t, decide (u ≠ 124) = true := fun u hu => decide_eq_true fun heq => by
    rw [heq] at hu
    exact h hu
  rw [takeWhile_append_of_pos hall, takeWhile_cons_of_neg (by simp), append_nil]

theorem eq_of_noBar (hp : (124 : CodeUnit) ∉ p.1) (hq : (124 : CodeUnit) ∉ q.1)
    (h : getRowCacheKey p = getRowCacheKey q) : p = q := by
  obtain ⟨t, i⟩ := p
  obtain ⟨t', i'⟩ := q
  dsimp only at hp hq
  simp only [getRowCacheKey, append_assoc, cons_append, nil_append, List.cons.injEq, true_and] at h
  have htable : t = t' := by
    have hcut := congrArg (List.takeWhile fun u => decide (u ≠ 124)) h
    rwa [takeWhile_noBar hp, takeWhile_noBar hq] at hcut
  subst htable
  simpa using h

/-- **What equal keys of rows mean**: the reads agree on every store exactly if the pairs do. -/
theorem answerRow_eq_iff (h : getRowCacheKey p = getRowCacheKey q) :
    (∀ store, answerRow store p = answerRow store q) ↔ p = q := by
  refine ⟨fun hall => ?_, fun heq _ => by rw [heq]⟩
  have hstore := hall (.memory (storeOf (rowOfPair p)))
  have hput : (storeOf (rowOfPair p)).getRow p.1 p.2 = some (rowOfPair p) :=
    Record.get_set_self _ _ _
  have hread : answerRow (.memory (storeOf (rowOfPair p))) p = some (rowOfPair p) := by
    rw [answerRow, AnyStore.getRow, hput]
    rfl
  rw [hread, answerRow, AnyStore.getRow, LocalStore.getRow, storeOf, LocalStore.putRow] at hstore
  obtain ⟨hget, -⟩ := filter_eq_some_iff.mp hstore.symm
  dsimp only at hget
  rw [Record.get_set] at hget
  split_ifs at hget with hkey
  · exact eq_of_keys h hkey
  · cases hget

/-! ## Sharing an entry -/

/-- **What equal keys mean.**  Queries of one key are answered alike by every store if the parts of
their keys are the same, which is so without separators in the texts; and if there is a row that
only one of them answers, they are answered differently by the store of that row.  Reads of one row
under one key are alike on every store exactly if the pairs are the same, which they are if no table
has the separator in its name. -/
theorem cache_keys_separate {P : Platform} (h : P.WritesNumbers) (S : ArraySort Fetched)
    (objects : Row → Text → ℕ) :
    (∀ d d', computeCacheKey P d = computeCacheKey P d' →
      (d.Unseparated → d'.Unseparated → SameParts P d d') ∧
      (SameParts P d d' → ∀ store, answer P S objects store d = answer P S objects store d') ∧
      ∀ row, Answers P d row → ¬ Answers P d' row →
        answer P S objects (.memory (storeOf row)) d ≠
          answer P S objects (.memory (storeOf row)) d') ∧
    ∀ p q, getRowCacheKey p = getRowCacheKey q →
      ((124 : CodeUnit) ∉ p.1 → (124 : CodeUnit) ∉ q.1 → p = q) ∧
      ((∀ store, answerRow store p = answerRow store q) ↔ p = q) := by
  refine ⟨fun d d' hkey => ⟨fun hd hd' => sameParts_of_unseparated h hd hd' hkey,
    fun hparts store => ?_, fun row hd hd' hsame => ?_⟩, fun p q hkey =>
    ⟨fun hp hq => eq_of_noBar hp hq hkey, answerRow_eq_iff hkey⟩⟩
  · rw [← answer_plain h, hparts.plain_eq h, answer_plain h]
  · rw [(answer_storeOf_iff d row).mpr hd] at hsame
    exact hd' ((answer_storeOf_iff d' row).mp hsame.symm)

/-- A number for every number, and one for both zeros. -/
def strokeCount : JsNumber → ℕ
  | .nan => 0
  | .posInf => 1
  | .negInf => 2
  | .negZero => Encodable.encode (0 : ℚ) + 3
  | .finite q => Encodable.encode q + 3

/-- A platform that writes numbers in strokes. -/
def strokePlatform : Platform := ⟨fun x => List.replicate (strokeCount x) 49, fun _ => []⟩

theorem writesNumbers_strokePlatform : strokePlatform.WritesNumbers where
  zeros := rfl
  inj := by
    intro x y hxy
    have hcount : strokeCount x = strokeCount y := by
      have hlength := congrArg List.length hxy
      rwa [strokePlatform, length_replicate, length_replicate] at hlength
    have hzero : ∀ q : ℚ, Encodable.encode q + 3 = Encodable.encode (0 : ℚ) + 3 → q = 0 :=
      fun q hq => Encodable.encode_injective (Nat.add_right_cancel hq)
    cases x <;> cases y <;> simp only [strokeCount] at hcount
    all_goals first
      | exact .inl rfl
      | omega
      | exact .inr ⟨rfl, isZero_iff.mpr (.inr (by rw [hzero _ hcount.symm]))⟩
      | exact .inr ⟨isZero_iff.mpr (.inr (by rw [hzero _ hcount])), rfl⟩
      | exact .inl (by rw [Encodable.encode_injective (Nat.add_right_cancel hcount)])
  plain := by
    intro x
    have hall : ∀ u ∈ strokePlatform.numberText x, u = 49 := fun u => eq_of_mem_replicate
    exact ⟨fun h => absurd (hall _ h) (by decide), fun h => absurd (hall _ h) (by decide)⟩

/-- The table `a`, in the order of the field `b`. -/
def orderedQuery : QueryDescriptor := ⟨[97], none, some ⟨[98], .asc⟩⟩

/-- The table `a|o=b:asc`. -/
def barredQuery : QueryDescriptor := ⟨[97, 124, 111, 61, 98, 58, 97, 115, 99], none, none⟩

/-- A row of the table `a|o=b:asc`. -/
def barredRow : Row := rowOfPair (barredQuery.table, [49])

theorem barred_key : computeCacheKey strokePlatform orderedQuery =
      computeCacheKey strokePlatform barredQuery ∧
    Answers strokePlatform barredQuery barredRow ∧
      ¬ Answers strokePlatform orderedQuery barredRow := by
  refine ⟨by decide, ⟨by decide, fun c hc => by cases hc⟩, fun h => absurd h.1 (by decide)⟩

/-- The two queries are answered differently. -/
theorem cache_keys_separate_barred :
    computeCacheKey strokePlatform barredQuery = computeCacheKey strokePlatform orderedQuery ∧
      answer strokePlatform (insertionSort Fetched) (fun _ _ => 0) (.memory (storeOf barredRow))
          barredQuery ≠
        answer strokePlatform (insertionSort Fetched) (fun _ _ => 0) (.memory (storeOf barredRow))
          orderedQuery :=
  ⟨barred_key.1.symm, ((cache_keys_separate writesNumbers_strokePlatform (insertionSort Fetched)
    (fun _ _ => 0)).1 barredQuery orderedQuery barred_key.1.symm).2.2 barredRow barred_key.2.1
      barred_key.2.2⟩

/-- **One entry for two queries.**  Neither the keys of queries nor those of rows tell everything
apart. -/
theorem not_cache_keys_separate :
    (¬ ∀ d d', computeCacheKey strokePlatform d = computeCacheKey strokePlatform d' →
      ∀ store, answer strokePlatform (insertionSort Fetched) (fun _ _ => 0) store d =
        answer strokePlatform (insertionSort Fetched) (fun _ _ => 0) store d') ∧
    ¬ ∀ p q, getRowCacheKey p = getRowCacheKey q →
      ∀ store, answerRow store p = answerRow store q := by
  constructor
  · intro hall
    have hsame := hall barredQuery orderedQuery barred_key.1.symm (.memory (storeOf barredRow))
    rw [(answer_storeOf_iff barredQuery barredRow).mpr barred_key.2.1] at hsame
    exact barred_key.2.2 ((answer_storeOf_iff orderedQuery barredRow).mp hsame.symm)
  · intro hall
    have hkey : getRowCacheKey ([97], [98, 124, 105, 100, 61, 99]) =
        getRowCacheKey ([97, 124, 105, 100, 61, 98], [99]) := by decide
    have hpair := (answerRow_eq_iff hkey).mp (hall _ _ hkey)
    exact absurd hpair (by decide)

end Interocitor.Queries
