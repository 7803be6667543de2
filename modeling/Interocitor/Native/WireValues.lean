import Interocitor.Foundation.Decimals
import Interocitor.Core.Crdt

/-!
# Column values on the wire, and when two of them are equal

A column value travels as JSON.  The three engines read it into three types and each has its
own idea of equality: `columnValuesEqual` compares JavaScript values, `_wire_value_equal` of
`crdt.py` compares what `json.loads` returns, and Swift derives `==` for `AnyCodable`.

* JavaScript has one number type and tells `-0` from `0`.
* Python reads an integer literal exactly and anything else as a float, and compares integers
  with floats by value.
* Swift reads a whole number that fits an `Int` as an integer and anything else as a `Double`,
  and never takes an integer for a `Double`; its strings are equal when they are canonically
  equivalent.

`Value.Within` collects what makes the three agree; `wireValueEqual_eq` and `equal_eq` are the
agreement, and `wireValueEqual_symm` lets the sides be exchanged.
-/

namespace Interocitor.Wire

open CodeUnits OrderedRecord Decimals List

/-! ## Values -/

/-- A JSON value as it stands in a change file. -/
inductive Value where
  | null
  | bool (b : Bool)
  | number (l : Literal)
  | string (t : Text)
  | array (items : List Value)
  | object (members : List (Text × Value))

/-- The number `JSON.parse` makes of a literal. -/
def jsNumber (l : Literal) : JsNumber :=
  match l.double with
  | .posInf => .posInf
  | .negInf => .negInf
  | .finite q => if l.negative ∧ q = 0 then .negZero else .finite q

mutual

/-- The value `JSON.parse` makes. -/
def toJs : Value → JsValue
  | .null => .null
  | .bool b => .bool b
  | .number l => .number (jsNumber l)
  | .string t => .string t
  | .array items => .array (itemsToJs items)
  | .object members => .object (membersToJs members)

/-- The items of an array, parsed. -/
def itemsToJs : List Value → List JsValue
  | [] => []
  | v :: items => toJs v :: itemsToJs items

/-- The members of an object, parsed. -/
def membersToJs : List (Text × Value) → List (Text × JsValue)
  | [] => []
  | (k, v) :: members => (k, toJs v) :: membersToJs members

end

mutual

/-- The numbers of a value are in the range of a `Double`; `JSONDecoder` refuses any other. -/
def Value.InRange : Value → Prop
  | .number l => ∃ q, l.double = .finite q
  | .array items => ItemsInRange items
  | .object members => MembersInRange members
  | _ => True

@[inherit_doc Value.InRange]
def ItemsInRange : List Value → Prop
  | [] => True
  | v :: items => v.InRange ∧ ItemsInRange items

@[inherit_doc Value.InRange]
def MembersInRange : List (Text × Value) → Prop
  | [] => True
  | (_, v) :: members => v.InRange ∧ MembersInRange members

end

/-! ## Python -/

namespace Python

/-- The number `json.loads` makes of a literal: an `int`, or a `float`; `==` compares values. -/
def number (l : Literal) : Extended :=
  match l.integer with
  | some i => .finite i
  | none => l.double

/-- `left.keys() == right.keys()`. -/
def sameKeys (left right : List (Text × Value)) : Bool :=
  ((left.map Prod.fst).all fun k => decide (k ∈ right.map Prod.fst)) &&
    (right.map Prod.fst).all fun k => decide (k ∈ left.map Prod.fst)

mutual

/-- `_wire_value_equal`. -/
def wireValueEqual : Value → Value → Bool
  | .null, .null => true
  | .bool a, .bool b => decide (a = b)
  | .number a, .number b => decide (number a = number b)
  | .string a, .string b => decide (a = b)
  | .array l, .array r => itemsEqual l r
  | .object l, .object r => sameKeys l r && membersEqual l r
  | _, _ => false
termination_by structural x => x

/-- Lists of one length with equal items. -/
def itemsEqual : List Value → List Value → Bool
  | [], [] => true
  | a :: l, b :: r => wireValueEqual a b && itemsEqual l r
  | _, _ => false
termination_by structural x => x

/-- Each value on the left equals the value of that key on the right. -/
def membersEqual : List (Text × Value) → List (Text × Value) → Bool
  | [], _ => true
  | p :: l, r => memberEqual p r && membersEqual l r
termination_by structural x => x

@[inherit_doc membersEqual]
def memberEqual : Text × Value → List (Text × Value) → Bool
  | (k, v), r =>
    match find k r with
    | some w => wireValueEqual v w
    | none => false
termination_by structural x => x

end

end Python

/-! ## Swift -/

namespace Swift

/-- A number of an `AnyCodable`: `.int`, or `.double`. -/
inductive Number where
  | int (i : ℤ)
  | double (x : Extended)
  deriving DecidableEq

/-- A whole number in the range of `Int`. -/
def FitsInt (q : ℚ) : Prop := q.den = 1 ∧ -2 ^ 63 ≤ q.num ∧ q.num < 2 ^ 63

instance (q : ℚ) : Decidable (FitsInt q) :=
  inferInstanceAs (Decidable (q.den = 1 ∧ -2 ^ 63 ≤ q.num ∧ q.num < 2 ^ 63))

/-- The number `AnyCodable.init(from:)` makes of a literal: it tries `Int`, then `Double`. -/
def number (l : Literal) : Number :=
  if FitsInt l.value then .int l.value.num else .double l.double

section Strings

variable (norm : Text → Text)

/-- The value of a key in a dictionary, whose keys are compared as `String`s are: by their
normal forms. -/
def lookup {V : Type} (k : Text) : List (Text × V) → Option V
  | [] => none
  | p :: l => if norm p.1 = norm k then some p.2 else lookup k l

mutual

/-- The derived `==` of `AnyCodable`. -/
def equal : Value → Value → Bool
  | .null, .null => true
  | .bool a, .bool b => decide (a = b)
  | .number a, .number b => decide (number a = number b)
  | .string a, .string b => decide (norm a = norm b)
  | .array l, .array r => itemsEqual l r
  | .object l, .object r => decide (l.length = r.length) && membersEqual l r
  | _, _ => false
termination_by structural x => x

/-- Arrays of one length with equal items. -/
def itemsEqual : List Value → List Value → Bool
  | [], [] => true
  | a :: l, b :: r => equal a b && itemsEqual l r
  | _, _ => false
termination_by structural x => x

/-- Each value on the left equals the value of that key on the right. -/
def membersEqual : List (Text × Value) → List (Text × Value) → Bool
  | [], _ => true
  | p :: l, r => memberEqual p r && membersEqual l r
termination_by structural x => x

@[inherit_doc membersEqual]
def memberEqual : Text × Value → List (Text × Value) → Bool
  | (k, v), r =>
    match lookup norm k r with
    | some w => equal v w
    | none => false
termination_by structural x => x

end

end Strings

end Swift

/-! ## What the three share -/

/-- A literal that the three read as the same number: a finite one that is not `-0`, exact
wherever one of them takes it for an integer. -/
def Faithful (l : Literal) : Prop :=
  ∃ q : ℚ, l.double = .finite q ∧ (l.negative = true → q ≠ 0) ∧
    (l.integer ≠ none → l.value = q) ∧ (Swift.FitsInt l.value ∨ Swift.FitsInt q → l.value = q)

mutual

/-- A value whose texts have a property, whose numbers are faithful and whose objects have
distinct member names. -/
def Value.Within (P : Text → Prop) : Value → Prop
  | .null => True
  | .bool _ => True
  | .number l => Faithful l
  | .string t => P t
  | .array items => WithinItems P items
  | .object members => (members.map Prod.fst).Nodup ∧ WithinMembers P members

/-- The items of an array. -/
def WithinItems (P : Text → Prop) : List Value → Prop
  | [] => True
  | v :: items => v.Within P ∧ WithinItems P items

/-- The members of an object. -/
def WithinMembers (P : Text → Prop) : List (Text × Value) → Prop
  | [] => True
  | (k, v) :: members => P k ∧ v.Within P ∧ WithinMembers P members

end

/-! ### Numbers -/

theorem faithful_ofInt {i : ℤ} (h : |i| < 2 ^ 53) : Faithful (.ofInt i) := by
  refine ⟨i, Literal.double_ofInt h, ?_, fun _ => Literal.value_ofInt i,
    fun _ => Literal.value_ofInt i⟩
  intro hneg hzero
  have hi : i = 0 := by exact_mod_cast hzero
  rw [hi] at hneg
  exact absurd hneg (by decide)

theorem jsNumber_of_faithful {l : Literal} {q : ℚ} (hq : l.double = .finite q)
    (hzero : l.negative = true → q ≠ 0) : jsNumber l = .finite q := by
  rw [jsNumber, hq]
  exact if_neg fun h => hzero h.1 h.2

theorem pythonNumber_of_faithful {l : Literal} {q : ℚ} (hq : l.double = .finite q)
    (hexact : l.integer ≠ none → l.value = q) : Python.number l = .finite q := by
  rw [Python.number]
  rcases hi : l.integer with _ | i
  · exact hq
  · have hvalue := hexact (by rw [hi]; exact Option.some_ne_none i)
    rw [l.value_of_integer hi] at hvalue
    exact congrArg Extended.finite hvalue

theorem swiftNumber_of_faithful {l : Literal} {q : ℚ} (hq : l.double = .finite q)
    (hexact : Swift.FitsInt l.value ∨ Swift.FitsInt q → l.value = q) :
    Swift.number l = if Swift.FitsInt q then .int q.num else .double (.finite q) := by
  rw [Swift.number]
  by_cases hl : Swift.FitsInt l.value
  · rw [← hexact (Or.inl hl), if_pos hl, if_pos hl]
  · have hq' : ¬ Swift.FitsInt q := fun h => hl (by rw [hexact (Or.inr h)]; exact h)
    rw [if_neg hl, if_neg hq', hq]

/-- **Faithful numbers** are equal in one engine exactly when they are in the others. -/
theorem number_eq_iff {l m : Literal} (hl : Faithful l) (hm : Faithful m) :
    (Python.number l = Python.number m ↔ jsNumber l = jsNumber m) ∧
      (Swift.number l = Swift.number m ↔ Python.number l = Python.number m) := by
  obtain ⟨q, hq, hzero, hint, hfits⟩ := hl
  obtain ⟨r, hr, hzero', hint', hfits'⟩ := hm
  rw [jsNumber_of_faithful hq hzero, jsNumber_of_faithful hr hzero',
    pythonNumber_of_faithful hq hint, pythonNumber_of_faithful hr hint',
    swiftNumber_of_faithful hq hfits, swiftNumber_of_faithful hr hfits', JsNumber.finite.injEq,
    Extended.finite.injEq]
  refine ⟨Iff.rfl, ?_⟩
  constructor
  · intro h
    split_ifs at h with hfq hfr
    · -- two integers with one numerator are equal
      have hnum := Swift.Number.int.inj h
      rw [← Rat.coe_int_num_of_den_eq_one hfq.1, hnum, Rat.coe_int_num_of_den_eq_one hfr.1]
    · exact Extended.finite.inj (Swift.Number.double.inj h)
  · intro h
    rw [h]

/-! ### Objects -/

theorem find_membersToJs (k : Text) (members : List (Text × Value)) :
    find k (membersToJs members) = (find k members).map toJs := by
  induction members with
  | nil => rfl
  | cons p members ih =>
    obtain ⟨j, v⟩ := p
    rw [membersToJs, find, find, ih]
    split_ifs <;> rfl

theorem keys_membersToJs (members : List (Text × Value)) :
    (membersToJs members).map Prod.fst = members.map Prod.fst := by
  induction members with
  | nil => rfl
  | cons p members ih =>
    obtain ⟨j, v⟩ := p
    rw [membersToJs, map_cons, map_cons, ih]

variable {P : Text → Prop}

theorem within_of_find {members : List (Text × Value)} (h : WithinMembers P members) {k : Text}
    {v : Value} (hk : find k members = some v) : v.Within P := by
  induction members with
  | nil => exact absurd hk (by simp [find])
  | cons p members ih =>
    obtain ⟨j, w⟩ := p
    rw [WithinMembers] at h
    rw [find] at hk
    split_ifs at hk with hj
    · rw [← Option.some.inj hk]
      exact h.2.1
    · exact ih h.2.2 hk

theorem key_of_mem {members : List (Text × Value)} (h : WithinMembers P members) {k : Text}
    (hk : k ∈ members.map Prod.fst) : P k := by
  induction members with
  | nil => exact absurd hk not_mem_nil
  | cons p members ih =>
    obtain ⟨j, w⟩ := p
    rw [WithinMembers] at h
    rw [map_cons, mem_cons] at hk
    rcases hk with rfl | hk
    · exact h.1
    · exact ih h.2.2 hk

variable {l r : List (Text × Value)}

theorem subset_of_membersEqual (h : Python.membersEqual l r = true) :
    l.map Prod.fst ⊆ r.map Prod.fst := by
  induction l with
  | nil => exact nil_subset _
  | cons p l ih =>
    obtain ⟨k, v⟩ := p
    rw [Python.membersEqual, Bool.and_eq_true_iff, Python.memberEqual] at h
    rw [map_cons, cons_subset]
    refine ⟨?_, ih h.2⟩
    rcases hk : find k r with _ | w
    · rw [hk] at h
      exact absurd h.1 Bool.false_ne_true
    · exact mem_map.mpr ⟨(k, w), mem_of_find hk, rfl⟩

theorem sameKeys_iff_perm (hl : (l.map Prod.fst).Nodup) (hr : (r.map Prod.fst).Nodup) :
    Python.sameKeys l r = true ↔ (l.map Prod.fst).Perm (r.map Prod.fst) := by
  rw [perm_ext_iff_of_nodup hl hr, Python.sameKeys, Bool.and_eq_true_iff, all_eq_true, all_eq_true]
  simp only [decide_eq_true_eq]
  exact ⟨fun h k => ⟨h.1 k, h.2 k⟩, fun h => ⟨fun k => (h k).mp, fun k => (h k).mpr⟩⟩

theorem length_eq_iff_perm (hl : (l.map Prod.fst).Nodup) (hsub : l.map Prod.fst ⊆ r.map Prod.fst) :
    l.length = r.length ↔ (l.map Prod.fst).Perm (r.map Prod.fst) := by
  constructor
  · intro h
    refine (hl.subperm hsub).perm_of_length_le ?_
    rw [length_map, length_map, h]
  · intro h
    have hlen := h.length_eq
    rwa [length_map, length_map] at hlen

/-! ### Agreement -/

section Core

variable {P : Text → Prop}

mutual

/-- **Python's equality is core's**, on shared values. -/
theorem wireValueEqual_eq : ∀ v w : Value, v.Within P → w.Within P →
    Python.wireValueEqual v w = columnValuesEqual (toJs v) (toJs w)
  | .null, w, _, _ => by
    cases w <;> simp [Python.wireValueEqual, toJs, columnValuesEqual]
  | .bool a, w, _, _ => by
    cases w <;> simp [Python.wireValueEqual, toJs, columnValuesEqual]
  | .string a, w, _, _ => by
    cases w <;> simp [Python.wireValueEqual, toJs, columnValuesEqual]
  | .number a, w, ha, hw => by
    cases w with
    | number b =>
      rw [Value.Within] at ha hw
      simp only [Python.wireValueEqual, toJs, columnValuesEqual, (number_eq_iff ha hw).1]
    | _ => simp [Python.wireValueEqual, toJs, columnValuesEqual]
  | .array l, w, hl, hw => by
    cases w with
    | array r =>
      rw [Value.Within] at hl hw
      simp only [Python.wireValueEqual, toJs, columnValuesEqual]
      exact itemsEqual_eq l r hl hw
    | _ => simp [Python.wireValueEqual, toJs, columnValuesEqual]
  | .object l, w, hl, hw => by
    cases w with
    | object r =>
      rw [Value.Within] at hl hw
      have hmembers := membersEqual_eq l r hl.2 hw.2
      simp only [Python.wireValueEqual, toJs, columnValuesEqual, ← hmembers]
      rcases hm : Python.membersEqual l r with _ | _
      · rw [Bool.and_false, Bool.and_false]
      · rw [Bool.and_true, Bool.and_true, Bool.eq_iff_iff, sameKeys_iff_perm hl.1 hw.1,
          decide_eq_true_eq, sortedKeys_eq_iff_perm, keys_membersToJs, keys_membersToJs]
    | _ => simp [Python.wireValueEqual, toJs, columnValuesEqual]

theorem itemsEqual_eq : ∀ l r : List Value, WithinItems P l → WithinItems P r →
    Python.itemsEqual l r = Interocitor.itemsEqual (itemsToJs l) (itemsToJs r)
  | [], r, _, _ => by
    cases r <;> simp [Python.itemsEqual, itemsToJs, Interocitor.itemsEqual]
  | v :: l, r, hl, hr => by
    cases r with
    | nil => simp [Python.itemsEqual, itemsToJs, Interocitor.itemsEqual]
    | cons w r =>
      rw [WithinItems] at hl hr
      simp only [Python.itemsEqual, itemsToJs, Interocitor.itemsEqual]
      rw [wireValueEqual_eq v w hl.1 hr.1, itemsEqual_eq l r hl.2 hr.2]

theorem membersEqual_eq : ∀ l r : List (Text × Value), WithinMembers P l → WithinMembers P r →
    Python.membersEqual l r = fieldsEqual (membersToJs l) (membersToJs r)
  | [], r, _, _ => by simp [Python.membersEqual, membersToJs, fieldsEqual]
  | (k, v) :: l, r, hl, hr => by
    rw [WithinMembers] at hl
    simp only [Python.membersEqual, membersToJs, fieldsEqual, Python.memberEqual, fieldEqual,
      find_membersToJs]
    rw [membersEqual_eq l r hl.2.2 hr]
    rcases hk : find k r with _ | w
    · rfl
    · simp only [Option.map_some]
      rw [wireValueEqual_eq v w hl.2.1 (within_of_find hr hk)]

end

/-! ### Symmetry -/

theorem membersEqual_iff :
    Python.membersEqual l r = true ↔ ∀ p ∈ l, Python.memberEqual p r = true := by
  induction l with
  | nil => simp [Python.membersEqual]
  | cons p l ih =>
    rw [Python.membersEqual, Bool.and_eq_true_iff, ih, forall_mem_cons]

mutual

/-- **Python's equality does not depend on the side.** -/
theorem wireValueEqual_symm : ∀ v w : Value, v.Within P → w.Within P →
    Python.wireValueEqual v w = true → Python.wireValueEqual w v = true
  | .null, w, _, _, h => by
    cases w <;> simp [Python.wireValueEqual] at h ⊢
  | .bool a, w, _, _, h => by
    cases w <;> simp_all [Python.wireValueEqual]
  | .string a, w, _, _, h => by
    cases w <;> simp_all [Python.wireValueEqual]
  | .number a, w, _, _, h => by
    cases w <;> simp_all [Python.wireValueEqual]
  | .array l, w, hl, hw, h => by
    cases w with
    | array r =>
      rw [Value.Within] at hl hw
      rw [Python.wireValueEqual] at h ⊢
      exact itemsEqual_symm l r hl hw h
    | _ => simp [Python.wireValueEqual] at h
  | .object l, w, hl, hw, h => by
    cases w with
    | object r =>
      rw [Value.Within] at hl hw
      rw [Python.wireValueEqual, Bool.and_eq_true_iff] at h ⊢
      have hperm := (sameKeys_iff_perm hl.1 hw.1).mp h.1
      refine ⟨(sameKeys_iff_perm hw.1 hl.1).mpr hperm.symm, membersEqual_iff.mpr ?_⟩
      rintro ⟨k, w⟩ hmem
      -- the member of this key on the left was compared with it
      obtain ⟨⟨_, v⟩, hv, rfl⟩ := mem_map.mp
        (hperm.mem_iff.mpr (mem_map.mpr ⟨_, hmem, rfl⟩) : k ∈ l.map Prod.fst)
      have heq := membersEqual_iff.mp h.2 _ hv
      rw [Python.memberEqual, find_of_mem hw.1 hmem] at heq
      rw [Python.memberEqual, find_of_mem hl.1 hv]
      exact memberEqual_symm l hl.2 _ hv w (within_of_find hw.2 (find_of_mem hw.1 hmem)) heq
    | _ => simp [Python.wireValueEqual] at h

theorem itemsEqual_symm : ∀ l r : List Value, WithinItems P l → WithinItems P r →
    Python.itemsEqual l r = true → Python.itemsEqual r l = true
  | [], r, _, _, h => by
    cases r <;> simp [Python.itemsEqual] at h ⊢
  | v :: l, r, hl, hr, h => by
    cases r with
    | nil => simp [Python.itemsEqual] at h
    | cons w r =>
      rw [WithinItems] at hl hr
      rw [Python.itemsEqual, Bool.and_eq_true_iff] at h ⊢
      exact ⟨wireValueEqual_symm v w hl.1 hr.1 h.1, itemsEqual_symm l r hl.2 hr.2 h.2⟩

theorem memberEqual_symm : ∀ l : List (Text × Value), WithinMembers P l → ∀ p ∈ l, ∀ w : Value,
    w.Within P → Python.wireValueEqual p.2 w = true → Python.wireValueEqual w p.2 = true
  | [], _, p, hp, _, _, _ => absurd hp not_mem_nil
  | (k, v) :: l, hl, p, hp, w, hw, h => by
    rw [WithinMembers] at hl
    rcases mem_cons.mp hp with rfl | hp
    · exact wireValueEqual_symm v w hl.2.1 hw h
    · exact memberEqual_symm l hl.2.2 p hp w hw h

end

end Core

/-- The texts with the property are told apart by their normal forms. -/
def ToldApart (norm : Text → Text) (P : Text → Prop) : Prop :=
  ∀ s t, P s → P t → norm s = norm t → s = t

theorem lookup_eq_find {V : Type} {norm : Text → Text} (hP : ToldApart norm P) {k : Text} (hk : P k)
    {l : List (Text × V)} (hl : ∀ j ∈ l.map Prod.fst, P j) : Swift.lookup norm k l = find k l := by
  induction l with
  | nil => rfl
  | cons p l ih =>
    rw [map_cons, forall_mem_cons] at hl
    rw [Swift.lookup, find, ih hl.2]
    by_cases hp : p.1 = k
    · rw [if_pos hp, if_pos (by rw [hp])]
    · rw [if_neg hp, if_neg fun h => hp (hP _ _ hl.1 hk h)]

section Swift

variable {norm : Text → Text} {P : Text → Prop}

mutual

/-- **Swift's equality is Python's**, on shared values. -/
theorem equal_eq (hP : ToldApart norm P) : ∀ v w : Value, v.Within P → w.Within P →
    Swift.equal norm v w = Python.wireValueEqual v w
  | .null, w, _, _ => by
    cases w <;> simp [Python.wireValueEqual, Swift.equal]
  | .bool a, w, _, _ => by
    cases w <;> simp [Python.wireValueEqual, Swift.equal]
  | .string a, w, ha, hw => by
    cases w with
    | string b =>
      rw [Value.Within] at ha hw
      have hiff : norm a = norm b ↔ a = b := ⟨hP a b ha hw, fun h => by rw [h]⟩
      simp only [Python.wireValueEqual, Swift.equal, hiff]
    | _ => simp [Python.wireValueEqual, Swift.equal]
  | .number a, w, ha, hw => by
    cases w with
    | number b =>
      rw [Value.Within] at ha hw
      simp only [Python.wireValueEqual, Swift.equal, (number_eq_iff ha hw).2]
    | _ => simp [Python.wireValueEqual, Swift.equal]
  | .array l, w, hl, hw => by
    cases w with
    | array r =>
      rw [Value.Within] at hl hw
      simp only [Python.wireValueEqual, Swift.equal]
      exact swiftItemsEqual_eq hP l r hl hw
    | _ => simp [Python.wireValueEqual, Swift.equal]
  | .object l, w, hl, hw => by
    cases w with
    | object r =>
      rw [Value.Within] at hl hw
      simp only [Python.wireValueEqual, Swift.equal]
      rw [swiftMembersEqual_eq hP l r hl.2 hw.2]
      rcases hm : Python.membersEqual l r with _ | _
      · rw [Bool.and_false, Bool.and_false]
      · rw [Bool.and_true, Bool.and_true, Bool.eq_iff_iff, sameKeys_iff_perm hl.1 hw.1,
          decide_eq_true_eq, length_eq_iff_perm hl.1 (subset_of_membersEqual hm)]
    | _ => simp [Python.wireValueEqual, Swift.equal]

theorem swiftItemsEqual_eq (hP : ToldApart norm P) : ∀ l r : List Value,
    WithinItems P l → WithinItems P r →
    Swift.itemsEqual norm l r = Python.itemsEqual l r
  | [], r, _, _ => by
    cases r <;> simp [Python.itemsEqual, Swift.itemsEqual]
  | v :: l, r, hl, hr => by
    cases r with
    | nil => simp [Python.itemsEqual, Swift.itemsEqual]
    | cons w r =>
      rw [WithinItems] at hl hr
      simp only [Python.itemsEqual, Swift.itemsEqual]
      rw [equal_eq hP v w hl.1 hr.1, swiftItemsEqual_eq hP l r hl.2 hr.2]

theorem swiftMembersEqual_eq (hP : ToldApart norm P) : ∀ l r : List (Text × Value),
    WithinMembers P l → WithinMembers P r → Swift.membersEqual norm l r = Python.membersEqual l r
  | [], r, _, _ => by simp [Python.membersEqual, Swift.membersEqual]
  | (k, v) :: l, r, hl, hr => by
    rw [WithinMembers] at hl
    have hlookup := lookup_eq_find hP hl.1 fun j hj => key_of_mem hr hj
    simp only [Python.membersEqual, Swift.membersEqual, Python.memberEqual, Swift.memberEqual,
      hlookup]
    rw [swiftMembersEqual_eq hP l r hl.2.2 hr]
    rcases hk : find k r with _ | w
    · rfl
    · simp only []
      rw [equal_eq hP v w hl.2.1 (within_of_find hr hk)]

end

end Swift

end Interocitor.Wire
