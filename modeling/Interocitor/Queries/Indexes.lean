import Interocitor.Queries.Stores

/-!
# Indexed queries and the linear scan

A query with a clause about an indexed field is answered by a range of keys, and any other by going
over the rows of the table.  The two go by different orders.  In an index values of different types
stand apart: numbers, then dates, then texts, then arrays, and what is no key does not stand in it
at all.  The scan uses `<`, which turns values of different types into numbers, and takes for equal
what is neither less nor greater.  So they agree where the value of the row and the operand are of
one type, and elsewhere only by accident.

There are two further differences.  A range that would be empty, or whose ends are no keys, makes
the query fail where the scan returns nothing or something; and a prefix ends at `U+FFFF`, after
which a text may still go on.

* `indexed_iff_scanned`: when a query is answered alike.
-/

namespace Interocitor.Queries

open CodeUnits OrderedRecord List Option

/-! ## Ranges -/

/-- Within a bound, by the order of the nearer and the farther key. -/
def Past (isOpen : Bool) (o : Ordering) : Prop := o = .lt ∨ o = .eq ∧ isOpen = false

variable {range : KeyRange}

theorem KeyRange.contains_iff {key : Key} :
    range.contains key = true ↔ Past range.lowerOpen (compareKeys range.lower key) ∧
      Past range.upperOpen (compareKeys key range.upper) := by
  rw [contains, Bool.and_eq_true, Past, Past]
  cases compareKeys range.lower key <;> cases compareKeys key range.upper <;> simp

theorem KeyRange.bound_eq_ok {lower upper : Key} {lowerOpen upperOpen : Bool} :
    bound lower upper lowerOpen upperOpen = .ok range ↔
      Past (lowerOpen || upperOpen) (compareKeys lower upper) ∧
        range = ⟨lower, upper, lowerOpen, upperOpen⟩ := by
  rw [bound, Past]
  cases compareKeys lower upper with
  | lt =>
    refine ⟨fun h => ⟨.inl rfl, (Except.ok.inj h).symm⟩, fun h => ?_⟩
    rw [h.2]
  | gt =>
    refine ⟨fun h => ?_, fun h => ?_⟩
    · cases h
    · rcases h.1 with h | ⟨h, -⟩ <;> cases h
  | eq =>
    cases lowerOpen <;> cases upperOpen
    · refine ⟨fun h => ⟨.inr ⟨rfl, rfl⟩, (Except.ok.inj h).symm⟩, fun h => ?_⟩
      rw [h.2]
      rfl
    all_goals
      refine ⟨fun h => ?_, fun h => ?_⟩
      · cases h
      · rcases h.1 with h | ⟨-, h⟩ <;> cases h

/-! ## Keys -/

theorem order_self {α : Type} [LT α] [DecidableLT α] {a : α} (h : ¬ a < a) : order a a = .eq := by
  rw [order, if_neg h, if_neg h]

theorem order_swap {α : Type} [LT α] [DecidableLT α] {a b : α} (h : a < b → ¬ b < a) :
    order b a = (order a b).swap := by
  unfold order
  by_cases hab : a < b
  · rw [if_pos hab, if_pos hab, if_neg (h hab)]
    rfl
  · by_cases hba : b < a
    · rw [if_pos hba, if_neg hab, if_pos hba]
      rfl
    · rw [if_neg hab, if_neg hab, if_neg hba, if_neg hba]
      rfl

/-- The key of an operand, which is no array. -/
def Key.Plain (k : Key) : Prop := k.rank < 3

/-- A value that is given or not, as a key. -/
def operandKey (w : Option WherePrimitive) : Option Key := toKey (givenValue w)

variable {k : Key}

theorem plain_of_operandKey {w : Option WherePrimitive} (h : operandKey w = some k) : k.Plain := by
  have hrank : ∀ r, k.rank = r → r < 3 → k.Plain := fun r hr hlt => by rw [Key.Plain, hr]; exact hlt
  cases w with
  | none => cases h
  | some w =>
    cases w with
    | string s =>
      obtain rfl : Key.string s = k := some.inj h
      exact hrank 2 rfl (by omega)
    | number n =>
      obtain ⟨x, -, rfl⟩ := map_eq_some_iff.mp (show n.extended.map Key.number = _ from h)
      exact hrank 0 rfl (by omega)
    | bool b => cases h
    | date time =>
      obtain ⟨t, -, rfl⟩ := map_eq_some_iff.mp (show time.map Key.date = some k from h)
      exact hrank 1 rfl (by omega)

theorem compareKeys_of_rank_ne {k' : Key} (h : k.rank ≠ k'.rank) :
    compareKeys k k' = order k.rank k'.rank := by
  cases k <;> cases k' <;> first
    | exact absurd rfl h
    | simp only [compareKeys]

theorem compareKeys_swap {k' : Key} (h : k'.Plain) :
    compareKeys k' k = (compareKeys k k').swap := by
  by_cases hrank : k.rank = k'.rank
  · cases k with
    | number x =>
      cases k' with
      | number y => simpa only [compareKeys] using order_swap lt_asymm
      | _ => cases hrank
    | date x =>
      cases k' with
      | date y => simpa only [compareKeys] using order_swap lt_asymm
      | _ => cases hrank
    | string x =>
      cases k' with
      | string y => simpa only [compareKeys] using order_swap lt_asymm
      | _ => cases hrank
    | array l =>
      cases k' with
      | array m => exact absurd h (lt_irrefl 3)
      | _ => cases hrank
  · rw [compareKeys_of_rank_ne hrank, compareKeys_of_rank_ne (Ne.symm hrank)]
    exact order_swap lt_asymm

theorem compareKeys_inTable (table : Text) (k k' : Key) :
    compareKeys (.array [.string table, k]) (.array [.string table, k']) = compareKeys k k' := by
  have htable : order table table = .eq := order_self (lt_irrefl table)
  simp only [compareKeys, compareItems, htable, Ordering.then_eq]
  rfl

theorem compareKeys_start (table : Text) (k : Key) :
    compareKeys (.array [.string table]) (.array [.string table, k]) = .lt := by
  have htable : order table table = .eq := order_self (lt_irrefl table)
  simp only [compareKeys, compareItems, htable]
  rfl

theorem compareKeys_end (h : k.Plain) : compareKeys k (.array []) = .lt := by
  cases k with
  | array items => exact absurd h (by simp [Key.Plain, Key.rank])
  | _ =>
    simp only [compareKeys, Key.rank]
    rfl

/-- No key but arrays with items comes after the end of a table. -/
def Bounded (u : Option Key) : Prop := ∀ items, u = some (.array items) → items = []

theorem past_end_iff : Past false (compareKeys k (.array [])) ↔ Bounded (some k) := by
  cases k with
  | array items =>
    cases items with
    | nil =>
      have heq : compareKeys (.array []) (.array []) = .eq := by
        simp only [compareKeys, compareItems]
      rw [heq]
      refine ⟨fun _ items h => ?_, fun _ => .inr ⟨rfl, rfl⟩⟩
      cases h
      rfl
    | cons a items =>
      have hgt : compareKeys (.array (a :: items)) (.array []) = .gt := by
        simp only [compareKeys, compareItems]
      rw [hgt]
      refine ⟨fun h => ?_, fun h => ?_⟩
      · rcases h with h | ⟨h, -⟩ <;> cases h
      · exact absurd (h _ rfl) (cons_ne_nil a items)
  | _ =>
    rw [compareKeys_end (by simp [Key.Plain, Key.rank])]
    exact ⟨fun _ items h => (by cases h), fun _ => .inl rfl⟩

/-! ## Prefixes -/

theorem lt_append_max (t : Text) : t < t ++ [65535] := by
  induction t with
  | nil => exact nil_lt_cons 65535 []
  | cons a t ih => exact cons_lt_cons_iff.mpr (.inr ⟨rfl, ih⟩)

/-- **The texts in the range of a prefix** are those that start with it, but for those that go on
after the prefix and `U+FFFF`. -/
theorem between_iff_isPrefix {t s : Text} : (¬ s < t ∧ ¬ t ++ [65535] < s) ↔
    t <+: s ∧ ¬ ∃ m, m ≠ [] ∧ s = t ++ 65535 :: m := by
  induction t generalizing s with
  | nil =>
    have hnil : ¬ s < [] := not_lt_nil s
    rw [nil_append]
    refine and_congr (iff_of_true hnil List.nil_prefix) (not_congr ?_)
    cases s with
    | nil =>
      refine iff_of_false (not_lt_nil _) ?_
      rintro ⟨m, -, hm⟩
      cases hm
    | cons a s =>
      rw [cons_lt_cons_iff]
      have hmax : ¬ (65535 : CodeUnit) < a := fun h => absurd a.isLt (by
        have hlt : (65535 : ℕ) < a.val := h
        omega)
      constructor
      · rintro (h | ⟨rfl, h⟩)
        · exact absurd h hmax
        · refine ⟨s, ?_, rfl⟩
          rintro rfl
          exact not_lt_nil _ h
      · rintro ⟨m, hm, heq⟩
        obtain ⟨rfl, rfl⟩ := List.cons.inj heq
        refine .inr ⟨rfl, ?_⟩
        cases s with
        | nil => exact absurd rfl hm
        | cons b s => exact nil_lt_cons b s
  | cons b t ih =>
    cases s with
    | nil =>
      refine iff_of_false (fun h => h.1 (nil_lt_cons b t)) fun h => ?_
      exact absurd h.1 (by simp)
    | cons a s =>
      rw [cons_append, cons_lt_cons_iff, cons_lt_cons_iff, cons_prefix_cons]
      rcases lt_trichotomy a b with hab | rfl | hab
      · exact iff_of_false (fun h => h.1 (.inl hab)) fun h => absurd h.1.1 hab.ne'
      · simp only [lt_irrefl, false_or, true_and, cons_append, List.cons.injEq]
        exact ih
      · exact iff_of_false (fun h => h.2 (.inl hab)) fun h => absurd h.1.1 hab.ne

/-! ## What an index says of a row -/

/-- The key of a row and that of an operand stand so. -/
def Stands (u : Option Key) (w : Option WherePrimitive) (p : Ordering → Prop) : Prop :=
  ∃ k k', u = some k ∧ operandKey w = some k' ∧ p (compareKeys k k')

/-- The text whose prefixes an index is asked for. -/
def indexPrefix (P : Platform) (clause : WhereClause) : Text :=
  if clause.value = none then [] else stringOf P clause.value

/-- The range of a clause is one: its ends are keys, and it is not empty. -/
def Usable (clause : WhereClause) : Prop :=
  match clause.op with
  | .startsWith => True
  | .between => ∃ k k', operandKey clause.lower = some k ∧ operandKey clause.upper = some k' ∧
      Past (clause.lowerOpen || clause.upperOpen) (compareKeys k k')
  | .anyOf => ∀ w ∈ clause.values.getD [], ∃ k, operandKey (some w) = some k
  | _ => ∃ k, operandKey clause.value = some k

/-- What an index says of a row under a key. -/
def Verdict (P : Platform) (u : Option Key) (clause : WhereClause) : Prop :=
  match clause.op with
  | .equals => Stands u clause.value (· = .eq)
  | .above => Stands u clause.value (· = .gt) ∧ Bounded u
  | .aboveOrEqual => Stands u clause.value (· ≠ .lt) ∧ Bounded u
  | .below => Stands u clause.value (· = .lt)
  | .belowOrEqual => Stands u clause.value (· ≠ .gt)
  | .between =>
    Stands u clause.lower (fun o => if clause.lowerOpen then o = .gt else o ≠ .lt) ∧
      Stands u clause.upper fun o => if clause.upperOpen then o = .lt else o ≠ .gt
  | .startsWith => ∃ s, u = some (.string s) ∧ indexPrefix P clause <+: s ∧
      ¬ ∃ m, m ≠ [] ∧ s = indexPrefix P clause ++ 65535 :: m
  | .anyOf => ∃ w ∈ clause.values.getD [], Stands u (some w) (· = .eq)

variable {o : Ordering}

theorem past_false_iff : Past false o ↔ o ≠ .gt := by
  cases o <;> simp [Past]

theorem past_true_iff : Past true o ↔ o = .lt := by
  cases o <;> simp [Past]

theorem past_iff {isOpen : Bool} : Past isOpen o ↔ if isOpen then o = .lt else o ≠ .gt := by
  cases isOpen with
  | true => rw [past_true_iff, if_pos rfl]
  | false => rw [past_false_iff, if_neg Bool.false_ne_true]

theorem past_swap_iff {isOpen : Bool} :
    Past isOpen o.swap ↔ if isOpen then o = .gt else o ≠ .lt := by
  cases isOpen <;> cases o <;> simp [Past]

section Selected

variable {P : Platform} {field table : Text} {clause : WhereClause} {row : Row} {k : Key}

theorem indexKey_eq (hrow : inTable table row = true) :
    indexKey row field = some k ↔ ∃ u, (indexedValue row field).bind toKey = some u ∧
      k = .array [.string table, u] := by
  have htable : row._meta.table = table := (of_decide_eq_true hrow).1
  rw [indexKey, htable, map_eq_some_iff]
  exact exists_congr fun u => and_congr_right fun _ => eq_comm

theorem within_iff (hrow : inTable table row = true) :
    IndexedDbStore.Within field range row ↔ ∃ u, (indexedValue row field).bind toKey = some u ∧
      Past range.lowerOpen (compareKeys range.lower (.array [.string table, u])) ∧
        Past range.upperOpen (compareKeys (.array [.string table, u]) range.upper) := by
  rw [IndexedDbStore.Within]
  simp only [indexKey_eq hrow, KeyRange.contains_iff]
  constructor
  · rintro ⟨_, ⟨u, hu, rfl⟩, hpast⟩
    exact ⟨u, hu, hpast⟩
  · rintro ⟨u, hu, hpast⟩
    exact ⟨_, ⟨u, hu, rfl⟩, hpast⟩

theorem onlyKey_eq (table : Text) (k : Key) (hk : k.Plain) : IndexedDbStore.onlyKey table k =
    .ok ⟨.array [.string table, k], .array [.string table, k], false, false⟩ := by
  refine KeyRange.bound_eq_ok.mpr ⟨.inr ⟨?_, rfl⟩, rfl⟩
  have hself : (compareKeys k k).swap = compareKeys k k := (compareKeys_swap hk).symm
  rw [compareKeys_inTable]
  revert hself
  cases compareKeys k k <;> simp

theorem within_only_iff (hrow : inTable table row = true) {w : Option WherePrimitive}
    (hk : operandKey w = some k) :
    IndexedDbStore.Within field
        ⟨.array [.string table, k], .array [.string table, k], false, false⟩ row ↔
      Stands ((indexedValue row field).bind toKey) w (· = .eq) := by
  have hplain := plain_of_operandKey hk
  rw [within_iff hrow]
  constructor
  · rintro ⟨u, hu, hlower, hupper⟩
    refine ⟨u, k, hu, hk, ?_⟩
    rw [compareKeys_inTable] at hlower hupper
    rw [compareKeys_swap hplain] at hlower
    revert hlower hupper
    cases compareKeys u k <;> simp [Past]
  · rintro ⟨u, k', hu, hk', heq⟩
    rw [← some.inj (hk.symm.trans hk')] at heq
    refine ⟨u, hu, ?_⟩
    rw [compareKeys_inTable, compareKeys_inTable, compareKeys_swap hplain]
    rw [show compareKeys u k = .eq from heq]
    exact ⟨.inr ⟨rfl, rfl⟩, .inr ⟨rfl, rfl⟩⟩

theorem selected_of_range (hop : clause.op ≠ .anyOf)
    (hrange : rangeForClause P table clause = .ok range) :
    IndexedDbStore.Selected P field table clause row ↔ IndexedDbStore.Within field range row := by
  rw [IndexedDbStore.Selected, if_neg hop]
  constructor
  · rintro ⟨range', hrange', hwithin⟩
    rwa [Except.ok.inj (hrange.symm.trans hrange')]
  · exact fun hwithin => ⟨range, hrange, hwithin⟩

theorem within_between_iff (hrow : inTable table row = true) {k' : Key} (hk : k.Plain)
    {lowerOpen upperOpen : Bool} :
    IndexedDbStore.Within field
        ⟨.array [.string table, k], .array [.string table, k'], lowerOpen, upperOpen⟩ row ↔
      ∃ u, (indexedValue row field).bind toKey = some u ∧
        (if lowerOpen then compareKeys u k = .gt else compareKeys u k ≠ .lt) ∧
          if upperOpen then compareKeys u k' = .lt else compareKeys u k' ≠ .gt := by
  rw [within_iff hrow]
  refine exists_congr fun u => and_congr_right fun _ => ?_
  rw [compareKeys_inTable, compareKeys_inTable, compareKeys_swap hk]
  exact and_congr past_swap_iff past_iff

theorem within_above_iff (hrow : inTable table row = true) (hk : k.Plain) {lowerOpen : Bool} :
    IndexedDbStore.Within field
        ⟨.array [.string table, k], .array [.string table, .array []], lowerOpen, false⟩ row ↔
      ∃ u, (indexedValue row field).bind toKey = some u ∧
        (if lowerOpen then compareKeys u k = .gt else compareKeys u k ≠ .lt) ∧
          Bounded (some u) := by
  rw [within_iff hrow]
  refine exists_congr fun u => and_congr_right fun _ => ?_
  rw [compareKeys_inTable, compareKeys_inTable, compareKeys_swap hk]
  exact and_congr past_swap_iff past_end_iff

theorem within_below_iff (hrow : inTable table row = true) {upperOpen : Bool} :
    IndexedDbStore.Within field
        ⟨.array [.string table], .array [.string table, k], false, upperOpen⟩ row ↔
      ∃ u, (indexedValue row field).bind toKey = some u ∧
        if upperOpen then compareKeys u k = .lt else compareKeys u k ≠ .gt := by
  rw [within_iff hrow]
  refine exists_congr fun u => and_congr_right fun _ => ?_
  rw [compareKeys_start, compareKeys_inTable]
  exact (and_iff_right (.inl rfl)).trans past_iff

theorem stands_iff {u : Option Key} {w : Option WherePrimitive} (hk : operandKey w = some k)
    {p : Ordering → Prop} : Stands u w p ↔ ∃ k', u = some k' ∧ p (compareKeys k' k) := by
  constructor
  · rintro ⟨k', k'', hu, hk'', hp⟩
    rw [← some.inj (hk.symm.trans hk'')] at hp
    exact ⟨k', hu, hp⟩
  · rintro ⟨k', hu, hp⟩
    exact ⟨k', k, hu, hk, hp⟩

theorem within_prefix_iff (hrow : inTable table row = true) {t : Text} :
    IndexedDbStore.Within field ⟨.array [.string table, .string t],
        .array [.string table, .string (t ++ [65535])], false, false⟩ row ↔
      ∃ s, (indexedValue row field).bind toKey = some (.string s) ∧ t <+: s ∧
        ¬ ∃ m, m ≠ [] ∧ s = t ++ 65535 :: m := by
  have hplain : (Key.string t).Plain := show 2 < 3 by omega
  have hlt : ∀ {a b : Text}, compareKeys (.string a) (.string b) ≠ .lt ↔ ¬ a < b := by
    intro a b
    simp only [compareKeys, order]
    split_ifs with h h' <;> simp [h]
  have hgt : ∀ {a b : Text}, compareKeys (.string a) (.string b) ≠ .gt ↔ ¬ b < a := by
    intro a b
    simp only [compareKeys, order]
    split_ifs with h h'
    · simp [lt_asymm h]
    · simp [h']
    · simp [h']
  simp only [within_between_iff hrow hplain, if_neg Bool.false_ne_true, ← between_iff_isPrefix]
  constructor
  · rintro ⟨u, hu, hlower, hupper⟩
    cases u with
    | string s => exact ⟨s, hu, hlt.mp hlower, hgt.mp hupper⟩
    | number x => exact absurd (by simp only [compareKeys, Key.rank]; rfl) hlower
    | date x => exact absurd (by simp only [compareKeys, Key.rank]; rfl) hlower
    | array items => exact absurd (by simp only [compareKeys, Key.rank]; rfl) hupper
  · rintro ⟨s, hs, hlower, hupper⟩
    exact ⟨_, hs, hlt.mpr hlower, hgt.mpr hupper⟩

section Operand

variable {k : Key} (hk : operandKey clause.value = some k)
include hk

theorem range_equals (hop : clause.op = .equals) : rangeForClause P table clause =
    .ok ⟨.array [.string table, k], .array [.string table, k], false, false⟩ := by
  simp only [rangeForClause, hop, show toKey (givenValue clause.value) = some k from hk]
  exact onlyKey_eq table k (plain_of_operandKey hk)

theorem range_above (hop : clause.op = .above) : rangeForClause P table clause =
    .ok ⟨.array [.string table, k], .array [.string table, .array []], true, false⟩ := by
  simp only [rangeForClause, hop, show toKey (givenValue clause.value) = some k from hk]
  refine KeyRange.bound_eq_ok.mpr ⟨.inl ?_, rfl⟩
  rw [compareKeys_inTable, compareKeys_end (plain_of_operandKey hk)]

theorem range_aboveOrEqual (hop : clause.op = .aboveOrEqual) : rangeForClause P table clause =
    .ok ⟨.array [.string table, k], .array [.string table, .array []], false, false⟩ := by
  simp only [rangeForClause, hop, show toKey (givenValue clause.value) = some k from hk]
  refine KeyRange.bound_eq_ok.mpr ⟨.inl ?_, rfl⟩
  rw [compareKeys_inTable, compareKeys_end (plain_of_operandKey hk)]

theorem range_below (hop : clause.op = .below) : rangeForClause P table clause =
    .ok ⟨.array [.string table], .array [.string table, k], false, true⟩ := by
  simp only [rangeForClause, hop, show toKey (givenValue clause.value) = some k from hk]
  exact KeyRange.bound_eq_ok.mpr ⟨.inl (compareKeys_start table k), rfl⟩

theorem range_belowOrEqual (hop : clause.op = .belowOrEqual) : rangeForClause P table clause =
    .ok ⟨.array [.string table], .array [.string table, k], false, false⟩ := by
  simp only [rangeForClause, hop, show toKey (givenValue clause.value) = some k from hk]
  exact KeyRange.bound_eq_ok.mpr ⟨.inl (compareKeys_start table k), rfl⟩

end Operand

theorem range_between {k' : Key} (hk : operandKey clause.lower = some k)
    (hk' : operandKey clause.upper = some k')
    (hpast : Past (clause.lowerOpen || clause.upperOpen) (compareKeys k k'))
    (hop : clause.op = .between) : rangeForClause P table clause =
      .ok ⟨.array [.string table, k], .array [.string table, k'], clause.lowerOpen,
        clause.upperOpen⟩ := by
  simp only [rangeForClause, hop, show toKey (givenValue clause.lower) = some k from hk,
    show toKey (givenValue clause.upper) = some k' from hk']
  refine KeyRange.bound_eq_ok.mpr ⟨?_, rfl⟩
  rwa [compareKeys_inTable]

theorem range_startsWith (hop : clause.op = .startsWith) : rangeForClause P table clause =
    .ok ⟨.array [.string table, .string (indexPrefix P clause)],
      .array [.string table, .string (indexPrefix P clause ++ [65535])], false, false⟩ := by
  simp only [rangeForClause, hop]
  refine KeyRange.bound_eq_ok.mpr ⟨.inl ?_, rfl⟩
  rw [compareKeys_inTable]
  simp only [compareKeys, order]
  exact if_pos (lt_append_max _)

theorem exists_range (hop : clause.op ≠ .anyOf) (husable : Usable clause) :
    ∃ range, rangeForClause P table clause = .ok range := by
  rw [Usable] at husable
  cases h : clause.op with
  | anyOf => exact absurd h hop
  | startsWith => exact ⟨_, range_startsWith h⟩
  | between =>
    rw [h] at husable
    obtain ⟨k, k', hk, hk', hpast⟩ := husable
    exact ⟨_, range_between hk hk' hpast h⟩
  | equals =>
    rw [h] at husable
    obtain ⟨k, hk⟩ := husable
    exact ⟨_, range_equals hk h⟩
  | above =>
    rw [h] at husable
    obtain ⟨k, hk⟩ := husable
    exact ⟨_, range_above hk h⟩
  | aboveOrEqual =>
    rw [h] at husable
    obtain ⟨k, hk⟩ := husable
    exact ⟨_, range_aboveOrEqual hk h⟩
  | below =>
    rw [h] at husable
    obtain ⟨k, hk⟩ := husable
    exact ⟨_, range_below hk h⟩
  | belowOrEqual =>
    rw [h] at husable
    obtain ⟨k, hk⟩ := husable
    exact ⟨_, range_belowOrEqual hk h⟩

/-- **What an index says**, without ranges. -/
theorem selected_iff (husable : Usable clause) (hrow : inTable table row = true) :
    IndexedDbStore.Selected P field table clause row ↔
      Verdict P ((indexedValue row field).bind toKey) clause := by
  obtain ⟨name, op, value, values, lower, upper, lowerOpen, upperOpen⟩ := clause
  cases op with
  | equals =>
    obtain ⟨k, hk⟩ : ∃ k, operandKey value = some k := husable
    exact (selected_of_range (by rintro ⟨⟩) (range_equals hk rfl)).trans (within_only_iff hrow hk)
  | above =>
    obtain ⟨k, hk⟩ : ∃ k, operandKey value = some k := husable
    rw [selected_of_range (by rintro ⟨⟩) (range_above hk rfl),
      within_above_iff hrow (plain_of_operandKey hk), Verdict]
    simp only [stands_iff hk, if_true]
    constructor
    · rintro ⟨u, hu, hgt, hbounded⟩
      exact ⟨⟨u, hu, hgt⟩, hu ▸ hbounded⟩
    · rintro ⟨⟨u, hu, hgt⟩, hbounded⟩
      exact ⟨u, hu, hgt, hu ▸ hbounded⟩
  | aboveOrEqual =>
    obtain ⟨k, hk⟩ : ∃ k, operandKey value = some k := husable
    rw [selected_of_range (by rintro ⟨⟩) (range_aboveOrEqual hk rfl),
      within_above_iff hrow (plain_of_operandKey hk), Verdict]
    simp only [stands_iff hk, if_neg Bool.false_ne_true]
    constructor
    · rintro ⟨u, hu, hge, hbounded⟩
      exact ⟨⟨u, hu, hge⟩, hu ▸ hbounded⟩
    · rintro ⟨⟨u, hu, hge⟩, hbounded⟩
      exact ⟨u, hu, hge, hu ▸ hbounded⟩
  | below =>
    obtain ⟨k, hk⟩ : ∃ k, operandKey value = some k := husable
    rw [selected_of_range (by rintro ⟨⟩) (range_below hk rfl), within_below_iff hrow, Verdict]
    simp only [stands_iff hk, if_true]
  | belowOrEqual =>
    obtain ⟨k, hk⟩ : ∃ k, operandKey value = some k := husable
    rw [selected_of_range (by rintro ⟨⟩) (range_belowOrEqual hk rfl), within_below_iff hrow,
      Verdict]
    simp only [stands_iff hk, if_neg Bool.false_ne_true]
  | between =>
    obtain ⟨k, k', hk, hk', hpast⟩ : ∃ k k', operandKey lower = some k ∧
      operandKey upper = some k' ∧ Past (lowerOpen || upperOpen) (compareKeys k k') := husable
    rw [selected_of_range (by rintro ⟨⟩) (range_between hk hk' hpast rfl),
      within_between_iff hrow (plain_of_operandKey hk), Verdict]
    simp only [stands_iff hk, stands_iff hk']
    constructor
    · rintro ⟨u, hu, hlower, hupper⟩
      exact ⟨⟨u, hu, hlower⟩, u, hu, hupper⟩
    · rintro ⟨⟨u, hu, hlower⟩, u', hu', hupper⟩
      rw [← some.inj (hu.symm.trans hu')] at hupper
      exact ⟨u, hu, hlower, hupper⟩
  | startsWith =>
    exact (selected_of_range (by rintro ⟨⟩) (range_startsWith rfl)).trans (within_prefix_iff hrow)
  | anyOf =>
    rw [IndexedDbStore.Selected, if_pos rfl, Verdict]
    refine exists_congr fun w => and_congr_right fun hw => ?_
    obtain ⟨k, hk⟩ := husable w hw
    rw [← within_only_iff hrow hk]
    constructor
    · rintro ⟨k', range, hk', hrange, hwithin⟩
      obtain rfl : k = k' := some.inj (hk.symm.trans hk')
      rw [onlyKey_eq table k (plain_of_operandKey hk)] at hrange
      rwa [Except.ok.inj hrange]
    · exact fun hwithin => ⟨k, _, hk, onlyKey_eq table k (plain_of_operandKey hk), hwithin⟩

end Selected

/-! ## What the scan says of a value -/

/-- A comparison of the scan comes out so. -/
def Tells (P : Platform) (v : JsValue) (w : Option WherePrimitive) (p : ℤ → Prop) : Prop :=
  ∃ c, compare P v (givenValue w) = some c ∧ p c

/-- A value that is not missing. -/
def Present (v : JsValue) : Prop := v ≠ .undefined ∧ v ≠ .null

/-- A value passes a clause. -/
def Passes (P : Platform) (v : JsValue) (clause : WhereClause) : Prop :=
  match clause.op with
  | .equals => Tells P v clause.value (· = 0)
  | .above => Tells P v clause.value (0 < ·)
  | .aboveOrEqual => Tells P v clause.value (0 ≤ ·)
  | .below => Tells P v clause.value (· < 0)
  | .belowOrEqual => Tells P v clause.value (· ≤ 0)
  | .between => Tells P v clause.lower (fun c => if clause.lowerOpen then 0 < c else 0 ≤ c) ∧
      Tells P v clause.upper fun c => if clause.upperOpen then c < 0 else c ≤ 0
  | .startsWith => ∃ s, v = .string s ∧ stringOf P clause.value <+: s
  | .anyOf => ∃ w ∈ clause.values.getD [], Tells P v (some w) (· = 0)

/-- The scan throws: the value cannot be turned into a primitive one, and is compared. -/
def Throws (P : Platform) (v : JsValue) (clause : WhereClause) : Prop :=
  toPrimitive P v = none ∧ clause.op ≠ .startsWith ∧
    ¬ (clause.op = .anyOf ∧ clause.values.getD [] = [])

section Scan

variable {P : Platform} {v : JsValue}

theorem exists_toPrimitive (w : Option WherePrimitive) :
    ∃ p, toPrimitive P (givenValue w) = some p := by
  cases w with
  | none => exact ⟨_, rfl⟩
  | some w => cases w <;> exact ⟨_, rfl⟩

variable {w : Option WherePrimitive}

theorem compare_eq_none_iff : compare P v (givenValue w) = none ↔ toPrimitive P v = none := by
  obtain ⟨p, hp⟩ := exists_toPrimitive (P := P) w
  rw [compare_eq, hp]
  cases toPrimitive P v with
  | none => exact iff_of_true rfl rfl
  | some x => exact iff_of_false (by rintro ⟨⟩) (by rintro ⟨⟩)

theorem tiedWithAny_eq_some (ws : List WherePrimitive) (hv : toPrimitive P v ≠ none) :
    ∃ b, tiedWithAny P v ws = some b ∧
      (b = true ↔ ∃ w ∈ ws, Tells P v (some w) (· = 0)) := by
  induction ws with
  | nil => exact ⟨false, rfl, by simp⟩
  | cons w ws ih =>
    obtain ⟨b, hb, hiff⟩ := ih
    obtain ⟨c, hc⟩ := ne_none_iff_exists'.mp
      (mt (compare_eq_none_iff (P := P) (v := v) (w := some w)).mp hv)
    have hcompare : compare P v w.toJs = some c := hc
    have htells : Tells P v (some w) (· = 0) ↔ c = 0 := by
      refine ⟨fun ⟨d, hd, hzero⟩ => ?_, fun hzero => ⟨c, hc, hzero⟩⟩
      rw [some.inj (hc.symm.trans hd)]
      exact hzero
    rw [tiedWithAny, hcompare, bind_some]
    split_ifs with hzero
    · exact ⟨true, rfl, iff_of_true rfl ⟨w, mem_cons_self, htells.mpr hzero⟩⟩
    · refine ⟨b, hb, hiff.trans ?_⟩
      constructor
      · exact fun ⟨w', hw', h⟩ => ⟨w', mem_cons_of_mem w hw', h⟩
      · rintro ⟨w', hw', h⟩
        rcases mem_cons.mp hw' with rfl | hw'
        · exact absurd (htells.mp h) hzero
        · exact ⟨w', hw', h⟩

theorem tells_iff_map {p : ℤ → Prop} [DecidablePred p] :
    (compare P v (givenValue w)).map (fun c => decide (p c)) = some true ↔ Tells P v w p := by
  rw [map_eq_some_iff]
  exact exists_congr fun c => and_congr_right fun _ => decide_eq_true_iff

theorem map_eq_none_iff {f : ℤ → Bool} :
    (compare P v (givenValue w)).map f = none ↔ toPrimitive P v = none := by
  rw [Option.map_eq_none_iff, compare_eq_none_iff]

theorem between_iff {lower upper : Option WherePrimitive} {f g : ℤ → Bool} :
    ((compare P v (givenValue lower)).bind fun c =>
        (compare P v (givenValue upper)).map fun d => f c && g d) = some true ↔
      Tells P v lower (fun c => f c = true) ∧ Tells P v upper fun d => g d = true := by
  rw [bind_eq_some_iff]
  constructor
  · rintro ⟨c, hc, h⟩
    obtain ⟨d, hd, hboth⟩ := map_eq_some_iff.mp h
    obtain ⟨hf, hg⟩ := (Bool.and_eq_true _ _).mp hboth
    exact ⟨⟨c, hc, hf⟩, d, hd, hg⟩
  · rintro ⟨⟨c, hc, hf⟩, d, hd, hg⟩
    refine ⟨c, hc, ?_⟩
    rw [hd, map_some, hf, hg]
    rfl

variable {clause : WhereClause}

theorem matchesClause_anyOf (hv : Present v) (hop : clause.op = .anyOf) :
    matchesClause P v clause = tiedWithAny P v (clause.values.getD []) := by
  cases v with
  | undefined => exact absurd rfl hv.1
  | null => exact absurd rfl hv.2
  | _ => simp only [matchesClause, hop]

/-- **What the scan says of a value that is there.** -/
theorem matchesClause_iff (hv : Present v) (hthrows : ¬ Throws P v clause) :
    matchesClause P v clause = some true ↔ Passes P v clause := by
  obtain ⟨name, op, value, values, lower, upper, lowerOpen, upperOpen⟩ := clause
  cases op with
  | between =>
    have hbetween : matchesClause P v ⟨name, .between, value, values, lower, upper, lowerOpen,
        upperOpen⟩ = some true ↔
        Tells P v lower (fun c => (if lowerOpen then decide (0 < c) else decide (0 ≤ c)) = true) ∧
          Tells P v upper (fun c =>
            (if upperOpen then decide (c < 0) else decide (c ≤ 0)) = true) := by
      cases v with
      | undefined => exact absurd rfl hv.1
      | null => exact absurd rfl hv.2
      | _ => exact between_iff
    rw [hbetween, Passes]
    cases lowerOpen <;> cases upperOpen <;>
      simp only [if_true, if_false, Bool.false_eq_true, decide_eq_true_eq]
  | startsWith =>
    have hstarts : matchesClause P v ⟨name, .startsWith, value, values, lower, upper, lowerOpen,
        upperOpen⟩ = some (startsWith v (stringOf P value)) := by
      cases v with
      | undefined => exact absurd rfl hv.1
      | null => exact absurd rfl hv.2
      | _ => rfl
    rw [hstarts, some_inj, Passes]
    cases v with
    | string s =>
      rw [startsWith, isPrefixOf_iff_prefix]
      refine ⟨fun h => ⟨s, rfl, h⟩, ?_⟩
      rintro ⟨s', hs', h⟩
      rwa [JsValue.string.inj hs']
    | _ =>
      refine iff_of_false Bool.false_ne_true ?_
      rintro ⟨s, hs, -⟩
      cases hs
  | anyOf =>
    rw [matchesClause_anyOf hv rfl]
    dsimp only
    by_cases hnone : toPrimitive P v = none
    · have hempty : values.getD [] = [] := by
        by_contra hne
        exact hthrows ⟨hnone, by rintro ⟨⟩, fun h => hne h.2⟩
      rw [Passes]
      simp only [hempty]
      refine iff_of_false (by rintro ⟨⟩) ?_
      rintro ⟨w, hw, -⟩
      cases hw
    · obtain ⟨b, hb, hiff⟩ := tiedWithAny_eq_some (values.getD []) hnone
      rw [hb, some_inj, hiff]
      rfl
  | _ =>
    cases v with
    | undefined => exact absurd rfl hv.1
    | null => exact absurd rfl hv.2
    | _ => exact tells_iff_map

/-- **When the scan throws.** -/
theorem matchesClause_eq_none_iff :
    matchesClause P v clause = none ↔ Present v ∧ Throws P v clause := by
  obtain ⟨name, op, value, values, lower, upper, lowerOpen, upperOpen⟩ := clause
  by_cases hv : Present v
  · rw [and_iff_right hv, Throws]
    cases op with
    | between =>
      have hbetween : matchesClause P v ⟨name, .between, value, values, lower, upper, lowerOpen,
          upperOpen⟩ = none ↔ toPrimitive P v = none := by
        have hall : ∀ f g : ℤ → Bool, ((compare P v (givenValue lower)).bind fun c =>
            (compare P v (givenValue upper)).map fun d => f c && g d) = none ↔
              toPrimitive P v = none := by
          intro f g
          rw [bind_eq_none_iff]
          constructor
          · intro h
            by_contra hv
            obtain ⟨c, hc⟩ := ne_none_iff_exists'.mp (mt compare_eq_none_iff.mp hv)
            exact hv (map_eq_none_iff.mp (h c hc))
          · intro h c hc
            rw [compare_eq_none_iff.mpr h] at hc
            cases hc
        cases v with
        | undefined => exact absurd rfl hv.1
        | null => exact absurd rfl hv.2
        | _ => exact hall _ _
      rw [hbetween]
      exact ⟨fun h => ⟨h, by rintro ⟨⟩, by rintro ⟨⟨⟩, -⟩⟩, fun h => h.1⟩
    | startsWith =>
      refine iff_of_false ?_ fun h => h.2.1 rfl
      cases v with
      | undefined => exact absurd rfl hv.1
      | null => exact absurd rfl hv.2
      | _ => rintro ⟨⟩
    | anyOf =>
      rw [matchesClause_anyOf hv rfl]
      dsimp only
      constructor
      · intro h
        refine ⟨?_, by rintro ⟨⟩, fun hempty => ?_⟩
        · by_contra hv
          obtain ⟨b, hb, -⟩ := tiedWithAny_eq_some (values.getD []) hv
          rw [hb] at h
          cases h
        · rw [show values.getD [] = [] from hempty.2] at h
          cases h
      · rintro ⟨hnone, -, hne⟩
        cases hvalues : values.getD [] with
        | nil => exact absurd ⟨rfl, hvalues⟩ hne
        | cons w ws =>
          rw [tiedWithAny, show compare P v w.toJs = none from
            compare_eq_none_iff (w := some w).mpr hnone]
          rfl
    | _ =>
      have hiff : ∀ (f : ℤ → Bool), (compare P v (givenValue value)).map f = none ↔
          toPrimitive P v = none := fun f => map_eq_none_iff
      cases v with
      | undefined => exact absurd rfl hv.1
      | null => exact absurd rfl hv.2
      | _ =>
        refine (hiff _).trans ⟨fun h => ⟨h, by rintro ⟨⟩, by rintro ⟨⟨⟩, -⟩⟩, fun h => h.1⟩
  · refine iff_of_false ?_ fun h => hv h.1
    cases v with
    | undefined => rintro ⟨⟩
    | null => rintro ⟨⟩
    | _ => exact absurd ⟨by rintro ⟨⟩, by rintro ⟨⟩⟩ hv

end Scan

/-! ## Values and operands of one type -/

/-- Two values are keys of one type. -/
def Kin (v : JsValue) (w : Option WherePrimitive) : Prop :=
  ∃ k k', toKey v = some k ∧ operandKey w = some k' ∧ k.rank = k'.rank

/-- The type of the one comes before that of the other. -/
def Before (v : JsValue) (w : Option WherePrimitive) : Prop :=
  ∃ k k', toKey v = some k ∧ operandKey w = some k' ∧ k.rank < k'.rank

/-- The type of the one comes after that of the other. -/
def After (v : JsValue) (w : Option WherePrimitive) : Prop :=
  ∃ k k', toKey v = some k ∧ operandKey w = some k' ∧ k'.rank < k.rank

/-- The result of a comparison. -/
def sign : Ordering → ℤ
  | .lt => -1
  | .eq => 0
  | .gt => 1

theorem sign_order {α : Type} [LT α] [DecidableLT α] (a b : α) :
    sign (order a b) = if a < b then -1 else if b < a then 1 else 0 := by
  rw [order]
  split_ifs <;> rfl

theorem toKey_cases {v : JsValue} (hk : toKey v = some k) :
    (∃ x a, v = .number x ∧ x.extended = some a ∧ k = .number a) ∨
      (∃ t, v = .date (some t) ∧ k = .date t) ∨ (∃ s, v = .string s ∧ k = .string s) ∨
        ∃ items l, v = .array items ∧ k = .array l := by
  cases v with
  | number x =>
    obtain ⟨a, ha, rfl⟩ := map_eq_some_iff.mp (show x.extended.map Key.number = _ from hk)
    exact .inl ⟨x, a, rfl, ha, rfl⟩
  | date time =>
    obtain ⟨t, rfl, rfl⟩ := map_eq_some_iff.mp (show time.map Key.date = _ from hk)
    exact .inr (.inl ⟨t, rfl, rfl⟩)
  | string s => exact .inr (.inr (.inl ⟨s, rfl, (some.inj hk).symm⟩))
  | array items =>
    obtain ⟨l, -, rfl⟩ := map_eq_some_iff.mp (show (toKeys items).map Key.array = _ from hk)
    exact .inr (.inr (.inr ⟨items, l, rfl, rfl⟩))
  | _ => cases hk

/-- **Values of one type are compared as in an index.** -/
theorem compare_of_rank {P : Platform} {v : JsValue} {w : Option WherePrimitive} {k' : Key}
    (hk : toKey v = some k) (hk' : operandKey w = some k') (hrank : k.rank = k'.rank) :
    compare P v (givenValue w) = some (sign (compareKeys k k')) := by
  have hplain := plain_of_operandKey hk'
  have hnumbers : ∀ {x y : JsNumber} {a b : WithBot (WithTop ℚ)}, x.extended = some a →
      y.extended = some b → (Primitive.number x).compare (.number y) = sign (order a b) := by
    intro x y a b hx hy
    rw [sign_order]
    refine compare_number ?_ hx hy
    rintro ⟨s, t, hs, -⟩
    cases hs
  rw [compare_eq]
  rcases toKey_cases hk with ⟨x, a, rfl, ha, rfl⟩ | ⟨a, rfl, rfl⟩ | ⟨s, rfl, rfl⟩ | ⟨-, l, -, rfl⟩
  · rcases toKey_cases hk' with ⟨y, b, hw, hb, rfl⟩ | ⟨b, -, rfl⟩ | ⟨t, -, rfl⟩ | ⟨-, l, -, rfl⟩
    · rw [hw, compareKeys, ← hnumbers ha hb]
      rfl
    all_goals cases hrank
  · rcases toKey_cases hk' with ⟨y, b, -, -, rfl⟩ | ⟨b, hw, rfl⟩ | ⟨t, -, rfl⟩ | ⟨-, l, -, rfl⟩
    · cases hrank
    · have hcast : ∀ t : ℤ, (JsNumber.finite (t : ℚ)).extended =
          some (((t : ℚ) : WithTop ℚ) : WithBot (WithTop ℚ)) := fun t => rfl
      have horder : sign (order a b) = sign (order
          (((a : ℚ) : WithTop ℚ) : WithBot (WithTop ℚ)) (((b : ℚ) : WithTop ℚ) : _)) := by
        rw [sign_order, sign_order]
        simp
      rw [hw, compareKeys, horder, ← hnumbers (hcast a) (hcast b)]
      rfl
    all_goals cases hrank
  · rcases toKey_cases hk' with ⟨y, b, -, -, rfl⟩ | ⟨b, -, rfl⟩ | ⟨t, hw, rfl⟩ | ⟨-, l, -, rfl⟩
    · cases hrank
    · cases hrank
    · rw [hw, compareKeys, sign_order, ← compare_string]
      rfl
    · cases hrank
  · have hlt : k'.rank < 3 := hplain
    have harray : (Key.array l).rank = 3 := rfl
    omega

/-! ## Where the two agree -/

/-- The values of a row on which an index that reads them agrees with the scan. -/
def Table (P : Platform) (v : JsValue) (clause : WhereClause) : Prop :=
  match clause.op with
  | .equals => Kin v clause.value ∨ ¬ Tells P v clause.value (· = 0)
  | .above => Kin v clause.value ∨
      (After v clause.value ∧ Bounded (toKey v) ↔ Tells P v clause.value (0 < ·))
  | .aboveOrEqual => Kin v clause.value ∨
      (After v clause.value ∧ Bounded (toKey v) ↔ Tells P v clause.value (0 ≤ ·))
  | .below => Kin v clause.value ∨ (Before v clause.value ↔ Tells P v clause.value (· < 0))
  | .belowOrEqual => Kin v clause.value ∨ (Before v clause.value ↔ Tells P v clause.value (· ≤ 0))
  | .between =>
    let aboveLower := Tells P v clause.lower fun c => if clause.lowerOpen then 0 < c else 0 ≤ c
    let belowUpper := Tells P v clause.upper fun c => if clause.upperOpen then c < 0 else c ≤ 0
    (After v clause.lower ∨ Kin v clause.lower ∧ aboveLower) ∧
      (Before v clause.upper ∨ Kin v clause.upper ∧ belowUpper) ↔ aboveLower ∧ belowUpper
  | .startsWith => ∀ s, v = .string s →
      match clause.value with
      | none => undefinedText <+: s ∨ ∃ m, m ≠ [] ∧ s = 65535 :: m
      | some w => ¬ ∃ m, m ≠ [] ∧ s = stringOf P (some w) ++ 65535 :: m
  | .anyOf => (∃ w ∈ clause.values.getD [], Tells P v (some w) (· = 0)) →
      ∃ w ∈ clause.values.getD [], Kin v (some w) ∧ Tells P v (some w) (· = 0)

section Agreement

variable {P : Platform} {v : JsValue} {w : Option WherePrimitive}

theorem Kin.not_before (h : Kin v w) : ¬ Before v w := by
  obtain ⟨k, k', hk, hk', hrank⟩ := h
  rintro ⟨l, l', hl, hl', hlt⟩
  rw [← some.inj (hk.symm.trans hl), ← some.inj (hk'.symm.trans hl')] at hlt
  omega

theorem Kin.not_after (h : Kin v w) : ¬ After v w := by
  obtain ⟨k, k', hk, hk', hrank⟩ := h
  rintro ⟨l, l', hl, hl', hlt⟩
  rw [← some.inj (hk.symm.trans hl), ← some.inj (hk'.symm.trans hl')] at hlt
  omega

theorem Kin.bounded (h : Kin v w) : Bounded (toKey v) := by
  obtain ⟨k, k', hk, hk', hrank⟩ := h
  intro items hitems
  have hplain : k'.rank < 3 := plain_of_operandKey hk'
  obtain rfl : k = .array items := some.inj (hk.symm.trans hitems)
  have harray : (Key.array items).rank = 3 := rfl
  omega

/-- **How the keys stand**: as the scan compares them if they are of one type, else as the types. -/
theorem stands_toKey_iff {p : Ordering → Prop} {q : ℤ → Prop} (hpq : ∀ o, q (sign o) ↔ p o) :
    Stands (toKey v) w p ↔ Kin v w ∧ Tells P v w q ∨ Before v w ∧ p .lt ∨ After v w ∧ p .gt := by
  constructor
  · rintro ⟨k, k', hk, hk', hp⟩
    rcases lt_trichotomy k.rank k'.rank with hlt | heq | hgt
    · rw [compareKeys_of_rank_ne hlt.ne, order, if_pos hlt] at hp
      exact .inr (.inl ⟨⟨k, k', hk, hk', hlt⟩, hp⟩)
    · exact .inl ⟨⟨k, k', hk, hk', heq⟩, _, compare_of_rank hk hk' heq, (hpq _).mpr hp⟩
    · rw [compareKeys_of_rank_ne hgt.ne', order, if_neg (lt_asymm hgt), if_pos hgt] at hp
      exact .inr (.inr ⟨⟨k, k', hk, hk', hgt⟩, hp⟩)
  · rintro (⟨⟨k, k', hk, hk', heq⟩, c, hc, hq⟩ | ⟨⟨k, k', hk, hk', hlt⟩, hp⟩ |
      ⟨⟨k, k', hk, hk', hgt⟩, hp⟩)
    · rw [compare_of_rank hk hk' heq] at hc
      rw [← some.inj hc] at hq
      exact ⟨k, k', hk, hk', (hpq _).mp hq⟩
    · refine ⟨k, k', hk, hk', ?_⟩
      rwa [compareKeys_of_rank_ne hlt.ne, order, if_pos hlt]
    · refine ⟨k, k', hk, hk', ?_⟩
      rwa [compareKeys_of_rank_ne hgt.ne', order, if_neg (lt_asymm hgt), if_pos hgt]

theorem stands_lower_iff {isOpen : Bool} :
    Stands (toKey v) w (fun o => if isOpen then o = .gt else o ≠ .lt) ↔
      After v w ∨ Kin v w ∧ Tells P v w fun c => if isOpen then 0 < c else 0 ≤ c := by
  rw [stands_toKey_iff (P := P) (q := fun c => if isOpen then 0 < c else 0 ≤ c)
    fun o => by cases o <;> cases isOpen <;> simp [sign]]
  cases isOpen <;> simp [or_comm]

theorem stands_upper_iff {isOpen : Bool} :
    Stands (toKey v) w (fun o => if isOpen then o = .lt else o ≠ .gt) ↔
      Before v w ∨ Kin v w ∧ Tells P v w fun c => if isOpen then c < 0 else c ≤ 0 := by
  rw [stands_toKey_iff (P := P) (q := fun c => if isOpen then c < 0 else c ≤ 0)
    fun o => by cases o <;> cases isOpen <;> simp [sign]]
  cases isOpen <;> simp [or_comm]

/-- **Where an index that reads the value of a row agrees with the scan.** -/
theorem verdict_iff {clause : WhereClause} :
    (Verdict P (toKey v) clause ↔ Passes P v clause) ↔ Table P v clause := by
  obtain ⟨name, op, value, values, lower, upper, lowerOpen, upperOpen⟩ := clause
  have hkin : Kin v value → ¬ Before v value ∧ ¬ After v value ∧ Bounded (toKey v) :=
    fun h => ⟨h.not_before, h.not_after, h.bounded⟩
  cases op with
  | equals =>
    have h := stands_toKey_iff (P := P) (v := v) (w := value) (p := (· = .eq)) (q := (· = 0))
      fun o => by cases o <;> simp [sign]
    rw [Verdict, Passes, Table, h]
    simp only [reduceCtorEq, and_false, or_false]
    tauto
  | above =>
    have h := stands_toKey_iff (P := P) (v := v) (w := value) (p := (· = .gt)) (q := (0 < ·))
      fun o => by cases o <;> simp [sign]
    rw [Verdict, Passes, Table, h]
    simp only [reduceCtorEq, and_false, and_true, false_or]
    tauto
  | aboveOrEqual =>
    have h := stands_toKey_iff (P := P) (v := v) (w := value) (p := (· ≠ .lt)) (q := (0 ≤ ·))
      fun o => by cases o <;> simp [sign]
    rw [Verdict, Passes, Table, h]
    simp only [ne_eq, reduceCtorEq, not_true, not_false_iff, and_false, and_true, false_or]
    tauto
  | below =>
    have h := stands_toKey_iff (P := P) (v := v) (w := value) (p := (· = .lt)) (q := (· < 0))
      fun o => by cases o <;> simp [sign]
    rw [Verdict, Passes, Table, h]
    simp only [reduceCtorEq, and_false, and_true, or_false]
    tauto
  | belowOrEqual =>
    have h := stands_toKey_iff (P := P) (v := v) (w := value) (p := (· ≠ .gt)) (q := (· ≤ 0))
      fun o => by cases o <;> simp [sign]
    rw [Verdict, Passes, Table, h]
    simp only [ne_eq, reduceCtorEq, not_true, not_false_iff, and_false, and_true, or_false]
    tauto
  | between =>
    rw [Verdict, Passes, Table]
    exact iff_congr (and_congr stands_lower_iff stands_upper_iff) Iff.rfl
  | startsWith =>
    have hstring : ∀ s, toKey v = some (.string s) ↔ v = .string s := by
      intro s
      refine ⟨fun hk => ?_, fun hv => hv ▸ rfl⟩
      rcases toKey_cases hk with ⟨-, a, -, -, hs⟩ | ⟨a, -, hs⟩ | ⟨t, rfl, hs⟩ | ⟨-, l, -, hs⟩
      · cases hs
      · cases hs
      · rw [Key.string.inj hs]
      · cases hs
    rw [Verdict, Passes, Table]
    simp only [hstring]
    by_cases hv : ∃ s, v = .string s
    · obtain ⟨s, rfl⟩ := hv
      simp only [JsValue.string.injEq, exists_eq_left', forall_eq']
      cases value with
      | none =>
        have hapart : undefinedText <+: s → ¬ ∃ m, m ≠ [] ∧ s = 65535 :: m := by
          rintro ⟨m, rfl⟩ ⟨m', -, hm'⟩
          exact absurd (List.cons.inj hm').1 (by decide)
        have hprefix : ([] : Text) <+: s := nil_prefix
        simp only [indexPrefix, if_true, nil_append, hprefix, true_and, stringOf]
        generalize (∃ m, m ≠ [] ∧ s = 65535 :: m) = beyond at hapart ⊢
        tauto
      | some w =>
        have hprefix : (∃ m, m ≠ [] ∧ s = stringOf P (some w) ++ 65535 :: m) →
            stringOf P (some w) <+: s := by
          rintro ⟨m, -, hm⟩
          exact ⟨65535 :: m, hm.symm⟩
        simp only [indexPrefix, reduceCtorEq, if_false]
        generalize (∃ m, m ≠ [] ∧ s = stringOf P (some w) ++ 65535 :: m) = beyond at hprefix ⊢
        tauto
    · simp only [not_exists] at hv
      simp only [hv, false_and, exists_false, false_implies, forall_const]
  | anyOf =>
    have h : ∀ w, Stands (toKey v) (some w) (· = .eq) ↔
        Kin v (some w) ∧ Tells P v (some w) (· = 0) := by
      intro w
      rw [stands_toKey_iff (P := P) (q := (· = 0)) fun o => by cases o <;> simp [sign]]
      simp only [reduceCtorEq, and_false, or_false]
    rw [Verdict, Passes, Table]
    simp only [h]
    refine ⟨fun hiff => hiff.mpr, fun hsome => ⟨?_, hsome⟩⟩
    rintro ⟨w, hw, -, htells⟩
    exact ⟨w, hw, htells⟩

end Agreement

/-! ## Queries that return -/

theorem filterRows_eq_none_iff {p : Row → Option Bool} {rows : List Row} :
    filterRows p rows = none ↔ ∃ row ∈ rows, p row = none := by
  induction rows with
  | nil => exact iff_of_false (by rintro ⟨⟩) (by simp)
  | cons r rows ih =>
    rw [filterRows]
    simp only [mem_cons, exists_eq_or_imp, ← ih]
    cases p r with
    | none => exact iff_of_true rfl (.inl rfl)
    | some keep =>
      rw [bind_some, Option.map_eq_none_iff]
      exact (or_iff_right (by rintro ⟨⟩)).symm

theorem usable_of_range {P : Platform} {table : Text} {clause : WhereClause}
    (hop : clause.op ≠ .anyOf) (h : rangeForClause P table clause = .ok range) : Usable clause := by
  obtain ⟨name, op, value, values, lower, upper, lowerOpen, upperOpen⟩ := clause
  cases op with
  | anyOf => exact absurd rfl hop
  | startsWith => exact trivial
  | between =>
    rw [Usable]
    simp only [rangeForClause] at h
    cases hk : toKey (givenValue lower) with
    | none =>
      rw [hk] at h
      cases h
    | some k =>
      cases hk' : toKey (givenValue upper) with
      | none =>
        rw [hk, hk'] at h
        cases h
      | some k' =>
        rw [hk, hk'] at h
        have hpast := (KeyRange.bound_eq_ok.mp h).1
        rw [compareKeys_inTable] at hpast
        exact ⟨k, k', hk, hk', hpast⟩
  | _ =>
    show ∃ k, operandKey value = some k
    simp only [rangeForClause] at h
    cases hk : toKey (givenValue value) with
    | none =>
      rw [hk] at h
      cases h
    | some k => exact ⟨k, hk⟩

namespace IndexedDbStore

variable {store : IndexedDbStore} {P : Platform}

theorem getOnly_returns {field table : Text} {w : WherePrimitive} :
    (∃ rows, store.getOnly field table w = .ok rows) ↔ ∃ k, operandKey (some w) = some k := by
  rw [getOnly, show toKey w.toJs = operandKey (some w) from rfl]
  cases hk : operandKey (some w) with
  | none => exact iff_of_false (by rintro ⟨rows, ⟨⟩⟩) (by simp)
  | some k =>
    have honly := onlyKey_eq table k (plain_of_operandKey hk)
    exact iff_of_true ⟨_, congrArg (Except.map (store.getAll field)) honly⟩ ⟨k, rfl⟩

theorem mapM_returns {α β : Type} {f : α → Except QueryError β} {l : List α} :
    (∃ out, l.mapM f = .ok out) ↔ ∀ a ∈ l, ∃ b, f a = .ok b := by
  induction l with
  | nil => exact iff_of_true ⟨[], rfl⟩ (by simp)
  | cons a l ih =>
    rw [mapM_cons, forall_mem_cons, ← ih]
    cases hfa : f a with
    | error e => exact iff_of_false (by rintro ⟨out, ⟨⟩⟩) (by rintro ⟨⟨b, ⟨⟩⟩, -⟩)
    | ok b =>
      cases hrest : l.mapM f with
      | error e => exact iff_of_false (by rintro ⟨out, ⟨⟩⟩) (by rintro ⟨-, out, ⟨⟩⟩)
      | ok rest => exact iff_of_true ⟨b :: rest, rfl⟩ ⟨⟨b, rfl⟩, rest, rfl⟩

variable {clause : WhereClause}

/-- **An index query returns** exactly if its clause is usable. -/
theorem queryIndex_returns {field table : Text} :
    (∃ found, store.queryIndex P field table clause = .ok found) ↔ Usable clause := by
  rw [queryIndex]
  split_ifs with hop
  · have husable : Usable clause ↔
        ∀ w ∈ clause.values.getD [], ∃ k, operandKey (some w) = some k := by
      simp only [Usable, hop]
    have honly : ∀ w, (∃ k, operandKey (some w) = some k) ↔
        ∃ rows, store.getOnly field table w = .ok rows := fun w => getOnly_returns.symm
    simp only [husable, honly, ← mapM_returns]
    cases (clause.values.getD []).mapM (store.getOnly field table) with
    | error e => exact iff_of_false (by rintro ⟨out, ⟨⟩⟩) (by rintro ⟨out, ⟨⟩⟩)
    | ok out => exact iff_of_true ⟨_, rfl⟩ ⟨out, rfl⟩
  · cases hrange : rangeForClause P table clause with
    | error e =>
      refine iff_of_false (by rintro ⟨out, ⟨⟩⟩) fun husable => ?_
      obtain ⟨range, hok⟩ : ∃ range, rangeForClause P table clause = .ok range :=
        exists_range hop husable
      rw [hrange] at hok
      cases hok
    | ok range => exact iff_of_true ⟨_, rfl⟩ (usable_of_range hop hrange)

/-! ## Queries that agree -/

/-- The index that a query of a field goes to. -/
def indexFor (store : IndexedDbStore) (schema : Record Text TableSchema) (table field : Text) :
    Option Index :=
  (hasSchemaIndex schema table field).bind fun index =>
    store.indexes.get (schemaIndexName table index.name)

/-- The query, the scan of the table, and the memory store with the same rows return the same. -/
def SameAnswers (P : Platform) (store : IndexedDbStore) (m : LocalStore)
    (schema : Record Text TableSchema) (table : Text) (clause : WhereClause) : Prop :=
  ∃ found filtered answered, store.queryWhere P schema table clause = .ok found ∧
    scan P (store.getTable table) clause = some filtered ∧
      m.queryWhere P table clause = some answered ∧
        ∀ row, (row ∈ found ↔ row ∈ filtered) ∧ (row ∈ answered ↔ row ∈ filtered)

/-- The key of one value stands to the operand as another value compares with it. -/
def Crossed (P : Platform) (k : Key) (v : JsValue) (clause : WhereClause) : Prop :=
  match clause.op with
  | .equals => Stands (some k) clause.value (· = .eq) ↔ Tells P v clause.value (· = 0)
  | .above =>
    Stands (some k) clause.value (· = .gt) ∧ Bounded (some k) ↔ Tells P v clause.value (0 < ·)
  | .aboveOrEqual =>
    Stands (some k) clause.value (· ≠ .lt) ∧ Bounded (some k) ↔ Tells P v clause.value (0 ≤ ·)
  | .below => Stands (some k) clause.value (· = .lt) ↔ Tells P v clause.value (· < 0)
  | .belowOrEqual => Stands (some k) clause.value (· ≠ .gt) ↔ Tells P v clause.value (· ≤ 0)
  | .between =>
    Stands (some k) clause.lower (fun o => if clause.lowerOpen then o = .gt else o ≠ .lt) ∧
        Stands (some k) clause.upper (fun o => if clause.upperOpen then o = .lt else o ≠ .gt) ↔
      Tells P v clause.lower (fun c => if clause.lowerOpen then 0 < c else 0 ≤ c) ∧
        Tells P v clause.upper fun c => if clause.upperOpen then c < 0 else c ≤ 0
  | .startsWith =>
    (∃ s, some k = some (.string s) ∧ indexPrefix P clause <+: s ∧
        ¬ ∃ m, m ≠ [] ∧ s = indexPrefix P clause ++ 65535 :: m) ↔
      ∃ s, v = .string s ∧ stringOf P clause.value <+: s
  | .anyOf => (∃ w ∈ clause.values.getD [], Stands (some k) (some w) (· = .eq)) ↔
      ∃ w ∈ clause.values.getD [], Tells P v (some w) (· = 0)

theorem crossed_iff {v : JsValue} :
    Crossed P k v clause ↔ (Verdict P (some k) clause ↔ Passes P v clause) := by
  obtain ⟨name, op, value, values, lower, upper, lowerOpen, upperOpen⟩ := clause
  cases op <;> exact Iff.rfl

/-- What an index reads, and what the scan reads, come to the same: one value on which the two
agree, or two of which the first has no key and the second does not pass, the second is missing
and the first is not found, or both stand alike to the operand. -/
structure Agree (P : Platform) (u : Option JsValue) (v : JsValue) (clause : WhereClause) :
    Prop where
  one : u = some v → Present v → Table P v clause
  keyless : u ≠ some v → u.bind toKey = none → Present v → ¬ Passes P v clause
  missing : u ≠ some v → ¬ Present v → ¬ Verdict P (u.bind toKey) clause
  two : u ≠ some v → ∀ k, u.bind toKey = some k → Present v → Crossed P k v clause

theorem queryWhere_of_indexFor {schema : Record Text TableSchema} {table : Text} {index : Index}
    (hindex : store.indexFor schema table clause.field = some index) :
    store.queryWhere P schema table clause = store.queryIndex P index.field table clause := by
  obtain ⟨definition, hdefinition, hget⟩ := bind_eq_some_iff.mp hindex
  rw [queryWhere, hdefinition]
  dsimp only
  rw [hget]

theorem agree_iff {u : Option JsValue} {v : JsValue} (hthrows : ¬ (Present v ∧ Throws P v clause)) :
    (Verdict P (u.bind toKey) clause ↔ matchesClause P v clause = some true) ↔
      Agree P u v clause := by
  have hmatches : matchesClause P v clause = some true ↔ Present v ∧ Passes P v clause := by
    by_cases hv : Present v
    · rw [matchesClause_iff hv fun h => hthrows ⟨hv, h⟩, and_iff_right hv]
    · refine iff_of_false ?_ fun h => hv h.1
      cases v with
      | undefined => rintro ⟨⟩
      | null => rintro ⟨⟩
      | _ => exact absurd ⟨by rintro ⟨⟩, by rintro ⟨⟩⟩ hv
  have hnot : ¬ Verdict P none clause := by
    obtain ⟨name, op, value, values, lower, upper, lowerOpen, upperOpen⟩ := clause
    cases op <;> simp [Verdict, Stands]
  rw [hmatches]
  by_cases hu : u = some v
  · subst hu
    rw [bind_some]
    by_cases hv : Present v
    · rw [and_iff_right hv, verdict_iff]
      exact ⟨fun h => ⟨fun _ _ => h, fun h' => absurd rfl h', fun h' => absurd rfl h',
        fun h' => absurd rfl h'⟩, fun h => h.one rfl hv⟩
    · have hkey : toKey v = none := by
        cases v with
        | undefined => rfl
        | null => rfl
        | _ => exact absurd ⟨by rintro ⟨⟩, by rintro ⟨⟩⟩ hv
      rw [hkey]
      exact iff_of_true (iff_of_false hnot fun h => hv h.1) ⟨fun _ h => absurd h hv,
        fun h => absurd rfl h, fun h => absurd rfl h, fun h => absurd rfl h⟩
  · constructor
    · refine fun h => ⟨fun h' => absurd h' hu, fun _ hkey hv hpasses => ?_, fun _ hv hverdict => ?_,
        fun _ k hkey hv => ?_⟩
      · exact hnot (hkey ▸ h.mpr ⟨hv, hpasses⟩)
      · exact hv (h.mp hverdict).1
      · rw [hkey, and_iff_right hv] at h
        exact crossed_iff.mpr h
    · intro h
      by_cases hv : Present v
      · rw [and_iff_right hv]
        cases hkey : u.bind toKey with
        | none => exact iff_of_false hnot (h.keyless hu hkey hv)
        | some k => exact crossed_iff.mp (h.two hu k hkey hv)
      · exact iff_of_false (h.missing hu hv) fun h => hv h.1

/-- **When indexed queries are scans.**  A query that goes to an index returns what going over the
rows returns exactly if the range of the clause is one, no comparison throws, and every row of the
table that is not deleted has a value on which the two agree. -/
theorem indexed_iff_scanned (P : Platform) {store : IndexedDbStore} (h : Keyed store.rows)
    (m : LocalStore) (hm : m.rows = store.rows) {schema : Record Text TableSchema} {table : Text}
    {clause : WhereClause} {index : Index}
    (hindex : store.indexFor schema table clause.field = some index) :
    SameAnswers P store m schema table clause ↔ Usable clause ∧
      ∀ row, Stored store.rows row → inTable table row = true →
        ¬ (Present (readColumnValue row clause.field) ∧
            Throws P (readColumnValue row clause.field) clause) ∧
          Agree P (indexedValue row index.field) (readColumnValue row clause.field) clause := by
  have hkeyed : Keyed m.rows := hm ▸ h
  have hmemory : ∀ row, row ∈ m.getTable table ↔ row ∈ store.getTable table := by
    intro row
    rw [LocalStore.mem_getTable hkeyed, mem_getTable h, hm]
  rw [SameAnswers]
  simp only [queryWhere_of_indexFor hindex]
  constructor
  · rintro ⟨found, filtered, answered, hfound, hfiltered, -, hsame⟩
    have husable := queryIndex_returns.mp ⟨found, hfound⟩
    refine ⟨husable, fun row hstored hrow => ?_⟩
    have hthrows : ¬ (Present (readColumnValue row clause.field) ∧
        Throws P (readColumnValue row clause.field) clause) := by
      rw [← matchesClause_eq_none_iff]
      intro hnone
      have hfails : scan P (store.getTable table) clause = none :=
        filterRows_eq_none_iff.mpr ⟨row, (mem_getTable h).mpr ⟨hstored, hrow⟩, hnone⟩
      rw [hfails] at hfiltered
      cases hfiltered
    refine ⟨hthrows, (agree_iff hthrows).mp ?_⟩
    have hiff := (hsame row).1
    rw [mem_queryIndex h hfound, mem_scan hfiltered, mem_getTable h,
      selected_iff husable hrow] at hiff
    simpa only [hstored, hrow, true_and] using hiff
  · rintro ⟨husable, hall⟩
    obtain ⟨found, hfound⟩ : ∃ found, store.queryIndex P index.field table clause = .ok found :=
      queryIndex_returns.mpr husable
    have hreturns : ∀ rows : List Row, (∀ row ∈ rows, row ∈ store.getTable table) →
        ∃ kept, scan P rows clause = some kept := by
      intro rows hrows
      refine ne_none_iff_exists'.mp fun hnone => ?_
      obtain ⟨row, hrow, hmatch⟩ := filterRows_eq_none_iff.mp hnone
      obtain ⟨hstored, hin⟩ := (mem_getTable h).mp (hrows row hrow)
      exact (hall row hstored hin).1 (matchesClause_eq_none_iff.mp hmatch)
    obtain ⟨filtered, hfiltered⟩ := hreturns _ fun _ hrow => hrow
    obtain ⟨answered, hanswered⟩ := hreturns (m.getTable table) fun row => (hmemory row).mp
    refine ⟨found, filtered, answered, hfound, hfiltered, hanswered, fun row => ⟨?_, ?_⟩⟩
    · rw [mem_queryIndex h hfound, mem_scan hfiltered, mem_getTable h, and_assoc]
      refine and_congr_right fun hstored => and_congr_right fun hrow => ?_
      rw [selected_iff husable hrow]
      obtain ⟨hthrows, hagree⟩ := hall row hstored hrow
      exact (agree_iff hthrows).mpr hagree
    · rw [mem_scan hanswered, mem_scan hfiltered, hmemory]

/-! ## A flag -/

/-- The row of a table `a` whose column `b` is `true`. -/
def flagRow : Row :=
  ⟨⟨[97], [49], false, none, 1, none⟩, (∅ : Record Text ColumnEntry).set [98] ⟨.bool true, []⟩⟩

/-- The schema that indexes the column `b`. -/
def flagSchema : Record Text TableSchema :=
  (∅ : Record Text TableSchema).set [97] ⟨(∅ : Record Text FieldIndex).set [98] ⟨true, false⟩, []⟩

/-- The store with the row and the index. -/
def flagStore : IndexedDbStore :=
  ⟨(∅ : Record Text Row).set (LocalStore.keyOf flagRow) flagRow,
    (∅ : Record Text Index).set (schemaIndexName [97] (byField [98])) ⟨[98], false⟩⟩

/-- The memory store with the row. -/
def flagMemory : LocalStore := LocalStore.empty.putRow flagRow

/-- `b` under an operator and a number. -/
def flagClause (op : WhereOperator) (n : ℚ) : WhereClause :=
  ⟨[98], op, some (.number (.finite n)), none, none, none, false, false⟩

/-- A platform that writes numbers and dates as nothing. -/
def mutePlatform : Platform := ⟨fun _ => [], fun _ => []⟩

theorem stored_flagStore {row : Row} : Stored flagStore.rows row ↔ row = flagRow := by
  constructor
  · intro h
    have hget : ((∅ : Record Text Row).set (LocalStore.keyOf flagRow) flagRow).get
        (LocalStore.keyOf row) = some row := h
    rw [Record.get_set] at hget
    split_ifs at hget with hkey
    · exact (some.inj hget).symm
    · cases hget
  · rintro rfl
    exact Record.get_set_self _ _ _

theorem keyed_flagStore : Keyed flagStore.rows := by
  intro key row hget
  have hget : ((∅ : Record Text Row).set (LocalStore.keyOf flagRow) flagRow).get key = some row :=
    hget
  rw [Record.get_set] at hget
  split_ifs at hget with hkey
  · rw [← some.inj hget, hkey]
  · cases hget

theorem indexFor_flagStore : flagStore.indexFor flagSchema [97] [98] = some ⟨[98], false⟩ := rfl

theorem value_flagRow : readColumnValue flagRow [98] = .bool true := rfl

/-- A query for values above one, of a flag that is set: neither finds it. -/
theorem indexed_iff_scanned_flag :
    SameAnswers mutePlatform flagStore flagMemory flagSchema [97] (flagClause .above 1) := by
  refine (indexed_iff_scanned mutePlatform keyed_flagStore flagMemory rfl
    indexFor_flagStore).mpr ⟨⟨_, rfl⟩, fun row hrow _ => ?_⟩
  rw [stored_flagStore.mp hrow, show (flagClause .above 1).field = [98] from rfl, value_flagRow]
  have hcompare : compare mutePlatform (.bool true) (givenValue (some (.number (.finite 1)))) =
      some 0 := by decide
  refine ⟨fun h => absurd h.2.1 (by rintro ⟨⟩), fun _ _ => .inr (iff_of_false ?_ ?_),
    fun h => absurd rfl h, fun h => absurd rfl h, fun h => absurd rfl h⟩
  · rintro ⟨⟨k, k', hk, -⟩, -⟩
    cases hk
  · rintro ⟨c, hc, hpos⟩
    rw [← some.inj (hcompare.symm.trans hc)] at hpos
    exact absurd hpos (by decide)

/-- **A flag that is set is equal to one for the scan**, and not for the index. -/
theorem not_indexed_scanned :
    ¬ SameAnswers mutePlatform flagStore flagMemory flagSchema [97] (flagClause .equals 1) := by
  rintro ⟨found, filtered, answered, hfound, hfiltered, -, hsame⟩
  rw [queryWhere_of_indexFor indexFor_flagStore] at hfound
  have hrow : inTable [97] flagRow = true := by decide
  have hmem : flagRow ∈ filtered := by
    rw [mem_scan hfiltered, mem_getTable keyed_flagStore]
    refine ⟨⟨stored_flagStore.mpr rfl, hrow⟩, ?_⟩
    show matchesClause mutePlatform (.bool true) _ = some true
    decide
  have hselected := ((mem_queryIndex keyed_flagStore hfound).mp ((hsame flagRow).1.mpr hmem)).2.2
  have husable : Usable (flagClause .equals 1) := ⟨_, rfl⟩
  obtain ⟨k, k', hk, -⟩ := (selected_iff husable hrow).mp hselected
  cases hk

end IndexedDbStore

end Interocitor.Queries
