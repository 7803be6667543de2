import Interocitor.Native.Hlc
import Interocitor.Native.WireValues

/-!
# The native engines: merging an op

`apply_op` of `crdt.py` and `applyOp` of `CRDT.swift`, for last-writer-wins columns, over the
values as they travel.  Python follows core line by line, with a clock parser that refuses what
core would not write.  Swift keeps its tables, rows and columns in dictionaries: keys that are
canonically equivalent are one key, and the columns of an op are visited in whatever order the
dictionary has.

* `Python.applyOp`, `Swift.applyOp`.
* `applyOp_core`: where the stamps are readable and the values shared, Python does to an op what
  core does to the parsed op.
-/

namespace Interocitor.Wire

open CodeUnits OrderedRecord HybridClock Native List

/-! ## Ops on the wire -/

/-- A column entry of a change file. -/
structure Entry where
  value : Value
  hlc : Text

/-- An op of a change file. -/
inductive Op where
  | upsert (table rowId : Text) (columns : Record Text Entry)
  | delete (table rowId hlc : Text)

namespace Op

/-- `op.table`. -/
def table : Op → Text
  | upsert t _ _ => t
  | delete t _ _ => t

/-- `op.rowId`. -/
def rowId : Op → Text
  | upsert _ r _ => r
  | delete _ r _ => r

/-- The columns an op writes. -/
def columns : Op → Record Text Entry
  | upsert _ _ columns => columns
  | delete _ _ _ => ∅

/-- The stamps an op carries. -/
def stamps : Op → List Text
  | upsert _ _ columns => columns.values.map Entry.hlc
  | delete _ _ hlc => [hlc]

end Op

/-- The entry, as core parses it. -/
def Entry.toCore (e : Entry) : ColumnEntry := ⟨toJs e.value, e.hlc⟩

/-- The op, as core parses it. -/
def Op.toCore : Op → Interocitor.Op
  | .upsert table rowId columns => .upsert table rowId (columns.mapValues Entry.toCore)
  | .delete table rowId hlc => .delete table rowId hlc

/-! ## Python -/

namespace Python

/-- What `apply_op` raises: the error of a text that is no stamp, or `Conflicting values share
HLC …`. -/
inductive MergeError where
  | invalidHlc
  | conflictingValues (hlc table rowId field : Text)
  deriving DecidableEq

/-- `Row` of `types.py`. -/
structure Row where
  table : Text
  rowId : Text
  deleted : Bool
  deletedHlc : Option Text
  schemaVersion : ℕ
  payload : Record Text Entry

/-- The tables of an engine. -/
abbrev Tables := Record Text (Record Text Row)

/-- `hlc_compare_str`, with its error. -/
def compare (left right : Text) : Except MergeError ℤ :=
  match Native.Python.hlcCompareStr left right with
  | some z => .ok z
  | none => .error .invalidHlc

/-- `_merge_column`, for the strategy `"lww"`. -/
def mergeColumn (existing : Option Entry) (remote : Entry) (table rowId field : Text) :
    Except MergeError (Option Entry) :=
  match existing with
  | none => .ok (some remote)
  | some old =>
    if old.hlc = [] then .ok (some remote)
    else do
      let comparison ← compare remote.hlc old.hlc
      if 0 < comparison then .ok (some remote)
      else if comparison < 0 then .ok none
      else if wireValueEqual old.value remote.value then .ok none
      else .error (.conflictingValues remote.hlc table rowId field)

/-- The loop of `apply_op` over the columns. -/
def applyColumns (table rowId : Text) :
    List (Text × Entry) → Record Text Entry → Bool → Except MergeError (Record Text Entry × Bool)
  | [], payload, changed => .ok (payload, changed)
  | (name, entry) :: rest, payload, changed => do
    match ← mergeColumn (payload.get name) entry table rowId name with
    | none => applyColumns table rowId rest payload changed
    | some winner => applyColumns table rowId rest (payload.set name winner) true

/-- `any(entry.hlc and hlc_compare_str(entry.hlc, op.hlc) > 0 for entry in …)`. -/
def anyNewer (hlc : Text) : List Entry → Except MergeError Bool
  | [] => .ok false
  | e :: rest =>
    if e.hlc = [] then anyNewer hlc rest
    else do
      let comparison ← compare e.hlc hlc
      if 0 < comparison then .ok true else anyNewer hlc rest

/-- `[(name, entry) for name, entry in columns if hlc_compare_str(entry.hlc, deleted_hlc) > 0]`. -/
def newerColumns (deletedHlc : Text) : List (Text × Entry) → Except MergeError (List (Text × Entry))
  | [] => .ok []
  | p :: rest => do
    let comparison ← compare p.2.hlc deletedHlc
    let kept ← newerColumns deletedHlc rest
    .ok (if 0 < comparison then p :: kept else kept)

/-- `existing._meta.deleted_hlc and hlc_compare_str(op.hlc, existing._meta.deleted_hlc) <= 0`. -/
def staleDelete (deletedHlc : Option Text) (hlc : Text) : Except MergeError Bool :=
  match truthy deletedHlc with
  | some d => do
    let comparison ← compare hlc d
    .ok (decide (comparison ≤ 0))
  | none => .ok false

/-- The delete branch of `apply_op`: the row to store, or `none` for no change. -/
def applyDelete (existing : Option Row) (table rowId hlc : Text) (schemaVersion : ℕ) :
    Except MergeError (Option Row) :=
  match existing with
  | none => .ok (some ⟨table, rowId, true, some hlc, schemaVersion, ∅⟩)
  | some row => do
    let stale ← staleDelete row.deletedHlc hlc
    if stale then .ok none
    else do
      let newer ← anyNewer hlc row.payload.values
      if newer then .ok none
      else .ok (some { row with deleted := true, deletedHlc := some hlc, payload := ∅ })

/-- The upsert branch of `apply_op`. -/
def applyUpsert (existing : Option Row) (table rowId : Text) (columns : Record Text Entry)
    (schemaVersion : ℕ) : Except MergeError (Option Row) :=
  let row := existing.getD ⟨table, rowId, false, none, schemaVersion, ∅⟩
  match if row.deleted then truthy row.deletedHlc else none with
  | some deletedHlc => do
    let kept ← newerColumns deletedHlc columns.entries
    if kept.isEmpty then .ok none
    else do
      let out ← applyColumns table rowId kept ∅ true
      .ok (some { row with deleted := false, deletedHlc := none, payload := out.1 })
  | none => do
    let out ← applyColumns table rowId columns.entries row.payload existing.isNone
    .ok (if out.2 then some { row with payload := out.1 } else none)

/-- An op against the row it addresses. -/
def applyToRow (existing : Option Row) (op : Op) (schemaVersion : ℕ) :
    Except MergeError (Option Row) :=
  match op with
  | .delete table rowId hlc => applyDelete existing table rowId hlc schemaVersion
  | .upsert table rowId columns => applyUpsert existing table rowId columns schemaVersion

/-- `apply_op`: the new tables. -/
def applyOp (tables : Tables) (op : Op) (schemaVersion : ℕ) : Except MergeError Tables := do
  let rows := (tables.get op.table).getD ∅
  match ← applyToRow (rows.get op.rowId) op schemaVersion with
  | none => .ok (tables.set op.table rows)
  | some row => .ok (tables.set op.table (rows.set op.rowId row))

/-- The row at a table and a row id. -/
def rowAt (tables : Tables) (table rowId : Text) : Option Row :=
  (tables.get table).bind fun rows => rows.get rowId

end Python

/-! ## Swift -/

namespace Swift

/-- `Row` of `Types.swift`; its columns are a dictionary. -/
structure Row where
  table : Text
  rowId : Text
  deleted : Bool
  deletedHlc : Option Text
  schemaVersion : ℕ
  columns : List (Text × Entry)

/-- `protocolCorruption("conflicting values share HLC …")`. -/
structure MergeError where
  hlc : Text
  deriving DecidableEq

/-- The tables of an engine: dictionaries of dictionaries. -/
abbrev Tables := List (Text × List (Text × Row))

/-- Assignment to a dictionary: a key that is there under an equivalent spelling stays. -/
def assign {V : Type} (norm : Text → Text) (k : Text) (v : V) :
    List (Text × V) → List (Text × V)
  | [] => [(k, v)]
  | p :: l => if norm p.1 = norm k then (p.1, v) :: l else p :: assign norm k v l

section

variable (U : Unicode) (shuffle : List (Text × Entry) → List (Text × Entry))

/-- `mergeColumn`, for the strategy `.lww`. -/
def mergeColumn (existing : Option Entry) (remote : Entry) : Except MergeError (Option Entry) :=
  match existing with
  | none => .ok (some remote)
  | some old =>
    if old.hlc = [] then .ok (some remote)
    else if 0 < Native.Swift.hlcCompareStr U remote.hlc old.hlc then .ok (some remote)
    else if Native.Swift.hlcCompareStr U remote.hlc old.hlc < 0 then .ok none
    else if equal U.norm remote.value old.value then .ok none
    else .error ⟨remote.hlc⟩

/-- The loop of `applyUpsertOp` over the columns. -/
def applyColumns : List (Text × Entry) → List (Text × Entry) →
    Except MergeError (List (Text × Entry))
  | [], columns => .ok columns
  | (col, entry) :: rest, columns => do
    match ← mergeColumn U (lookup U.norm col columns) entry with
    | none => applyColumns rest columns
    | some winner => applyColumns rest (assign U.norm col winner columns)

/-- `applyDeleteOp`: the row to store, or `none` for no change. -/
def applyDelete (existing : Option Row) (table rowId hlc : Text) (schemaVersion : ℕ) : Option Row :=
  match existing with
  | some row =>
    if row.deletedHlc.any fun d => decide (Native.Swift.hlcCompareStr U hlc d ≤ 0) then none
    else if row.columns.any fun p => decide (0 < Native.Swift.hlcCompareStr U p.2.hlc hlc) then
      none
    else some { row with deleted := true, deletedHlc := some hlc, columns := [] }
  | none => some ⟨table, rowId, true, some hlc, schemaVersion, []⟩

/-- The columns of an op, decoded into a dictionary: of two equivalent names one is left. -/
def dictionary (norm : Text → Text) (entries : List (Text × Entry)) : List (Text × Entry) :=
  entries.foldl (fun d p => assign norm p.1 p.2 d) []

/-- `applyUpsertOp`: the row to store, or `none` where it returns before storing.  The columns
are visited in the order of the dictionary, `shuffle`. -/
def applyUpsert (existing : Option Row) (table rowId : Text) (columns : Record Text Entry)
    (schemaVersion : ℕ) : Except MergeError (Option Row) :=
  let row := existing.getD ⟨table, rowId, false, none, schemaVersion, []⟩
  match if row.deleted then row.deletedHlc else none with
  | some deletedHlc =>
    let columnsToApply := (dictionary U.norm columns.entries).filter fun p =>
      decide (0 < Native.Swift.hlcCompareStr U p.2.hlc deletedHlc)
    if columnsToApply.isEmpty then .ok none
    else do
      let merged ← applyColumns U (shuffle columnsToApply) []
      .ok (some { row with deleted := false, deletedHlc := none, columns := merged })
  | none => do
    let merged ← applyColumns U (shuffle (dictionary U.norm columns.entries)) row.columns
    .ok (some { row with columns := merged })

/-- An op against the row it addresses. -/
def applyToRow (existing : Option Row) (op : Op) (schemaVersion : ℕ) :
    Except MergeError (Option Row) :=
  match op with
  | .delete table rowId hlc => .ok (applyDelete U existing table rowId hlc schemaVersion)
  | .upsert table rowId columns =>
    applyUpsert U shuffle existing table rowId columns schemaVersion

/-- `applyOp`: the new tables. -/
def applyOp (tables : Tables) (op : Op) (schemaVersion : ℕ) : Except MergeError Tables := do
  let rows := (lookup U.norm op.table tables).getD []
  match ← applyToRow U shuffle (lookup U.norm op.rowId rows) op schemaVersion with
  | none => .ok (assign U.norm op.table rows tables)
  | some row =>
    .ok (assign U.norm op.table (assign U.norm op.rowId row rows) tables)

end

end Swift

/-! ## Python follows core -/

/-- A text that `hlcSerialize` writes for a safe clock with a device id. -/
def Canonical (s : Text) : Prop := ∃ st : Stamp Text, Native.Python.Readable st ∧ stampText st = s

theorem Canonical.serialized {s : Text} (h : Canonical s) : Serialized s :=
  h.imp fun _ hst => hst.2

theorem compare_core {a b : Text} (ha : Canonical a) (hb : Canonical b) :
    ∃ z, Python.compare a b = .ok z ∧ isPos (hlcCompareStr a b) = decide (0 < z) ∧
      isNeg (hlcCompareStr a b) = decide (z < 0) ∧
      isNonPos (hlcCompareStr a b) = decide (z ≤ 0) := by
  have hnonpos := isNonPos_compare ha.serialized hb.serialized
  obtain ⟨s, hs, rfl⟩ := ha
  obtain ⟨t, ht, rfl⟩ := hb
  rw [stampOf_stampText, stampOf_stampText] at hnonpos
  refine ⟨Native.Python.hlcCompare s t, ?_, ?_, ?_, ?_⟩
  · rw [Python.compare, Native.Python.hlcCompareStr_stampText hs ht]
  · rw [Bool.eq_iff_iff, isPos_hlcCompareStr, decide_eq_true_eq, Native.Python.hlcCompare_pos_iff]
  · rw [Bool.eq_iff_iff, isNeg_hlcCompareStr, decide_eq_true_eq, Native.Python.hlcCompare_neg_iff]
  · rw [Bool.eq_iff_iff, hnonpos, decide_eq_true_eq, ← not_lt, ← not_lt,
      Native.Python.hlcCompare_pos_iff]

/-- An outcome of core is the outcome of Python: the same result, or the same conflict. -/
def Follows {α β : Type} (f : α → β) : Except Python.MergeError α → Except MergeError β → Prop
  | .ok a, .ok b => b = f a
  | .error (.conflictingValues h t r c), .error e => e = .conflictingValues h t r c
  | _, _ => False

theorem Follows.cases {α β : Type} {f : α → β} {x : Except Python.MergeError α}
    {y : Except MergeError β} (h : Follows f x y) :
    (∃ a, x = .ok a ∧ y = .ok (f a)) ∨
      ∃ hlc t r c, x = .error (.conflictingValues hlc t r c) ∧
        y = .error (.conflictingValues hlc t r c) := by
  cases x with
  | ok a =>
    cases y with
    | ok b =>
      obtain rfl : b = f a := h
      exact Or.inl ⟨a, rfl, rfl⟩
    | error e => exact h.elim
  | error e =>
    cases e with
    | invalidHlc => cases y <;> exact h.elim
    | conflictingValues hlc t r c =>
      cases y with
      | ok b => exact h.elim
      | error e =>
        obtain rfl : e = .conflictingValues hlc t r c := h
        exact Or.inr ⟨hlc, t, r, c, rfl, rfl⟩

/-- What core needs of two values under one stamp: that Python tells them apart as it does. -/
def ValuesAlike (payload columns : Record Text Entry) : Prop :=
  ∀ c old new, payload.get c = some old → columns.get c = some new → old.hlc = new.hlc →
    Python.wireValueEqual old.value new.value =
      columnValuesEqual (toJs old.value) (toJs new.value)

theorem mergeColumn_core {existing : Option Entry} {entry : Entry} (table rowId field : Text)
    (hold : ∀ old, existing = some old → Canonical old.hlc) (hnew : Canonical entry.hlc)
    (hvalues : ∀ old, existing = some old → old.hlc = entry.hlc →
      Python.wireValueEqual old.value entry.value =
        columnValuesEqual (toJs old.value) (toJs entry.value)) :
    Follows (Option.map Entry.toCore) (Python.mergeColumn existing entry table rowId field)
      (mergeColumn (existing.map Entry.toCore) entry.toCore .lww table rowId field) := by
  cases existing with
  | none => exact rfl
  | some old =>
    have ho := hold old rfl
    obtain ⟨z, hz, hpos, hneg, hnonpos⟩ := compare_core hnew ho
    simp only [Python.mergeColumn, mergeColumn, Option.map_some, Entry.toCore,
      if_neg ho.serialized.ne_nil, hz, hpos, hneg, decide_eq_true_eq]
    show Follows _ (if 0 < z then _ else _) _
    by_cases hp : 0 < z
    · rw [if_pos hp, if_pos hp]
      exact rfl
    · rw [if_neg hp, if_neg hp]
      by_cases hn : z < 0
      · rw [if_pos hn, if_pos hn]
        exact rfl
      · have heq : old.hlc = entry.hlc := by
          have hnp : ¬ stampOf old.hlc < stampOf entry.hlc := by
            rw [← hnew.serialized.isPos_compare ho.serialized, hpos, decide_eq_true_eq]
            exact hp
          have hnn : ¬ stampOf entry.hlc < stampOf old.hlc := by
            rw [← hnew.serialized.isNeg_compare ho.serialized, hneg, decide_eq_true_eq]
            exact hn
          exact (ho.serialized.stampOf_inj hnew.serialized).mp
            (le_antisymm (not_lt.mp hnn) (not_lt.mp hnp))
        rw [if_neg hn, if_neg hn, hvalues old rfl heq]
        show Follows _ _ (if columnValuesEqual (toJs old.value) (toJs entry.value) = true then _
          else _)
        by_cases hv : columnValuesEqual (toJs old.value) (toJs entry.value) = true
        · rw [if_pos hv, if_pos hv]
          exact rfl
        · rw [if_neg hv, if_neg hv]
          exact rfl

theorem winner_eq {existing : Option Entry} {entry winner : Entry} {table rowId field : Text}
    (h : Python.mergeColumn existing entry table rowId field = .ok (some winner)) :
    winner = entry := by
  cases existing with
  | none => exact (Option.some.inj (Except.ok.inj h)).symm
  | some old =>
    simp only [Python.mergeColumn] at h
    by_cases hempty : old.hlc = []
    · rw [if_pos hempty] at h
      exact (Option.some.inj (Except.ok.inj h)).symm
    · rw [if_neg hempty] at h
      rcases hc : Python.compare entry.hlc old.hlc with e | z
      · rw [hc] at h
        exact absurd h (by simp [bind, Except.bind])
      · rw [hc] at h
        simp only [bind, Except.bind] at h
        split_ifs at h with hpos
        · exact (Option.some.inj (Except.ok.inj h)).symm
        all_goals simp at h

/-- The loop over the columns: the same payload and the same flag, or the same conflict. -/
theorem applyColumns_core (table rowId : Text) {cols : List (Text × Entry)}
    (hnodup : (cols.map Prod.fst).Nodup) (payload : Record Text Entry) (changed : Bool)
    (hp : ∀ c e, payload.get c = some e → Canonical e.hlc)
    (hc : ∀ p ∈ cols, Canonical p.2.hlc)
    (hvalues : ∀ p ∈ cols, ∀ old, payload.get p.1 = some old → old.hlc = p.2.hlc →
      Python.wireValueEqual old.value p.2.value =
        columnValuesEqual (toJs old.value) (toJs p.2.value)) :
    Follows (fun out => (out.1.mapValues Entry.toCore, out.2))
      (Python.applyColumns table rowId cols payload changed)
      (applyColumns none table rowId (cols.map fun p => (p.1, p.2.toCore))
        (payload.mapValues Entry.toCore) changed) := by
  induction cols generalizing payload changed with
  | nil => exact rfl
  | cons p cols ih =>
    obtain ⟨col, entry⟩ := p
    rw [map_cons, nodup_cons] at hnodup
    have hentry : Canonical entry.hlc := hc _ mem_cons_self
    have hrest : ∀ q ∈ cols, Canonical q.2.hlc := fun q hq => hc q (mem_cons_of_mem _ hq)
    have hne : ∀ q ∈ cols, col ≠ q.1 := fun q hq he =>
      hnodup.1 (mem_map.mpr ⟨q, hq, he.symm⟩)
    have hmerge := mergeColumn_core table rowId col (fun old h => hp col old h) hentry
      (fun old h => hvalues _ mem_cons_self old h)
    have hstrategy : resolveStrategy none table col = .ok .lww := rfl
    simp only [Python.applyColumns, map_cons, applyColumns, hstrategy, Record.get_mapValues]
    obtain ⟨out, hx, hy⟩ | ⟨hlc, t, r, c, hx, hy⟩ := hmerge.cases
    · rw [hx, hy]
      cases out with
      | none =>
        exact ih hnodup.2 payload changed hp hrest fun q hq =>
          hvalues q (mem_cons_of_mem _ hq)
      | some winner =>
        -- the winner is the incoming entry, so its stamp is canonical too
        obtain rfl := winner_eq hx
        show Follows _ (Python.applyColumns table rowId cols (payload.set col winner) true)
          (applyColumns none table rowId _ ((payload.mapValues Entry.toCore).set col
            winner.toCore) true)
        rw [← Record.mapValues_set]
        refine ih hnodup.2 _ true ?_ hrest ?_
        · intro c e he
          rw [Record.get_set] at he
          split_ifs at he with hcc
          · rw [← Option.some.inj he]
            exact hentry
          · exact hp c e he
        · intro q hq old hold
          rw [Record.get_set_ne _ _ (hne q hq)] at hold
          exact hvalues q (mem_cons_of_mem _ hq) old hold
    · rw [hx, hy]
      exact rfl

/-- The row, as core has it. -/
def Python.Row.toCore (r : Python.Row) : Interocitor.Row :=
  ⟨⟨r.table, r.rowId, r.deleted, r.deletedHlc, r.schemaVersion, none⟩,
    r.payload.mapValues Entry.toCore⟩

/-- The tables, as core has them. -/
def Python.Tables.toCore (tables : Python.Tables) : Interocitor.Tables :=
  tables.mapValues fun rows => rows.mapValues Python.Row.toCore

/-- The stamps in a row are canonical. -/
structure Python.Row.Readable (r : Python.Row) : Prop where
  deletedHlc : ∀ d ∈ r.deletedHlc, Canonical d
  columns : ∀ c e, r.payload.get c = some e → Canonical e.hlc

/-! ### Filters

The three tests of a delete and of a revival, for any comparison that has the sign of Python's. -/

section Filters

variable {g : Text → Text → Bool}

theorem anyNewer_eq {hlc : Text} {es : List Entry} (hne : ∀ e ∈ es, e.hlc ≠ [])
    (h : ∀ e ∈ es, ∃ z, Python.compare e.hlc hlc = .ok z ∧ g e.hlc hlc = decide (0 < z)) :
    Python.anyNewer hlc es = .ok (es.any fun e => g e.hlc hlc) := by
  induction es with
  | nil => rfl
  | cons e es ih =>
    rw [forall_mem_cons] at hne h
    obtain ⟨⟨z, hz, hsign⟩, hrest⟩ := h
    rw [Python.anyNewer, if_neg hne.1, hz, any_cons, hsign, ih hne.2 hrest]
    show (if 0 < z then _ else _) = _
    by_cases hp : 0 < z
    · rw [if_pos hp, decide_eq_true hp, Bool.true_or]
    · rw [if_neg hp, decide_eq_false hp, Bool.false_or]

theorem newerColumns_eq {d : Text} {cols : List (Text × Entry)}
    (h : ∀ p ∈ cols, ∃ z, Python.compare p.2.hlc d = .ok z ∧ g p.2.hlc d = decide (0 < z)) :
    Python.newerColumns d cols = .ok (cols.filter fun p => g p.2.hlc d) := by
  induction cols with
  | nil => rfl
  | cons p cols ih =>
    rw [forall_mem_cons] at h
    obtain ⟨⟨z, hz, hsign⟩, hrest⟩ := h
    rw [Python.newerColumns, hz, ih hrest, filter_cons, hsign]
    show Except.ok (if 0 < z then _ else _) = _
    by_cases hp : 0 < z
    · rw [if_pos hp, if_pos (decide_eq_true hp)]
    · rw [if_neg hp, if_neg (by rw [decide_eq_true_eq]; exact hp)]

theorem staleDelete_eq {hlc : Text} {deletedHlc : Option Text}
    (h : ∀ d ∈ deletedHlc, ∃ z, Python.compare hlc d = .ok z ∧ g hlc d = decide (z ≤ 0)) :
    Python.staleDelete deletedHlc hlc = .ok ((truthy deletedHlc).any fun d => g hlc d) := by
  rw [Python.staleDelete]
  rcases htruthy : truthy deletedHlc with _ | d
  · rfl
  · obtain ⟨z, hz, hsign⟩ := h d (truthy_eq_some htruthy).1
    simp only [hz, Option.any_some, hsign]
    rfl

end Filters

variable {existing : Option Python.Row}

theorem applyDelete_core (hrow : ∀ row, existing = some row → row.Readable) (table rowId : Text)
    {hlc : Text} (hh : Canonical hlc) (v : ℕ) :
    Follows (Option.map Python.Row.toCore) (Python.applyDelete existing table rowId hlc v)
      (.ok (applyDelete (existing.map Python.Row.toCore) table rowId hlc v)) := by
  cases existing with
  | none => exact rfl
  | some row =>
    have hr := hrow row rfl
    have hvalues : ((row.payload.mapValues Entry.toCore).values.any fun e =>
        decide (e.hlc ≠ []) && isPos (hlcCompareStr e.hlc hlc)) =
        (row.payload.values.any fun e => decide (e.hlc ≠ []) && isPos (hlcCompareStr e.hlc hlc)) := by
      rw [Record.values, Record.mapValues, map_map, Record.values, any_map, any_map]
      rfl
    have hcolumn : ∀ e ∈ row.payload.values, Canonical e.hlc := fun e he => by
      obtain ⟨c, hc⟩ := Record.mem_values_iff.mp he
      exact hr.columns c e hc
    have hnewer : Python.anyNewer hlc row.payload.values = .ok (row.payload.values.any fun e =>
        decide (e.hlc ≠ []) && isPos (hlcCompareStr e.hlc hlc)) := by
      refine anyNewer_eq (g := fun a b => decide (a ≠ []) && isPos (hlcCompareStr a b))
        (fun e he => (hcolumn e he).serialized.ne_nil) fun e he => ?_
      obtain ⟨z, hz, hpos, -, -⟩ := compare_core (hcolumn e he) hh
      refine ⟨z, hz, ?_⟩
      rw [decide_eq_true (hcolumn e he).serialized.ne_nil, Bool.true_and, hpos]
    have hstale : Python.staleDelete row.deletedHlc hlc = .ok ((truthy row.deletedHlc).any fun d =>
        isNonPos (hlcCompareStr hlc d)) := by
      refine staleDelete_eq (g := fun a b => isNonPos (hlcCompareStr a b)) fun d hd => ?_
      obtain ⟨z, hz, -, -, hnonpos⟩ := compare_core hh (hr.deletedHlc d hd)
      exact ⟨z, hz, hnonpos⟩
    simp only [Python.applyDelete, applyDelete, Option.map_some, Python.Row.toCore, hvalues,
      hstale, hnewer]
    cases (truthy row.deletedHlc).any fun d => isNonPos (hlcCompareStr hlc d) with
    | true => exact rfl
    | false =>
      cases row.payload.values.any fun e =>
        decide (e.hlc ≠ []) && isPos (hlcCompareStr e.hlc hlc) <;> exact rfl

theorem applyUpsert_core (hrow : ∀ row, existing = some row → row.Readable) (table rowId : Text)
    {columns : Record Text Entry} (hc : ∀ c e, columns.get c = some e → Canonical e.hlc) (v : ℕ)
    (hvalues : ∀ row, existing = some row → ValuesAlike row.payload columns) :
    Follows (Option.map Python.Row.toCore) (Python.applyUpsert existing table rowId columns v)
      (applyUpsert (existing.map Python.Row.toCore) table rowId
        (columns.mapValues Entry.toCore) v none) := by
  have hmem : ∀ p ∈ columns.entries, Canonical p.2.hlc := fun p hp =>
    hc p.1 p.2 (Record.mem_entries_iff.mp hp)
  -- the row the op is applied to, on both sides
  obtain ⟨row, hrowdef, hcore, hread, halike⟩ : ∃ row,
      existing.getD ⟨table, rowId, false, none, v, ∅⟩ = row ∧
      (existing.map Python.Row.toCore).getD (blankRow table rowId v false none) = row.toCore ∧
      row.Readable ∧ ValuesAlike row.payload columns := by
    cases existing with
    | none =>
      refine ⟨_, rfl, rfl, ⟨fun d hd => absurd hd (by simp), fun c e he => ?_⟩, fun c old new ho => ?_⟩
      · exact absurd he (by simp)
      · exact absurd ho (by simp)
    | some row => exact ⟨row, rfl, rfl, hrow row rfl, hvalues row rfl⟩
  have hdeleted : (if row.toCore._meta.deleted then truthy row.toCore._meta.deletedHlc else none) =
      if row.deleted then truthy row.deletedHlc else none := rfl
  simp only [Python.applyUpsert, applyUpsert, hrowdef, hcore, hdeleted]
  rcases hd : (if row.deleted then truthy row.deletedHlc else none) with _ | d
  · have hloop := applyColumns_core table rowId columns.nodup row.payload existing.isNone
      hread.columns hmem fun p hp old hold => halike p.1 old p.2 hold (Record.mem_entries_iff.mp hp)
    have hentries : (columns.mapValues Entry.toCore).entries =
        columns.entries.map fun p => (p.1, p.2.toCore) := rfl
    have hpayload : row.toCore.payload = row.payload.mapValues Entry.toCore := rfl
    rw [Option.isNone_map]
    obtain ⟨⟨payload, changed⟩, hx, hy⟩ | ⟨hlc, t, r, c, hx, hy⟩ := hloop.cases
    · simp only [hx, hentries, hpayload, hy]
      cases changed <;> exact rfl
    · simp only [hx, hentries, hpayload, hy]
      exact rfl
  · have hdc : Canonical d := by
      split_ifs at hd
      exact hread.deletedHlc d (truthy_eq_some hd).1
    have hfilter : ((columns.mapValues Entry.toCore).entries.filter fun p =>
        isPos (hlcCompareStr p.2.hlc d)) =
        (columns.entries.filter fun p => isPos (hlcCompareStr p.2.hlc d)).map fun p =>
          (p.1, p.2.toCore) := by
      rw [Record.mapValues, filter_map]
      rfl
    have hnodup : ((columns.entries.filter fun p =>
        isPos (hlcCompareStr p.2.hlc d)).map Prod.fst).Nodup :=
      columns.nodup.sublist (filter_sublist.map Prod.fst)
    have hloop := applyColumns_core table rowId hnodup ∅ true (fun c e he => absurd he (by simp))
      (fun p hp => hmem p (mem_of_mem_filter hp)) fun p _ old hold => absurd hold (by simp)
    have hnewer : Python.newerColumns d columns.entries = .ok (columns.entries.filter fun p =>
        isPos (hlcCompareStr p.2.hlc d)) := by
      refine newerColumns_eq (g := fun a b => isPos (hlcCompareStr a b)) fun p hp => ?_
      obtain ⟨z, hz, hpos, -, -⟩ := compare_core (hmem p hp) hdc
      exact ⟨z, hz, hpos⟩
    simp only [hnewer, hfilter, isEmpty_map]
    show Follows _ (if (columns.entries.filter fun p =>
      isPos (hlcCompareStr p.2.hlc d)).isEmpty = true then _ else _) _
    cases (columns.entries.filter fun p => isPos (hlcCompareStr p.2.hlc d)).isEmpty with
    | true => exact rfl
    | false =>
      have hfalse : ¬ (false = true) := Bool.false_ne_true
      rw [if_neg hfalse, if_neg hfalse]
      obtain ⟨⟨payload, changed⟩, hx, hy⟩ | ⟨hlc, t, r, c, hx, hy⟩ := hloop.cases
      · rw [Record.mapValues_empty] at hy
        simp only [hx, hy]
        exact rfl
      · rw [Record.mapValues_empty] at hy
        simp only [hx, hy]
        exact rfl

/-- The stamps of an op are canonical. -/
def Op.Canonical (op : Op) : Prop := ∀ s ∈ op.stamps, Wire.Canonical s

/-- What core needs of a row and an op: that Python tells values under one stamp apart as it
does. -/
def RowAlike (row : Option Python.Row) (op : Op) : Prop :=
  ∀ r, row = some r → ValuesAlike r.payload op.columns

theorem applyToRow_core (hrow : ∀ row, existing = some row → row.Readable) {op : Op}
    (hop : op.Canonical) (v : ℕ) (halike : RowAlike existing op) :
    Follows (Option.map Python.Row.toCore) (Python.applyToRow existing op v)
      (applyToRow (existing.map Python.Row.toCore) op.toCore v none) := by
  cases op with
  | delete table rowId hlc =>
    exact applyDelete_core hrow table rowId (hop hlc mem_cons_self) v
  | upsert table rowId columns =>
    refine applyUpsert_core hrow table rowId (fun c e he => ?_) v halike
    exact hop e.hlc (mem_map.mpr ⟨e, Record.mem_values_iff.mpr ⟨c, he⟩, rfl⟩)

theorem getD_mapValues (tables : Python.Tables) (table : Text) :
    (tables.toCore.get table).getD ∅ =
      ((tables.get table).getD ∅).mapValues Python.Row.toCore := by
  rw [Python.Tables.toCore, Record.get_mapValues]
  cases tables.get table <;> rfl

/-- **Python does to an op what core does to the parsed op**: the same tables, or the same
conflict. -/
theorem applyOp_core {tables : Python.Tables} {op : Op} (v : ℕ)
    (hrow : ∀ row, Python.rowAt tables op.table op.rowId = some row → row.Readable)
    (hop : op.Canonical) (halike : RowAlike (Python.rowAt tables op.table op.rowId) op) :
    Follows Python.Tables.toCore (Python.applyOp tables op v)
      ((applyOp tables.toCore op.toCore v none).map Prod.snd) := by
  have hat : ((tables.get op.table).getD ∅).get op.rowId =
      Python.rowAt tables op.table op.rowId := by
    rw [Python.rowAt]
    cases tables.get op.table <;> rfl
  have hnames : op.toCore.table = op.table ∧ op.toCore.rowId = op.rowId := by
    cases op <;> exact ⟨rfl, rfl⟩
  have hstep := applyToRow_core hrow hop v halike
  simp only [Python.applyOp, applyOp, hnames.1, hnames.2, getD_mapValues, Record.get_mapValues, hat]
  obtain ⟨out, hx, hy⟩ | ⟨hlc, t, r, c, hx, hy⟩ := hstep.cases
  · rw [hx, hy]
    cases out with
    | none => exact (Record.mapValues_set ..).symm
    | some row =>
      show (tables.toCore.set op.table _) = Python.Tables.toCore _
      rw [Python.Tables.toCore, Python.Tables.toCore, Record.mapValues_set, Record.mapValues_set]
  · rw [hx, hy]
    exact rfl

end Interocitor.Wire
