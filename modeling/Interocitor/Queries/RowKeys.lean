import Interocitor.Merge.LocalWrites
import Interocitor.Queries.Stores

/-!
# Rows under joined keys

Both stores keep a row under the text `<table>/<rowId>`.  A slash may occur in either part, so two
pairs can be joined to one text, and a row of the one pair is then the row of the other.  The pull
has the same rows in its hands: it loads them by their pairs from the store.

A row stands under its own key, whichever way it was written.  So what is read under a pair depends
on one entry of the store, and a write under other pairs leaves it alone if none of them is joined to
the same text.

* `rows_apart_iff`: the reads of a pair are the same after every write under other pairs, exactly if
  no slash can be read in two ways.
-/

namespace Interocitor.Queries

open CodeUnits OrderedRecord List Option

/-! ## Pairs that are joined to one text -/

/-- The slash of the second text is a later one of the first: one table goes on where the other one
ends, up to its own slash. -/
def Shifted (p q : Text × Text) : Prop :=
  ∃ m, q.1 = p.1 ++ LocalStore.slash :: m ∧ p.2 = m ++ LocalStore.slash :: q.2

/-- Two pairs whose texts are the same, read with the slash in two places. -/
def Joined (p q : Text × Text) : Prop := Shifted p q ∨ Shifted q p

variable {p q : Text × Text}

theorem Shifted.rowKey_eq (h : Shifted p q) :
    LocalStore.rowKey p.1 p.2 = LocalStore.rowKey q.1 q.2 := by
  obtain ⟨m, htable, hrowId⟩ := h
  rw [LocalStore.rowKey, LocalStore.rowKey, htable, hrowId, append_assoc, cons_append]

/-- **Two pairs have one key**, exactly if they are the same or a slash has been shifted. -/
theorem rowKey_eq_iff :
    LocalStore.rowKey p.1 p.2 = LocalStore.rowKey q.1 q.2 ↔ p = q ∨ Joined p q := by
  constructor
  · intro h
    rw [LocalStore.rowKey, LocalStore.rowKey] at h
    -- the shorter table is the beginning of the longer one
    rcases append_eq_append_iff.mp h with ⟨m, htable, hrest⟩ | ⟨m, htable, hrest⟩
    · cases m with
      | nil =>
        rw [append_nil] at htable
        exact .inl (Prod.ext htable.symm (List.cons.inj hrest).2)
      | cons u m =>
        obtain ⟨rfl, hrowId⟩ := List.cons.inj hrest
        exact .inr (.inl ⟨m, htable, hrowId⟩)
    · cases m with
      | nil =>
        rw [append_nil] at htable
        exact .inl (Prod.ext htable (List.cons.inj hrest).2.symm)
      | cons u m =>
        obtain ⟨rfl, hrowId⟩ := List.cons.inj hrest
        exact .inr (.inr ⟨m, htable, hrowId⟩)
  · rintro (rfl | h | h)
    · rfl
    · exact h.rowKey_eq
    · exact h.rowKey_eq.symm

/-! ## Rows that are written -/

/-- The pair of a row. -/
def pairOf (row : Row) : Text × Text := (row._meta.table, row._meta.rowId)

/-- The pair of an op. -/
def pairOfOp (op : Op) : Text × Text := (op.table, op.rowId)

/-- The key of a pair. -/
def keyOfPair (p : Text × Text) : Text := LocalStore.rowKey p.1 p.2

/-- The rows that are put stand under their own keys, and all others stay as they are. -/
structure PutUnder (keys : List Text) (rows rows' : Record Text Row) : Prop where
  keyed : Keyed rows → Keyed rows'
  frame : ∀ key, key ∉ keys → rows'.get key = rows.get key

theorem PutUnder.refl (keys : List Text) (rows : Record Text Row) : PutUnder keys rows rows :=
  ⟨id, fun _ _ => rfl⟩

variable {keys : List Text}

theorem PutUnder.trans {a b c : Record Text Row} (hab : PutUnder keys a b)
    (hbc : PutUnder keys b c) : PutUnder keys a c :=
  ⟨hbc.keyed ∘ hab.keyed, fun key hkey => (hbc.frame key hkey).trans (hab.frame key hkey)⟩

variable {row : Row}

theorem putUnder_set (rows : Record Text Row) (h : LocalStore.keyOf row ∈ keys) :
    PutUnder keys rows (rows.set (LocalStore.keyOf row) row) := by
  refine ⟨fun hkeyed key row' hget => ?_, fun key hkey => Record.get_set_ne _ _ ?_⟩
  · rw [Record.get_set] at hget
    split_ifs at hget with heq
    · rw [← some.inj hget]
      exact heq
    · exact hkeyed key row' hget
  · rintro rfl
    exact hkey h

theorem putUnder_foldl_set (l : List Row) (h : ∀ row ∈ l, LocalStore.keyOf row ∈ keys)
    (rows : Record Text Row) :
    PutUnder keys rows (l.foldl (fun r row => r.set (LocalStore.keyOf row) row) rows) := by
  induction l generalizing rows with
  | nil => exact .refl keys rows
  | cons row l ih =>
    exact (putUnder_set rows (h row mem_cons_self)).trans
      (ih (fun r hr => h r (mem_cons_of_mem row hr)) _)

/-! ## Rows that are merged -/

/-- The rows of some tables have the keys of the pairs they are found at. -/
def Addressed (tables : Tables) : Prop :=
  ∀ table rowId row, rowAt tables table rowId = some row →
    LocalStore.keyOf row = LocalStore.rowKey table rowId

variable {store : LocalStore} {tables : Tables}

theorem addressed_cacheRow (h : Keyed store.rows) (htables : Addressed tables) (op : Op) :
    Addressed (cacheRow store tables op) := by
  intro table rowId row hrow
  rw [cacheRow] at hrow
  split at hrow
  · rename_i row' hget
    by_cases htable : op.table = table
    · subst htable
      rw [rowAt_set_self, Record.get_set] at hrow
      split_ifs at hrow with hrowId
      · rw [← some.inj hrow, h _ row' hget, hrowId]
      · rw [rowAt_of_tables_get] at hrow
        exact htables _ _ _ hrow
    · rw [rowAt_set_ne _ _ _ htable] at hrow
      exact htables _ _ _ hrow
  · exact htables _ _ _ hrow

theorem addressed_cachedRows (h : Keyed store.rows) (ops : List Op) :
    Addressed (cachedRows store ops) := by
  suffices ∀ tables, Addressed tables → Addressed (ops.foldl (cacheRow store) tables) from
    this ∅ fun table rowId row hrow => absurd hrow (by simp [rowAt])
  induction ops with
  | nil => exact fun tables htables => htables
  | cons op ops ih => exact fun tables htables => ih _ (addressed_cacheRow h htables op)

variable {schema : Option DatabaseSchemaDefinition} {v : ℕ}

/-- A merged row keeps the key of the row it was merged into. -/
theorem keyOf_applyToRow {before : Option Row} {op : Op}
    (hbefore : ∀ r, before = some r → LocalStore.keyOf r = keyOfPair (pairOfOp op))
    (h : applyToRow before op v schema = .ok (some row)) :
    LocalStore.keyOf row = keyOfPair (pairOfOp op) := by
  cases op with
  | delete table rowId hlc =>
    have hout : applyDelete before table rowId hlc v = some row := Except.ok.inj h
    cases before with
    | none =>
      obtain rfl := some.inj hout
      rfl
    | some old =>
      simp only [applyDelete] at hout
      split_ifs at hout
      obtain rfl := some.inj hout
      exact hbefore old rfl
  | upsert table rowId columns =>
    have hbase : LocalStore.keyOf (before.getD (blankRow table rowId v false none)) =
        LocalStore.rowKey table rowId := by
      cases before with
      | none => rfl
      | some old => exact hbefore old rfl
    change applyUpsert before table rowId columns v schema = _ at h
    rw [applyUpsert] at h
    generalize before.getD (blankRow table rowId v false none) = base at h hbase
    dsimp only at h
    split at h
    · split_ifs at h
      · exact absurd (Except.ok.inj h) (by simp)
      · split at h
        · exact absurd h (by simp)
        · obtain rfl := some.inj (Except.ok.inj h)
          exact hbase
    · split at h
      · exact absurd h (by simp)
      · split_ifs at h
        · obtain rfl := some.inj (Except.ok.inj h)
          exact hbase
        · exact absurd (Except.ok.inj h) (by simp)

/-- One op: the row it returns has the key of the op, and the tables stay addressed. -/
theorem addressed_applyOp {tables' : Tables} {op : Op} {res : Option Row}
    (htables : Addressed tables) (h : applyOp tables op v schema = .ok (res, tables')) :
    (∀ row, res = some row → LocalStore.keyOf row = keyOfPair (pairOfOp op)) ∧
      Addressed tables' := by
  have hres : ∀ row, res = some row → LocalStore.keyOf row = keyOfPair (pairOfOp op) := by
    rintro row rfl
    exact keyOf_applyToRow (fun r hr => htables _ _ r hr) (rowAt_applyOp h op.table op.rowId).1
  refine ⟨hres, fun table rowId row hrow => ?_⟩
  rw [(rowAt_applyOp h table rowId).2] at hrow
  split_ifs at hrow with hpair
  · cases res with
    | none => exact htables table rowId row hrow
    | some row' =>
      obtain rfl : row' = row := some.inj hrow
      rw [hres row' rfl, ← hpair.1, ← hpair.2]
      rfl
  · exact htables table rowId row hrow

/-- **The rows that a merge affects** have the keys of the ops of the entry. -/
theorem keyOf_mem_affected {ops : List Op} {affected affected' : List Row} {tables' : Tables}
    (htables : Addressed tables)
    (h : applyOpsLoop v schema ops affected tables = .ok (affected', tables'))
    (hrow : row ∈ affected') :
    row ∈ affected ∨ ∃ op ∈ ops, LocalStore.keyOf row = keyOfPair (pairOfOp op) := by
  induction ops generalizing affected tables with
  | nil =>
    obtain ⟨rfl, -⟩ := Prod.mk.inj (Except.ok.inj h)
    exact .inl hrow
  | cons op ops ih =>
    rw [applyOpsLoop] at h
    split at h
    · exact absurd h (by simp)
    · rename_i res tables₁ happly
      obtain ⟨hres, htables₁⟩ := addressed_applyOp htables happly
      rcases ih htables₁ h with hmem | ⟨op', hop', hkey⟩
      · rcases mem_append.mp hmem with hmem | hmem
        · exact .inl hmem
        · exact .inr ⟨op, mem_cons_self, hres row (Option.mem_toList.mp hmem)⟩
      · exact .inr ⟨op', mem_cons_of_mem op hop', hkey⟩

/-! ## Writes, and the reads of a pair -/

/-- A write of rows under some pairs into `MemoryLocalStore`.  The names of a pull are those for which
the plain objects that it merges in are maps. -/
inductive LocalStore.Writes (written : List (Text × Text)) (store : LocalStore) :
    LocalStore → Prop
  | putRow {row : Row} (h : pairOf row ∈ written) : Writes written store (store.putRow row)
  | putRows {rows : List Row} (h : ∀ row ∈ rows, pairOf row ∈ written) :
      Writes written store (store.putRows rows)
  | commitLocalMutation {row : Row} (h : pairOf row ∈ written) (change : ChangeEntry) :
      Writes written store (store.commitLocalMutation row change)
  | pull {entry : ChangeEntry} (h : ∀ op ∈ entry.ops, pairOfOp op ∈ written)
      (hnames : ∀ op ∈ entry.ops, op.Ordinary) {v : ℕ}
      {schema : Option DatabaseSchemaDefinition} {store' : LocalStore}
      (hmerge : mergeEntry store entry v schema = .ok store') : Writes written store store'

/-- What a pull merges into the rows of an IndexedDB store. -/
def IndexedDbStore.mergeEntry (store : IndexedDbStore) (entry : ChangeEntry) (v : ℕ)
    (schema : Option DatabaseSchemaDefinition) : Except MergeError IndexedDbStore :=
  match applyChangeEntry (cachedRows { LocalStore.empty with rows := store.rows } entry.ops) entry v
      schema with
  | .error e => .error e
  | .ok (affected, _) => .ok (store.putRows affected)

/-- A write of rows under some pairs into the IndexedDB store. -/
inductive IndexedDbStore.Writes (written : List (Text × Text)) (store : IndexedDbStore) :
    IndexedDbStore → Prop
  | putRow {row : Row} (h : pairOf row ∈ written) : Writes written store (store.putRow row)
  | putRows {rows : List Row} (h : ∀ row ∈ rows, pairOf row ∈ written) :
      Writes written store (store.putRows rows)
  | pull {entry : ChangeEntry} (h : ∀ op ∈ entry.ops, pairOfOp op ∈ written)
      (hnames : ∀ op ∈ entry.ops, op.Ordinary) {v : ℕ}
      {schema : Option DatabaseSchemaDefinition} {store' : IndexedDbStore}
      (hmerge : store.mergeEntry entry v schema = .ok store') : Writes written store store'

variable {written : List (Text × Text)}

/-- The rows that a merge stores are under the keys of the ops. -/
theorem keyOf_mem_mergeRows (hkeyed : Keyed store.rows) {entry : ChangeEntry}
    (h : ∀ op ∈ entry.ops, pairOfOp op ∈ written) {affected : List Row}
    (happly : applyChangeEntry (cachedRows store entry.ops) entry v schema = .ok (affected,
      tables)) :
    ∀ row ∈ affected, LocalStore.keyOf row ∈ written.map keyOfPair := by
  intro row hrow
  rcases keyOf_mem_affected (addressed_cachedRows hkeyed entry.ops) happly hrow with
    hnil | ⟨op, hop, hkey⟩
  · exact absurd hnil not_mem_nil
  · rw [hkey]
    exact mem_map_of_mem (h op hop)

theorem keyOf_mem_map (h : pairOf row ∈ written) :
    LocalStore.keyOf row ∈ written.map keyOfPair := mem_map_of_mem h

theorem LocalStore.Writes.putUnder {store' : LocalStore} (hkeyed : Keyed store.rows)
    (h : LocalStore.Writes written store store') :
    PutUnder (written.map keyOfPair) store.rows store'.rows := by
  have hrows : ∀ rows : List Row, (∀ row ∈ rows, LocalStore.keyOf row ∈ written.map keyOfPair) →
      PutUnder (written.map keyOfPair) store.rows (store.putRows rows).rows := by
    intro rows hall
    rw [LocalStore.putRows_eq]
    exact putUnder_foldl_set rows hall store.rows
  cases h with
  | putRow h => exact putUnder_set store.rows (keyOf_mem_map h)
  | putRows h => exact hrows _ fun row hrow => keyOf_mem_map (h row hrow)
  | commitLocalMutation h change => exact putUnder_set store.rows (keyOf_mem_map h)
  | pull h hnames hmerge =>
    rw [Interocitor.mergeEntry] at hmerge
    split at hmerge
    · exact absurd hmerge (by simp)
    · rename_i affected tables happly
      rw [← Except.ok.inj hmerge]
      exact hrows affected (keyOf_mem_mergeRows hkeyed h happly)

namespace IndexedDbStore

variable {store store' : IndexedDbStore} {keys : List Text}

theorem putUnder_put (h : LocalStore.keyOf row ∈ keys) (hput : store.put row = some store') :
    PutUnder keys store.rows store'.rows ∧ store'.indexes = store.indexes := by
  rw [put] at hput
  split_ifs at hput
  rw [← some.inj hput]
  exact ⟨putUnder_set store.rows h, rfl⟩

theorem putUnder_foldlM_put {rows : List Row} (h : ∀ row ∈ rows, LocalStore.keyOf row ∈ keys)
    (hput : rows.foldlM put store = some store') :
    PutUnder keys store.rows store'.rows ∧ store'.indexes = store.indexes := by
  induction rows generalizing store with
  | nil =>
    rw [← some.inj hput]
    exact ⟨.refl _ _, rfl⟩
  | cons row rows ih =>
    rw [foldlM_cons] at hput
    obtain ⟨store₁, hfirst, hrest⟩ := bind_eq_some_iff.mp hput
    obtain ⟨hput₁, hindexes₁⟩ := putUnder_put (h row mem_cons_self) hfirst
    obtain ⟨hput₂, hindexes₂⟩ := ih (fun r hr => h r (mem_cons_of_mem row hr)) hrest
    exact ⟨hput₁.trans hput₂, hindexes₂.trans hindexes₁⟩

theorem putUnder_getD {out : Option IndexedDbStore}
    (h : ∀ store', out = some store' → PutUnder keys store.rows store'.rows ∧ store'.indexes =
      store.indexes) :
    PutUnder keys store.rows (out.getD store).rows ∧ (out.getD store).indexes = store.indexes := by
  cases out with
  | none => exact ⟨.refl _ _, rfl⟩
  | some store' => exact h store' rfl

theorem Writes.putUnder (hkeyed : Keyed store.rows) (h : Writes written store store') :
    PutUnder (written.map keyOfPair) store.rows store'.rows ∧ store'.indexes = store.indexes := by
  cases h with
  | putRow h => exact putUnder_getD fun _ hput => putUnder_put (keyOf_mem_map h) hput
  | putRows h =>
    exact putUnder_getD fun _ hput =>
      putUnder_foldlM_put (fun row hrow => keyOf_mem_map (h row hrow)) hput
  | @pull entry h _ v schema _ hmerge =>
    rw [mergeEntry] at hmerge
    split at hmerge
    · exact absurd hmerge (by simp)
    · rename_i affected tables happly
      rw [← Except.ok.inj hmerge]
      have hkeyed' : Keyed ({ LocalStore.empty with rows := store.rows } : LocalStore).rows := hkeyed
      have hrows := keyOf_mem_mergeRows hkeyed' h happly
      exact putUnder_getD fun _ hput => putUnder_foldlM_put hrows hput

end IndexedDbStore

/-- What is read of the row of a pair is the same in two states of `MemoryLocalStore`: the row
itself, and whether a table or the result of a query has it. -/
structure LocalStore.SameReads (pair : Text × Text) (store store' : LocalStore) : Prop where
  getRow : store'.getRow pair.1 pair.2 = store.getRow pair.1 pair.2
  getRows : ∀ (refs : List (Text × Text)) (i : ℕ), refs[i]? = some pair →
    (store'.getRows refs)[i]? = (store.getRows refs)[i]?
  getTable : ∀ (table : Text) (row : Row), pairOf row = pair →
    (row ∈ store'.getTable table ↔ row ∈ store.getTable table)
  queryWhere : ∀ (P : Platform) (table : Text) (clause : WhereClause) (rows rows' : List Row),
    store.queryWhere P table clause = some rows → store'.queryWhere P table clause = some rows' →
      ∀ row, pairOf row = pair → (row ∈ rows' ↔ row ∈ rows)

/-- What is read of the row of a pair is the same in two states of the IndexedDB store. -/
structure IndexedDbStore.SameReads (pair : Text × Text) (store store' : IndexedDbStore) : Prop where
  getRow : store'.getRow pair.1 pair.2 = store.getRow pair.1 pair.2
  getRows : ∀ (refs : List (Text × Text)) (i : ℕ), refs[i]? = some pair →
    (store'.getRows refs)[i]? = (store.getRows refs)[i]?
  getTable : ∀ (table : Text) (row : Row), pairOf row = pair →
    (row ∈ store'.getTable table ↔ row ∈ store.getTable table)
  queryWhere : ∀ (P : Platform) (schema : Record Text TableSchema) (table : Text)
    (clause : WhereClause) (rows rows' : List Row),
    store.queryWhere P schema table clause = .ok rows →
      store'.queryWhere P schema table clause = .ok rows' →
        ∀ row, pairOf row = pair → (row ∈ rows' ↔ row ∈ rows)

variable {pair : Text × Text}

theorem stored_congr {rows rows' : Record Text Row}
    (h : rows'.get (keyOfPair pair) = rows.get (keyOfPair pair)) (hrow : pairOf row = pair) :
    Stored rows' row ↔ Stored rows row := by
  have hkey : LocalStore.keyOf row = keyOfPair pair := by
    rw [← hrow]
    rfl
  rw [Stored, Stored, hkey, h]

theorem getElem?_map_congr {α β : Type} {f g : α → β} {a : α} (h : f a = g a) {l : List α} {i : ℕ}
    (hi : l[i]? = some a) : (l.map f)[i]? = (l.map g)[i]? := by
  rw [List.getElem?_map, List.getElem?_map, hi, map_some, map_some, h]

theorem LocalStore.sameReads {store' : LocalStore} (hkeyed : Keyed store.rows)
    (hkeyed' : Keyed store'.rows)
    (h : store'.rows.get (keyOfPair pair) = store.rows.get (keyOfPair pair)) :
    LocalStore.SameReads pair store store' where
  getRow := h
  getRows refs i hi := getElem?_map_congr (a := pair) h hi
  getTable table row hrow := by
    rw [LocalStore.mem_getTable hkeyed', LocalStore.mem_getTable hkeyed, stored_congr h hrow]
  queryWhere P table clause rows rows' hrows hrows' row hrow := by
    rw [mem_scan hrows', mem_scan hrows, LocalStore.mem_getTable hkeyed',
      LocalStore.mem_getTable hkeyed, stored_congr h hrow]

theorem IndexedDbStore.sameReads {store store' : IndexedDbStore} (hkeyed : Keyed store.rows)
    (hkeyed' : Keyed store'.rows) (hindexes : store'.indexes = store.indexes)
    (h : store'.rows.get (keyOfPair pair) = store.rows.get (keyOfPair pair)) :
    IndexedDbStore.SameReads pair store store' where
  getRow := h
  getRows refs i hi := getElem?_map_congr (a := pair) h hi
  getTable table row hrow := by
    rw [IndexedDbStore.mem_getTable hkeyed', IndexedDbStore.mem_getTable hkeyed,
      stored_congr h hrow]
  queryWhere P schema table clause rows rows' hrows hrows' row hrow := by
    rw [IndexedDbStore.mem_queryWhere hkeyed' hrows', IndexedDbStore.mem_queryWhere hkeyed hrows,
      stored_congr h hrow, hindexes]

/-! ## Rows apart -/

/-- Every write under some pairs leaves the reads of another pair as they are, in both stores. -/
def RowsApart (written : List (Text × Text)) (pair : Text × Text) : Prop :=
  (∀ store store' : LocalStore, Keyed store.rows → LocalStore.Writes written store store' →
    LocalStore.SameReads pair store store') ∧
  ∀ store store' : IndexedDbStore, Keyed store.rows → IndexedDbStore.Writes written store store' →
    IndexedDbStore.SameReads pair store store'

/-- A row of a pair, without columns. -/
def rowOfPair (p : Text × Text) : Row := ⟨⟨p.1, p.2, false, none, 1, none⟩, ∅⟩

theorem getRow_putRow_joined (h : Joined p q) :
    (LocalStore.empty.putRow (rowOfPair p)).getRow q.1 q.2 = some (rowOfPair p) := by
  have hkey : LocalStore.rowKey q.1 q.2 = LocalStore.keyOf (rowOfPair p) :=
    (rowKey_eq_iff.mpr (.inr h)).symm
  rw [LocalStore.getRow, LocalStore.putRow, hkey]
  exact Record.get_set_self _ _ _

/-- **The row of a pair is apart from the rows of other pairs**, exactly if no slash of the one is
the slash of the other. -/
theorem rows_apart_iff (written : List (Text × Text)) (pair : Text × Text) (h : pair ∉ written) :
    RowsApart written pair ↔ ∀ q ∈ written, ¬ Joined q pair := by
  constructor
  · rintro ⟨hmemory, -⟩ q hq hjoined
    have hsame := hmemory LocalStore.empty _ (fun key row hget => absurd hget (by simp
      [LocalStore.empty])) (@LocalStore.Writes.putRow written _ (rowOfPair q) hq)
    have hget := hsame.getRow
    rw [getRow_putRow_joined hjoined] at hget
    exact absurd hget (by simp [LocalStore.getRow, LocalStore.empty])
  · intro hapart
    have hkey : keyOfPair pair ∉ written.map keyOfPair := by
      intro hmem
      obtain ⟨q, hq, hqpair⟩ := mem_map.mp hmem
      rcases rowKey_eq_iff.mp hqpair with rfl | hjoined
      · exact h hq
      · exact hapart q hq hjoined
    refine ⟨fun store store' hkeyed hwrites => ?_, fun store store' hkeyed hwrites => ?_⟩
    · have hput := hwrites.putUnder hkeyed
      exact LocalStore.sameReads hkeyed (hput.keyed hkeyed) (hput.frame _ hkey)
    · obtain ⟨hput, hindexes⟩ := hwrites.putUnder hkeyed
      exact IndexedDbStore.sameReads hkeyed (hput.keyed hkeyed) hindexes (hput.frame _ hkey)

/-- `tasks/1` in `a` is not in the way of `tasks/2` in it. -/
theorem rows_apart_iff_siblings :
    RowsApart [([97], [49])] ([97], [50]) ↔
      ∀ q ∈ [(([97], [49]) : Text × Text)], ¬ Joined q ([97], [50]) :=
  rows_apart_iff [([97], [49])] ([97], [50]) (by decide)

/-- The row `b/c` of the table `a` is read as the row `c` of the table `a/b`. -/
theorem rows_not_apart :
    (([97], [98, 47, 99]) : Text × Text) ≠ ([97, 47, 98], [99]) ∧
      ¬ RowsApart [([97], [98, 47, 99])] ([97, 47, 98], [99]) := by
  refine ⟨by decide, fun hapart => ?_⟩
  have hsame := hapart.1 LocalStore.empty
    (LocalStore.empty.putRow (rowOfPair ([97], [98, 47, 99])))
    (fun key row hget => absurd hget (by simp [LocalStore.empty]))
    (.putRow mem_cons_self)
  have hget := hsame.getRow
  rw [getRow_putRow_joined (.inl ⟨[98], rfl, rfl⟩)] at hget
  exact absurd hget (by simp [LocalStore.getRow, LocalStore.empty])

end Interocitor.Queries
