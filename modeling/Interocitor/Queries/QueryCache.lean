import Interocitor.Foundation.LoadCache
import Interocitor.Queries.Indexes
import Interocitor.Queries.CacheKeys

/-!
# `sync-engine.ts`: the caches of queries and of rows

The engine keeps what queries and reads of one row returned, and shows it without going to the
store.  Whenever it has told its listeners of a row that was changed or deleted, it starts all the
queries and all the reads of the row's table anew.  That is the only thing that makes it do so.

Several things go wrong.  Where the store is replaced as a whole, by a snapshot or by a reset, no
listener is told of any row, and what was shown before is shown from then on.  And a write whose
batch has to be published at once tells its listeners only after that; if it fails, the row has
been changed and nobody was told.  Nor is anybody told when a pull meets a conflict after it has
changed rows that `MemoryLocalStore` handed out.  Besides, a row may be stored in the place of
another table's, for the keys of the store do not tell all pairs apart.

* `shown_is_current`: at rest.
-/

namespace Interocitor.Queries

open CodeUnits OrderedRecord Comparators List Option

/-! ## The rows of a table -/

/-- The entry of a row of a table, deleted or not. -/
def ofTable (table : Text) (e : Text × Row) : Bool := decide (e.2._meta.table = table)

namespace AnyStore

/-- The rows of a store. -/
def rows : AnyStore → Record Text Row
  | memory s => s.rows
  | indexedDb s _ => s.rows

/-- The rows of a table, under their keys. -/
def tableRows (store : AnyStore) (table : Text) : List (Text × Row) :=
  store.rows.entries.filter (ofTable table)

/-- One kind of store, with the same indexes. -/
def SameKind : AnyStore → AnyStore → Prop
  | memory _, memory _ => True
  | indexedDb s schema, indexedDb s' schema' => s.indexes = s'.indexes ∧ schema = schema'
  | _, _ => False

/-- `putRows`, and what `commitLocalMutation` does to the rows; `none` is a `ConstraintError`. -/
def putRows (store : AnyStore) (rows : List Row) : Option AnyStore :=
  match store with
  | memory s => some (memory (s.putRows rows))
  | indexedDb s schema => (rows.foldlM IndexedDbStore.put s).map fun s' => indexedDb s' schema

/-- Rows that were handed out are changed by a merge that throws: `MemoryLocalStore` hands out the
rows that it holds, the other store copies. -/
def mutate (store : AnyStore) (rows : List Row) : AnyStore :=
  match store with
  | memory s => memory (s.putRows rows)
  | indexedDb s schema => indexedDb s schema

/-- `clearAll`. -/
def clearAll : AnyStore → AnyStore
  | memory _ => memory LocalStore.empty
  | indexedDb s schema => indexedDb { s with rows := ∅ } schema

end AnyStore

theorem inTable_eq (table : Text) (e : Text × Row) :
    inTable table e.2 = (ofTable table e && !e.2._meta.deleted) := by
  rw [inTable, ofTable]
  cases h : e.2._meta.deleted <;> simp

theorem filter_inTable (table : Text) (l : List (Text × Row)) :
    (l.map Prod.snd).filter (inTable table) =
      (((l.filter (ofTable table)).filter fun e => !e.2._meta.deleted).map Prod.snd) := by
  rw [List.filter_map, List.filter_filter]
  refine congrArg (List.map Prod.snd) (filter_congr fun e _ => ?_)
  rw [Function.comp_apply, inTable_eq, Bool.and_comm]

namespace IndexedDbStore

/-- **The rows of a table in order** are those of the table, in order. -/
theorem filter_inOrder (store : IndexedDbStore) (table : Text) :
    store.inOrder.filter (ofTable table) =
      (store.rows.entries.filter (ofTable table)).mergeSort fun a b => decide (a.1 ≤ b.1) := by
  have htrans : ∀ a b c : Text × Row, decide (a.1 ≤ b.1) = true → decide (b.1 ≤ c.1) = true →
      decide (a.1 ≤ c.1) = true := by
    intro a b c hab hbc
    rw [decide_eq_true_eq] at hab hbc ⊢
    exact hab.trans hbc
  have htotal : ∀ a b : Text × Row, (decide (a.1 ≤ b.1) || decide (b.1 ≤ a.1)) = true := by
    intro a b
    rw [Bool.or_eq_true, decide_eq_true_eq, decide_eq_true_eq]
    exact le_total a.1 b.1
  have hperm : (store.inOrder.filter (ofTable table)).Perm
      ((store.rows.entries.filter (ofTable table)).mergeSort fun a b => decide (a.1 ≤ b.1)) :=
    ((mergeSort_perm _ _).filter _).trans (mergeSort_perm _ _).symm
  have hmem : ∀ {e}, e ∈ store.inOrder.filter (ofTable table) → e ∈ store.rows.entries :=
    fun he => mem_inOrder.mp (mem_of_mem_filter he)
  refine List.Perm.eq_of_pairwise (fun a b ha hb hab hba => ?_)
    ((pairwise_mergeSort htrans htotal _).filter _)
    (pairwise_mergeSort htrans htotal _) hperm
  rw [decide_eq_true_eq] at hab hba
  -- the keys of a record are distinct
  have hkey : a.1 = b.1 := le_antisymm hab hba
  have hget : store.rows.get a.1 = some a.2 := Record.mem_entries_iff.mp (hmem ha)
  have hget' : store.rows.get b.1 = some b.2 :=
    Record.mem_entries_iff.mp (hmem (hperm.mem_iff.mpr hb))
  rw [hkey] at hget
  exact Prod.ext hkey (some.inj (hget.symm.trans hget'))

end IndexedDbStore

/-- Both ends of a range are in a table. -/
def KeyRange.InTable (range : KeyRange) (table : Text) : Prop :=
  ∃ l u, range.lower = .array (.string table :: l) ∧ range.upper = .array (.string table :: u)

variable {range : KeyRange} {table : Text}

theorem inTable_of_bound {l u : List Key} {a b : Bool}
    (h : KeyRange.bound (.array (.string table :: l)) (.array (.string table :: u)) a b =
      .ok range) :
    range.InTable table := by
  rw [(KeyRange.bound_eq_ok.mp h).2]
  exact ⟨l, u, rfl, rfl⟩

theorem inTable_of_range {P : Platform} {clause : WhereClause}
    (h : rangeForClause P table clause = .ok range) : range.InTable table := by
  obtain ⟨name, op, value, values, lower, upper, lowerOpen, upperOpen⟩ := clause
  cases op with
  | startsWith => exact inTable_of_bound h
  | between =>
    simp only [rangeForClause] at h
    cases hk : toKey (givenValue lower) with
    | none =>
      rw [hk] at h
      cases h
    | some k =>
      cases hk' : toKey (givenValue upper) with
      | none =>
        rw [hk, hk'] at h
        cases h
      | some k' =>
        rw [hk, hk'] at h
        exact inTable_of_bound h
  | _ =>
    simp only [rangeForClause] at h
    cases hk : toKey (givenValue value) with
    | none =>
      rw [hk] at h
      cases h
    | some k =>
      rw [hk] at h
      exact inTable_of_bound h

theorem contains_of_table_ne {table' : Text} (h : range.InTable table) (hne : table' ≠ table)
    (k : Key) : range.contains (.array [.string table', k]) = false := by
  obtain ⟨l, u, hl, hu⟩ := h
  refine Bool.eq_false_iff.mpr fun hcontains => ?_
  obtain ⟨hlower, hupper⟩ := KeyRange.contains_iff.mp hcontains
  rw [hl, compareKeys, compareItems, compareKeys] at hlower
  rw [hu, compareKeys, compareItems, compareKeys] at hupper
  rcases lt_trichotomy table table' with hlt | heq | hgt
  · -- the key is beyond the upper end
    rw [order, if_neg (lt_asymm hlt), if_pos hlt] at hupper
    rcases hupper with hupper | ⟨hupper, -⟩ <;> cases hupper
  · exact hne heq.symm
  · rw [order, if_neg (lt_asymm hgt), if_pos hgt] at hlower
    rcases hlower with hlower | ⟨hlower, -⟩ <;> cases hlower

/-- The key of a row, in a range, goes by the rows of the table alone. -/
theorem getAll_eq {store : IndexedDbStore} {field : Text} (h : range.InTable table) :
    store.getAll field range =
      ((((store.inOrder.filter (ofTable table)).filterMap fun e =>
        (indexKey e.2 field).bind fun k =>
          if range.contains k then some (k, e.2) else none).mergeSort fun a b =>
            (compareKeys a.1 b.1).isLE).map Prod.snd) := by
  rw [IndexedDbStore.getAll, filterMap_filter]
  refine congrArg (fun l => (List.mergeSort l _).map Prod.snd) (filterMap_congr fun e _ => ?_)
  split_ifs with htable
  · rfl
  · cases hk : indexKey e.2 field with
    | none => rfl
    | some k =>
      obtain ⟨u, -, rfl⟩ := map_eq_some_iff.mp hk
      rw [bind_some, contains_of_table_ne h (of_decide_eq_false (Bool.eq_false_iff.mpr
        htable)), if_neg Bool.false_ne_true]

namespace AnyStore

variable {P : Platform} {store store' : AnyStore} {table : Text}

/-- **The rows of a table decide what a query of it returns.** -/
theorem query_congr (hkind : store.SameKind store')
    (hrows : store'.tableRows table = store.tableRows table) (clause : Option WhereClause) :
    store'.query P table clause = store.query P table clause := by
  cases store with
  | memory s =>
    cases store' with
    | indexedDb => exact hkind.elim
    | memory s' =>
      have htable : s'.getTable table = s.getTable table := by
        rw [LocalStore.getTable, LocalStore.getTable, Record.values, Record.values, filter_inTable,
          filter_inTable]
        exact congrArg (fun l => (List.filter _ l).map Prod.snd) hrows
      cases clause with
      | none => exact congrArg some htable
      | some clause => exact congrArg (fun rows => scan P rows clause) htable
  | indexedDb s schema =>
    cases store' with
    | memory => exact hkind.elim
    | indexedDb s' schema' =>
      obtain ⟨hindexes, rfl⟩ := hkind
      have hinOrder : s'.inOrder.filter (ofTable table) = s.inOrder.filter (ofTable table) := by
        rw [IndexedDbStore.filter_inOrder, IndexedDbStore.filter_inOrder]
        exact congrArg (fun l => List.mergeSort l _) hrows
      have htable : s'.getTable table = s.getTable table := by
        rw [IndexedDbStore.getTable, IndexedDbStore.getTable, filter_inTable, filter_inTable,
          hinOrder]
      have hgetAll : ∀ field range, KeyRange.InTable range table →
          s'.getAll field range = s.getAll field range := by
        intro field range hrange
        rw [getAll_eq hrange, getAll_eq hrange, hinOrder]
      cases clause with
      | none => exact congrArg some htable
      | some clause =>
        have honly : ∀ field w, s'.getOnly field table w = s.getOnly field table w := by
          intro field w
          rw [IndexedDbStore.getOnly, IndexedDbStore.getOnly]
          cases toKey w.toJs with
          | none => rfl
          | some k =>
            dsimp only
            cases hrange : KeyRange.bound (.array [.string table, k]) (.array [.string table, k])
                false false with
            | error e => rfl
            | ok range => exact congrArg Except.ok (hgetAll field range (inTable_of_bound hrange))
        have hindex : ∀ field, s'.queryIndex P field table clause =
            s.queryIndex P field table clause := by
          intro field
          rw [IndexedDbStore.queryIndex, IndexedDbStore.queryIndex, funext (honly field)]
          cases hrange : rangeForClause P table clause with
          | error e => rfl
          | ok range =>
            have hall := hgetAll field range (inTable_of_range hrange)
            split_ifs
            · rfl
            · exact congrArg (fun l => Except.ok (List.filter (inTable table) l)) hall
        have hwhere : s'.queryWhere P schema table clause = s.queryWhere P schema table clause := by
          simp only [IndexedDbStore.queryWhere, htable, hindexes, hindex]
        exact congrArg Except.toOption hwhere

end AnyStore

/-- **The rows of a table decide the answers to the queries of it.** -/
theorem answer_congr {P : Platform} {S : ArraySort Fetched} {objects : Row → Text → ℕ}
    {store store' : AnyStore} {d : QueryDescriptor} (hkind : store.SameKind store')
    (hrows : store'.tableRows d.table = store.tableRows d.table) :
    answer P S objects store' d = answer P S objects store d := by
  rw [answer, answer, AnyStore.query_congr hkind hrows]

/-! ## Rows that are put -/

theorem filter_put {p : Text × Row → Bool} {k : Text} {row : Row} {l : List (Text × Row)}
    (hrow : p (k, row) = false) (hold : ∀ old, find k l = some old → p (k, old) = false) :
    (put k row l).filter p = l.filter p := by
  induction l with
  | nil => rw [put, filter_cons_of_neg (by rw [hrow]; exact Bool.false_ne_true)]
  | cons e l ih =>
    rw [put]
    split_ifs with he
    · have hat : p e = false := by
        have h := hold e.2 (by rw [find, if_pos he])
        rw [← he] at h
        exact h
      rw [filter_cons_of_neg (by rw [hrow]; exact Bool.false_ne_true),
        filter_cons_of_neg (by rw [hat]; exact Bool.false_ne_true)]
    · have hrest := ih fun old hfind => hold old (by rw [find, if_neg he, hfind])
      rw [filter_cons, filter_cons, hrest]

/-- No row is put in the place of a row of another table. -/
def NoClash (rows : Record Text Row) (written : List Row) : Prop :=
  ∀ row ∈ written, ∀ old, rows.get (LocalStore.keyOf row) = some old →
    old._meta.table = row._meta.table

/-- **Rows of other tables that are put** leave the rows of a table as they are. -/
theorem filter_putAll {written : List Row} (rows : Record Text Row)
    (hother : ∀ row ∈ written, row._meta.table ≠ table)
    (hclash : ∀ row ∈ written, ∀ old, rows.get (LocalStore.keyOf row) = some old →
      old._meta.table ≠ table) :
    ((written.foldl (fun r row => r.set (LocalStore.keyOf row) row) rows).entries.filter
      (ofTable table)) = rows.entries.filter (ofTable table) := by
  induction written generalizing rows with
  | nil => rfl
  | cons row written ih =>
    have hne := hother row mem_cons_self
    rw [foldl_cons, ih _ (fun row' h => hother row' (mem_cons_of_mem row h))]
    · exact filter_put (decide_eq_false hne) fun old hold =>
        decide_eq_false (hclash row mem_cons_self old hold)
    · intro row' hrow' old hold
      rw [Record.get_set] at hold
      split_ifs at hold with hkey
      · rw [← some.inj hold]
        exact hne
      · exact hclash row' (mem_cons_of_mem row hrow') old hold

theorem get_putAll {written : List Row} {key : Text} (rows : Record Text Row)
    (hkey : ∀ row ∈ written, LocalStore.keyOf row ≠ key) :
    (written.foldl (fun r row => r.set (LocalStore.keyOf row) row) rows).get key =
      rows.get key := by
  induction written generalizing rows with
  | nil => rfl
  | cons row written ih =>
    rw [foldl_cons, ih _ fun row' h => hkey row' (mem_cons_of_mem row h)]
    exact Record.get_set_ne _ _ (hkey row mem_cons_self)

namespace AnyStore

variable {store store' : AnyStore}

theorem rows_putRows {written : List Row} (h : store.putRows written = some store') :
    store.SameKind store' ∧
      store'.rows = written.foldl (fun r row => r.set (LocalStore.keyOf row) row) store.rows := by
  cases store with
  | memory s =>
    rw [← some.inj h]
    exact ⟨trivial, congrArg LocalStore.rows (LocalStore.putRows_eq s written)⟩
  | indexedDb s schema =>
    obtain ⟨s', hs', rfl⟩ := map_eq_some_iff.mp h
    suffices hfold : s.indexes = s'.indexes ∧
        s'.rows = written.foldl (fun r row => r.set (LocalStore.keyOf row) row) s.rows from
      ⟨⟨hfold.1, rfl⟩, hfold.2⟩
    clear h
    induction written generalizing s with
    | nil =>
      rw [← some.inj hs']
      exact ⟨rfl, rfl⟩
    | cons row written ih =>
      rw [foldlM_cons] at hs'
      obtain ⟨s₁, hput, hrest⟩ := bind_eq_some_iff.mp hs'
      rw [IndexedDbStore.put] at hput
      split_ifs at hput with hviolates
      obtain ⟨hindexes, hrows⟩ := ih s₁ hrest
      rw [← some.inj hput] at hindexes hrows
      exact ⟨hindexes, hrows⟩

theorem sameKind_clearAll (store : AnyStore) : store.SameKind store.clearAll := by
  cases store with
  | memory s => exact trivial
  | indexedDb s schema => exact ⟨rfl, rfl⟩

theorem sameKind_mutate (store : AnyStore) (rows : List Row) : store.SameKind
    (store.mutate rows) := by
  cases store with
  | memory s => exact trivial
  | indexedDb s schema => exact ⟨rfl, rfl⟩

theorem getRow_eq (store : AnyStore) (pair : Text × Text) :
    store.getRow pair = store.rows.get (LocalStore.rowKey pair.1 pair.2) := by
  cases store <;> rfl

end AnyStore

/-! ## The engine -/

/-- The store, the caches, the rows that an operation has written and not told its listeners of,
and whether the store is being replaced. -/
structure CachingEngine where
  store : AnyStore
  queryCache : LoadCache.Cache Text Text QueryDescriptor (List Fetched)
  rowCache : LoadCache.Cache Text Text (Text × Text) (Option Row)
  untold : List (List Row)
  replacing : Bool

/-- What happens: loads are asked for, read and arrive; `put`, `delete` and `pull` write rows, and
tell the listeners or fail before they do; a merge throws that has changed rows it was handed; a
snapshot or a reset replaces the store. -/
inductive Action where
  | loadQueryRows (d : QueryDescriptor) (bypass : Bool)
  | loadRow (pair : Text × Text) (bypass : Bool)
  | readQuery (i : ℕ)
  | readRow (i : ℕ)
  | failQuery (i : ℕ)
  | failRow (i : ℕ)
  | settleQuery (i : ℕ)
  | settleRow (i : ℕ)
  | write (rows : List Row)
  | emitAffectedRows (i : ℕ)
  | throws (i : ℕ)
  | mergeThrows (rows : List Row)
  | clearAll
  | restore (rows : List Row)
  | replaced

namespace CachingEngine

section Steps

variable (P : Platform) (S : ArraySort Fetched) (objects : Row → Text → ℕ)

/-- An engine over a store. -/
def start (store : AnyStore) : CachingEngine := ⟨store, .empty, .empty, [], false⟩

/-- `invalidateQueryCacheForTable`. -/
def invalidateQueryCacheForTable (e : CachingEngine) (table : Text) : CachingEngine :=
  { e with queryCache := e.queryCache.invalidate QueryDescriptor.table table }

/-- `invalidateRowCacheForTable`. -/
def invalidateRowCacheForTable (e : CachingEngine) (table : Text) : CachingEngine :=
  { e with rowCache := e.rowCache.invalidate Prod.fst table }

/-- `emit`, of a change or a deletion in a table. -/
def emit (e : CachingEngine) (table : Text) : CachingEngine :=
  (e.invalidateQueryCacheForTable table).invalidateRowCacheForTable table

/-- `emitAffectedRows`. -/
def emitAffectedRows (e : CachingEngine) (affected : List Row) : CachingEngine :=
  affected.foldl (fun e row => e.emit row._meta.table) e

/-- `loadQueryRows`, and the part of `runQuery` that does not wait. -/
def loadQueryRows (e : CachingEngine) (d : QueryDescriptor) (bypass : Bool) : CachingEngine :=
  { e with
    queryCache := e.queryCache.request QueryDescriptor.table d (computeCacheKey P d) bypass }

/-- `loadRow`, and the part of `runRow` that does not wait. -/
def loadRow (e : CachingEngine) (pair : Text × Text) (bypass : Bool) : CachingEngine :=
  { e with rowCache := e.rowCache.request Prod.fst pair (getRowCacheKey pair) bypass }

/-- One step. -/
def step (e : CachingEngine) : Action → CachingEngine
  | .loadQueryRows d bypass => e.loadQueryRows P d bypass
  | .loadRow pair bypass => e.loadRow pair bypass
  | .readQuery i => { e with queryCache := e.queryCache.read i (answer P S objects e.store) }
  | .readRow i => { e with rowCache := e.rowCache.read i fun pair => some (answerRow e.store pair) }
  | .failQuery i => { e with queryCache := e.queryCache.read i fun _ => none }
  | .failRow i => { e with rowCache := e.rowCache.read i fun _ => none }
  | .settleQuery i => { e with queryCache := e.queryCache.settle i }
  | .settleRow i => { e with rowCache := e.rowCache.settle i }
  | .write rows =>
    match e.store.putRows rows with
    | some store => { e with store := store, untold := e.untold ++ [rows] }
    | none => e
  | .emitAffectedRows i =>
    match e.untold[i]? with
    | some affected => { e.emitAffectedRows affected with untold := e.untold.eraseIdx i }
    | none => e
  | .throws i => { e with untold := e.untold.eraseIdx i }
  | .mergeThrows rows => { e with store := e.store.mutate rows }
  | .clearAll => { e with store := e.store.clearAll, replacing := true }
  | .restore rows => { e with store := (e.store.putRows rows).getD e.store, replacing := true }
  | .replaced => { e with replacing := false }

/-- Many steps. -/
def run (e : CachingEngine) (actions : List Action) : CachingEngine :=
  actions.foldl (step P S objects) e

end Steps

/-- Nothing is under way. -/
def Resting (e : CachingEngine) : Prop :=
  e.queryCache.loads = [] ∧ e.rowCache.loads = [] ∧ e.untold = [] ∧ e.replacing = false

/-- Every entry that is ready shows what the store answers now. -/
def Current (P : Platform) (S : ArraySort Fetched) (objects : Row → Text → ℕ)
    (e : CachingEngine) : Prop :=
  (∀ k entry, e.queryCache.entries.get k = some entry → entry.status = .ready →
    ∃ rows, entry.answer = some rows ∧ answer P S objects e.store entry.query = some rows) ∧
    ∀ k entry, e.rowCache.entries.get k = some entry → entry.status = .ready →
      entry.answer = some (answerRow e.store entry.query)

/-! ## Steps that leave nobody untold -/

/-- No query and no read of a row of a table is cached. -/
def Unwatched (e : CachingEngine) (table : Text) : Prop :=
  (∀ k entry, e.queryCache.entries.get k = some entry → entry.query.table ≠ table) ∧
    ∀ k entry, e.rowCache.entries.get k = some entry → entry.query.1 ≠ table

/-- A new store has what the cached queries and reads are about as it was. -/
def Keeps (e : CachingEngine) (store : AnyStore) : Prop :=
  (∀ k entry, e.queryCache.entries.get k = some entry →
    store.tableRows entry.query.table = e.store.tableRows entry.query.table) ∧
    ∀ k entry, e.rowCache.entries.get k = some entry →
      store.getRow entry.query = e.store.getRow entry.query

/-- **A step leaves nobody untold**: a replacement and a merge that throws keep what is cached, a
write that fails before its event is not to a table that is cached, and no row takes the place of
another table's. -/
def Announced (e : CachingEngine) : Action → Prop
  | .write rows => NoClash e.store.rows rows ∧ ∀ row ∈ rows, ∀ k entry,
      e.rowCache.entries.get k = some entry →
        LocalStore.rowKey entry.query.1 entry.query.2 = LocalStore.keyOf row →
          entry.query.1 = row._meta.table
  | .throws i => ∀ rows, e.untold[i]? = some rows → ∀ row ∈ rows, e.Unwatched row._meta.table
  | .mergeThrows rows => e.Keeps (e.store.mutate rows)
  | .clearAll => e.Keeps e.store.clearAll
  | .restore rows => ∀ store, e.store.putRows rows = some store → e.Keeps store
  | _ => True

/-- All steps of a run leave nobody untold. -/
def AnnouncedRun (P : Platform) (S : ArraySort Fetched) (objects : Row → Text → ℕ) :
    CachingEngine → List Action → Prop
  | _, [] => True
  | e, a :: rest => e.Announced a ∧ AnnouncedRun P S objects (e.step P S objects a) rest

/-! ## What the caches keep -/

/-- A row of the table is written and not told of. -/
def Owed (untold : List (List Row)) (table : Text) : Prop :=
  ∃ rows ∈ untold, ∃ row ∈ rows, row._meta.table = table

/-- Both caches are fresh, but for the tables that have rows which are not told of. -/
structure Fresh (P : Platform) (S : ArraySort Fetched) (objects : Row → Text → ℕ)
    (e : CachingEngine) : Prop where
  queries : LoadCache.Cache.Fresh QueryDescriptor.table (answer P S objects e.store)
    (Owed e.untold) e.queryCache
  rows : LoadCache.Cache.Fresh Prod.fst (fun pair => some (answerRow e.store pair))
    (Owed e.untold) e.rowCache

variable {P : Platform} {S : ArraySort Fetched} {objects : Row → Text → ℕ} {e : CachingEngine}

theorem fresh_start (store : AnyStore) : Fresh P S objects (start store) :=
  ⟨.empty, .empty⟩

/-- **The store changes**, and what is cached is kept or announced. -/
theorem Fresh.store_change (h : Fresh P S objects e) {store : AnyStore} {untold : List (List Row)}
    (replacing : Bool) (hkind : e.store.SameKind store)
    (hle : ∀ t, Owed e.untold t → Owed untold t)
    (hqueries : ∀ k entry, e.queryCache.entries.get k = some entry →
      Owed untold entry.query.table ∨
        store.tableRows entry.query.table = e.store.tableRows entry.query.table)
    (hrows : ∀ k entry, e.rowCache.entries.get k = some entry →
      Owed untold entry.query.1 ∨ store.getRow entry.query = e.store.getRow entry.query) :
    Fresh P S objects ⟨store, e.queryCache, e.rowCache, untold, replacing⟩ where
  queries := h.queries.change hle fun k entry hk =>
    (hqueries k entry hk).imp_right fun hsame => answer_congr hkind hsame
  rows := h.rows.change hle fun k entry hk => (hrows k entry hk).imp_right fun hsame => by
    rw [answerRow, answerRow, hsame]

theorem Fresh.replace (h : Fresh P S objects e) {store : AnyStore} (replacing : Bool)
    (hkind : e.store.SameKind store) (hkeeps : e.Keeps store) :
    Fresh P S objects ⟨store, e.queryCache, e.rowCache, e.untold, replacing⟩ :=
  h.store_change replacing hkind (fun _ ht => ht) (fun k entry hk => .inr (hkeeps.1 k entry hk))
    fun k entry hk => .inr (hkeeps.2 k entry hk)

/-- What is told of rows: their tables, one after the other. -/
theorem emitAffectedRows_eq (affected : List Row) :
    (e.emitAffectedRows affected).store = e.store ∧
      (e.emitAffectedRows affected).untold = e.untold ∧
      (e.emitAffectedRows affected).queryCache =
        (affected.map fun row => row._meta.table).foldl
          (LoadCache.Cache.invalidate QueryDescriptor.table) e.queryCache ∧
      (e.emitAffectedRows affected).rowCache =
        (affected.map fun row => row._meta.table).foldl
          (LoadCache.Cache.invalidate Prod.fst) e.rowCache := by
  induction affected generalizing e with
  | nil => exact ⟨rfl, rfl, rfl, rfl⟩
  | cons row affected ih => exact ih (e := e.emit row._meta.table)

theorem mem_eraseIdx_or {α : Type} {l : List α} {i : ℕ} {a b : α} (hi : l[i]? = some b)
    (ha : a ∈ l) : a = b ∨ a ∈ l.eraseIdx i := by
  induction l generalizing i with
  | nil => exact absurd ha not_mem_nil
  | cons c l ih =>
    cases i with
    | zero =>
      rcases mem_cons.mp ha with rfl | ha
      · exact .inl (some.inj hi)
      · exact .inr ha
    | succ i =>
      rcases mem_cons.mp ha with rfl | ha
      · exact .inr mem_cons_self
      · exact (ih hi ha).imp_right (mem_cons_of_mem c)

/-- **Listeners are told of rows.** -/
theorem Fresh.told (h : Fresh P S objects e) {i : ℕ} {affected : List Row}
    (hi : e.untold[i]? = some affected) :
    Fresh P S objects { e.emitAffectedRows affected with untold := e.untold.eraseIdx i } := by
  obtain ⟨hstore, -, hqueryCache, hrowCache⟩ := emitAffectedRows_eq (e := e) affected
  have howed : ∀ t, Owed e.untold t ∧ t ∉ affected.map (fun row => row._meta.table) →
      Owed (e.untold.eraseIdx i) t := by
    rintro t ⟨⟨rows, hrows, row, hrow, rfl⟩, hnot⟩
    rcases mem_eraseIdx_or hi hrows with rfl | hrows
    · exact absurd (mem_map_of_mem hrow) hnot
    · exact ⟨rows, hrows, row, hrow, rfl⟩
  constructor
  · dsimp only
    rw [hstore, hqueryCache]
    exact (h.queries.invalidateAll _).mono fun k entry _ => howed _
  · dsimp only
    rw [hstore, hrowCache]
    exact (h.rows.invalidateAll _).mono fun k entry _ => howed _

/-- **A step that leaves nobody untold keeps the caches fresh.** -/
theorem fresh_step (h : Fresh P S objects e) {a : Action} (ha : e.Announced a) :
    Fresh P S objects (e.step P S objects a) := by
  cases a with
  | loadQueryRows d bypass => exact ⟨h.queries.request d _ bypass, h.rows⟩
  | loadRow pair bypass => exact ⟨h.queries, h.rows.request pair _ bypass⟩
  | readQuery i => exact ⟨h.queries.read i fun _ _ hread => hread, h.rows⟩
  | readRow i => exact ⟨h.queries, h.rows.read i fun _ _ hread => hread⟩
  | failQuery i =>
    have hfail := h.queries.read (f := fun _ => none) i fun _ _ hread => (by cases hread)
    exact ⟨hfail, h.rows⟩
  | failRow i =>
    have hfail := h.rows.read (f := fun _ => none) i fun _ _ hread => (by cases hread)
    exact ⟨h.queries, hfail⟩
  | settleQuery i => exact ⟨h.queries.settle i, h.rows⟩
  | settleRow i => exact ⟨h.queries, h.rows.settle i⟩
  | replaced => exact ⟨h.queries, h.rows⟩
  | mergeThrows rows => exact h.replace e.replacing (e.store.sameKind_mutate rows) ha
  | clearAll => exact h.replace true (AnyStore.sameKind_clearAll e.store) ha
  | restore rows =>
    rw [step]
    cases hput : e.store.putRows rows with
    | none => exact ⟨h.queries, h.rows⟩
    | some store => exact h.replace true (AnyStore.rows_putRows hput).1 (ha store hput)
  | throws i =>
    cases hi : e.untold[i]? with
    | none =>
      have hlength : e.untold.eraseIdx i = e.untold :=
        eraseIdx_of_length_le (List.getElem?_eq_none_iff.mp hi)
      rw [step, hlength]
      exact h
    | some rows =>
      have hunwatched := ha rows hi
      have howed : ∀ t, Owed e.untold t → (∀ row ∈ rows, row._meta.table ≠ t) →
          Owed (e.untold.eraseIdx i) t := by
        rintro t ⟨rows', hrows', row, hrow, rfl⟩ hnot
        rcases mem_eraseIdx_or hi hrows' with rfl | hrows'
        · exact absurd rfl (hnot row hrow)
        · exact ⟨rows', hrows', row, hrow, rfl⟩
      exact ⟨h.queries.mono fun k entry hk ht => howed _ ht fun row hrow heq =>
          (hunwatched row hrow).1 k entry hk heq.symm,
        h.rows.mono fun k entry hk ht => howed _ ht fun row hrow heq =>
          (hunwatched row hrow).2 k entry hk heq.symm⟩
  | emitAffectedRows i =>
    rw [step]
    cases hi : e.untold[i]? with
    | none => exact h
    | some affected => exact h.told hi
  | write rows =>
    rw [step]
    cases hput : e.store.putRows rows with
    | none => exact h
    | some store =>
      obtain ⟨hclash, hpairs⟩ := ha
      obtain ⟨hkind, hrows⟩ := AnyStore.rows_putRows hput
      have howed : ∀ t, (∃ row ∈ rows, row._meta.table = t) → Owed (e.untold ++ [rows]) t :=
        fun t ht => ⟨rows, mem_append_right _ mem_cons_self, ht⟩
      refine h.store_change e.replacing hkind ?_ ?_ ?_
      · rintro t ⟨rows', hrows', ht⟩
        exact ⟨rows', mem_append_left _ hrows', ht⟩
      · intro k entry hk
        by_cases hmem : ∃ row ∈ rows, row._meta.table = entry.query.table
        · exact .inl (howed _ hmem)
        · refine .inr ?_
          have hother : ∀ row ∈ rows, row._meta.table ≠ entry.query.table :=
            fun row hrow heq => hmem ⟨row, hrow, heq⟩
          rw [AnyStore.tableRows, AnyStore.tableRows, hrows]
          refine filter_putAll _ hother fun row hrow old hold heq => ?_
          exact hother row hrow ((hclash row hrow old hold).symm.trans heq)
      · intro k entry hk
        by_cases hmem : ∃ row ∈ rows, row._meta.table = entry.query.1
        · exact .inl (howed _ hmem)
        · refine .inr ?_
          rw [AnyStore.getRow_eq, AnyStore.getRow_eq, hrows]
          refine get_putAll _ fun row hrow hkey => hmem ⟨row, hrow, ?_⟩
          exact (hpairs row hrow k entry hk hkey.symm).symm

/-- **A run that leaves nobody untold keeps the caches fresh.** -/
theorem fresh_run (h : Fresh P S objects e) {actions : List Action}
    (ha : AnnouncedRun P S objects e actions) : Fresh P S objects (e.run P S objects actions) := by
  induction actions generalizing e with
  | nil => exact h
  | cons a actions ih => exact ih (fresh_step h ha.1) ha.2

/-- **Nothing stale is shown at rest**, in a run that leaves nobody untold. -/
theorem shown_is_current (P : Platform) (S : ArraySort Fetched) (objects : Row → Text → ℕ)
    (store : AnyStore) (actions : List Action)
    (ha : AnnouncedRun P S objects (start store) actions)
    (hrest : Resting ((start store).run P S objects actions)) :
    Current P S objects ((start store).run P S objects actions) := by
  have hfresh := fresh_run (fresh_start store) ha
  have hnone : ∀ t, ¬ Owed ((start store).run P S objects actions).untold t := by
    rintro t ⟨rows, hrows, -⟩
    rw [hrest.2.2.1] at hrows
    cases hrows
  refine ⟨fun k entry hk hready => hfresh.queries.of_resting hnone hk hready,
    fun k entry hk hready => ?_⟩
  obtain ⟨a, hanswer, hnow⟩ := hfresh.rows.of_resting hnone hk hready
  rw [hanswer, ← some.inj hnow]

/-! ## A snapshot -/

/-- Everything in the table `a`. -/
def wholeTable : QueryDescriptor := ⟨[97], none, none⟩

/-- A row of the table `a`. -/
def tableRow : Row := rowOfPair ([97], [49])

/-- A store without rows. -/
def noRows : AnyStore := .memory LocalStore.empty

/-- The table is asked for, and the answer arrives. -/
def asked : List Action := [.loadQueryRows wholeTable false, .readQuery 0, .settleQuery 0]

/-- A row is written, its listeners are told, and the new answer arrives. -/
def written : List Action :=
  [.write [tableRow], .emitAffectedRows 0, .readQuery 1, .settleQuery 1]

/-- A snapshot with the row is restored. -/
def restored : List Action := [.clearAll, .restore [tableRow], .replaced]

theorem shown_is_current_written : Current strokePlatform (insertionSort Fetched) (fun _ _ => 0)
    ((start noRows).run strokePlatform (insertionSort Fetched) (fun _ _ => 0)
      (asked ++ written)) := by
  refine shown_is_current _ _ _ noRows (asked ++ written) ?_ ⟨rfl, rfl, rfl, rfl⟩
  refine ⟨trivial, trivial, trivial, ⟨fun row _ old hold => ?_, fun row _ k entry hk => ?_⟩,
    trivial, trivial, trivial, trivial⟩
  · have hnone : (none : Option Row) = some old := hold
    cases hnone
  · have hnone : (none : Option (LoadCache.Entry (Text × Text) (Option Row))) = some entry := hk
    cases hnone

/-- **A table that was empty is shown empty after a snapshot**, with nothing under way. -/
theorem not_shown_is_current :
    Resting ((start noRows).run strokePlatform (insertionSort Fetched) (fun _ _ => 0)
        (asked ++ restored)) ∧
      ¬ Current strokePlatform (insertionSort Fetched) (fun _ _ => 0)
        ((start noRows).run strokePlatform (insertionSort Fetched) (fun _ _ => 0)
          (asked ++ restored)) := by
  refine ⟨⟨rfl, rfl, rfl, rfl⟩, fun hcurrent => ?_⟩
  obtain ⟨rows, hshown, hnow⟩ := hcurrent.1 (computeCacheKey strokePlatform wholeTable)
    ⟨wholeTable, .ready, some [], none⟩ rfl rfl
  obtain rfl : [] = rows := some.inj hshown
  cases hnow

end CachingEngine

end Interocitor.Queries
