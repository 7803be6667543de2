import Interocitor.Clock.Writes
import Interocitor.Merge.CustomMerge

/-!
# Local writes to columns with a custom merge

What a peer wrote goes through the merge function of the column.  What is written locally does not:
`putNow` assigns the column, and publishes the row with whatever the assignment left in it.  So the
value that was there is not merged into the new one on the device that writes, and it is on every
other device that has seen it.

The system is a set of devices, each with its tables, and the ops that were published.  A device
puts columns, or pulls an op, in any order and as often as it likes.  There are no deletes.

* `custom_puts_converge`: if every put is over values that its own values absorb --- merging the
  two gives the new one --- then every device that has seen every op holds the fold of the merge
  function over all the values written, and no pull raises.
* `put_discards_what_it_replaced`: one put over a larger number, with a merge that keeps the
  larger one.
-/

namespace Interocitor

open CodeUnits OrderedRecord HybridClock JoinUpTo List Option Function
open PlainKeys (mapsOf tablesOf mapsOf_tablesOf)

/-! ## The devices -/

/-- A call of `put`, with the stamp it is given. -/
structure PutCall where
  table : Text
  rowId : Text
  columns : List (Text × JsValue)
  stamp : Text

/-- The entry that a call writes to a column. -/
def PutCall.entryAt (call : PutCall) (table rowId col : Text) : Option ColumnEntry :=
  if call.table = table ∧ call.rowId = rowId then
    (written col (storedColumns call.columns)).map fun v => ⟨v, call.stamp⟩
  else none

/-- The row that a call stores on a device, over the row that is there. -/
def PutCall.rowOver (call : PutCall) (current : Option Row) (deviceId : Text)
    (schemaVersion : ℕ) : Row :=
  let row := rowForPut current call.table call.rowId schemaVersion
  ⟨{ row._meta with deleted := false, deletedHlc := none, owner := some deviceId },
    putColumns row.payload call.columns call.stamp⟩

/-- That is what `putNow` stores. -/
theorem putRowOf_eq_rowOver (d : Device) (call : PutCall) :
    putRowOf d call.table call.rowId call.columns call.stamp =
      call.rowOver (d.store.getRow call.table call.rowId) d.config.deviceId
        ((d.config.schema.bind fun s => s.version).getD 0) := rfl

/-- The names of a call are ordinary: those of the table and the row, and in a table with a `fields`
object those of the columns that it stores. -/
structure PutCall.Ordinary (schema : Option DatabaseSchemaDefinition) (call : PutCall) : Prop where
  table : call.table ∉ inheritedNames
  rowId : call.rowId ∉ inheritedNames
  columns : HasFields schema call.table → ∀ p ∈ storedColumns call.columns, p.1 ∉ inheritedNames

/-- What the devices share. -/
structure MeshSchema (ι : Type) where
  schema : Option DatabaseSchemaDefinition
  schemaVersion : ℕ
  deviceId : ι → Text

/-- The devices, the ops published so far, which of them each device has issued or pulled, and the
calls made so far. -/
structure PutMesh (ι : Type) where
  tables : ι → Tables
  published : List Op
  seen : ι → List ℕ
  calls : List PutCall

/-- A device puts, or pulls an op by its number. -/
inductive PutEvent (ι : Type) where
  | put (device : ι) (call : PutCall)
  | pull (device : ι) (index : ℕ)

/-- Store a row in the tables. -/
def setRow (tables : Tables) (table rowId : Text) (row : Row) : Tables :=
  tables.set table (((tables.get table).getD ∅).set rowId row)

namespace PutMesh

variable {ι : Type}

/-- Nothing has been written. -/
def start (ι : Type) : PutMesh ι := ⟨fun _ => ∅, [], fun _ => [], []⟩

/-- The row that a call stores on a device. -/
def rowOf (cfg : MeshSchema ι) (m : PutMesh ι) (i : ι) (call : PutCall) : Row :=
  call.rowOver (rowAt (m.tables i) call.table call.rowId) (cfg.deviceId i) cfg.schemaVersion

/-- The op that is published for a stored row, if any. -/
def opOf (row : Row) : Option Op :=
  match rowToSyncOp row, truthy (some (getRowHlc row)) with
  | some op, some _ => some op
  | _, _ => none

/-- The entries written to a column, in the order of the calls. -/
def entriesAt (m : PutMesh ι) (table rowId col : Text) : List ColumnEntry :=
  m.calls.filterMap fun call => call.entryAt table rowId col

variable [DecidableEq ι]

/-- One event.  A pull merges into plain objects, and stores nothing if it raises. -/
def step (cfg : MeshSchema ι) (m : PutMesh ι) : PutEvent ι → PutMesh ι
  | .put i call =>
    let row := m.rowOf cfg i call
    let op := opOf row
    { tables := update m.tables i (setRow (m.tables i) call.table call.rowId row)
      published := m.published ++ op.toList
      seen := update m.seen i (m.seen i ++ op.toList.map fun _ => m.published.length)
      calls := m.calls ++ [call] }
  | .pull i n =>
    match m.published[n]? with
    | none => m
    | some op =>
      match PlainKeys.applyOp (tablesOf (m.tables i)) op cfg.schemaVersion cfg.schema with
      | .error _ => m
      | .ok (_, tables) =>
        { m with
          tables := update m.tables i (mapsOf tables)
          seen := update m.seen i (m.seen i ++ [n]) }

/-- A run. -/
def run (cfg : MeshSchema ι) (m : PutMesh ι) (events : List (PutEvent ι)) : PutMesh ι :=
  events.foldl (step cfg) m

end PutMesh

/-! ## When a put may assign -/

/-- The values of a call absorb those that it replaces: in every column with a custom merge, merging
the two gives the new one. -/
def Absorbs (schema : Option DatabaseSchemaDefinition) (tables : Tables) (call : PutCall) : Prop :=
  ∀ col merge old new,
    declaredStrategy schema call.table col = .custom merge →
    columnOf tables call.table call.rowId col = some old →
    call.entryAt call.table call.rowId col = some new →
    EqualEntry (merge old new ⟨call.table, call.rowId, col⟩) new

/-- Every put of a run absorbs what it replaces. -/
def PutMesh.Absorbing {ι : Type} [DecidableEq ι] (cfg : MeshSchema ι) (m : PutMesh ι) :
    List (PutEvent ι) → Prop
  | [] => True
  | .put i call :: events =>
    Absorbs cfg.schema (m.tables i) call ∧ (m.step cfg (.put i call)).Absorbing cfg events
  | .pull i n :: events => (m.step cfg (.pull i n)).Absorbing cfg events

/-! ## The rows and the ops of a put -/

theorem rowAt_setRow (tables : Tables) (table rowId t r : Text) (row : Row) :
    rowAt (setRow tables table rowId row) t r =
      if table = t ∧ rowId = r then some row else rowAt tables t r := by
  unfold setRow
  by_cases ht : table = t
  · subst ht
    rw [rowAt_set_self, Record.get_set]
    by_cases hr : rowId = r
    · rw [if_pos hr, if_pos ⟨rfl, hr⟩]
    · rw [if_neg hr, if_neg fun h => hr h.2, rowAt_of_tables_get]
  · rw [rowAt_set_ne _ _ _ ht, if_neg fun h => ht h.1]

/-- A row as puts and merges without deletes leave it. -/
structure LiveRow (table rowId : Text) (row : Row) : Prop where
  table : row._meta.table = table
  rowId : row._meta.rowId = rowId
  deleted : row._meta.deleted = false

theorem liveRow_rowOver (call : PutCall) {current : Option Row}
    (h : ∀ row, current = some row → LiveRow call.table call.rowId row) (deviceId : Text)
    (v : ℕ) : LiveRow call.table call.rowId (call.rowOver current deviceId v) := by
  cases current with
  | none => exact ⟨rfl, rfl, rfl⟩
  | some row => exact ⟨(h row rfl).table, (h row rfl).rowId, rfl⟩

/-- A column after a put: what the call wrote, or what was there. -/
theorem get_rowOver (call : PutCall) {current : Option Row}
    (h : ∀ row, current = some row → LiveRow call.table call.rowId row) (deviceId : Text) (v : ℕ)
    (col : Text) :
    (call.rowOver current deviceId v).payload.get col =
      (call.entryAt call.table call.rowId col).or
        (current.bind fun row => row.payload.get col) := by
  rw [PutCall.entryAt, if_pos ⟨rfl, rfl⟩, PutCall.rowOver, get_putColumns_eq]
  congr 1
  cases current with
  | none => rfl
  | some row =>
    simp only [rowForPut, (h row rfl).deleted, Bool.false_eq_true, if_false, bind_some]

theorem PutCall.entryAt_proto (call : PutCall) (table rowId : Text) :
    call.entryAt table rowId protoName = none := by
  have hnot : protoName ∉ (storedColumns call.columns).map Prod.fst := by
    intro hmem
    obtain ⟨p, hp, hname⟩ := mem_map.1 hmem
    exact of_decide_eq_true (p := p.1 ≠ protoName) (mem_filter.1 hp).2 hname
  rw [PutCall.entryAt, written_eq_none_iff.mpr hnot]
  split_ifs <;> rfl

/-- The loop of `getRowHlc` ends with a stamp if it starts with one or meets one. -/
theorem getRowHlc_loop_ne_nil {entries : List ColumnEntry} {latest : Text}
    (h : latest ≠ [] ∨ ∃ e ∈ entries, e.hlc ≠ []) :
    entries.foldl (fun latest entry =>
      if entry.hlc = [] then latest
      else if latest = [] ∨ isPos (hlcCompareStr entry.hlc latest) then entry.hlc
      else latest) latest ≠ [] := by
  induction entries generalizing latest with
  | nil =>
    rcases h with h | ⟨e, he, -⟩
    · exact h
    · exact absurd he (by simp)
  | cons x entries ih =>
    rw [foldl_cons]
    refine ih ?_
    by_cases hx : x.hlc = []
    · rw [if_pos hx]
      rcases h with h | ⟨e, he, hne⟩
      · exact .inl h
      · rcases mem_cons.1 he with rfl | he
        · exact absurd hx hne
        · exact .inr ⟨e, he, hne⟩
    · rw [if_neg hx]
      split_ifs with hlatest
      · exact .inl hx
      · exact .inl fun hn => hlatest (.inl hn)

/-- **What is published is the row**: nothing if it has no columns, else all of them. -/
theorem opOf_eq {table rowId : Text} {row : Row} (h : LiveRow table rowId row)
    (hstamped : ∀ col e, row.payload.get col = some e → e.hlc ≠ []) :
    PutMesh.opOf row = if row.payload.entries = [] then none
      else some (.upsert table rowId row.payload) := by
  obtain ⟨meta', ⟨entries, hnodup⟩⟩ := row
  have hall : entries.filter (fun p => decide (p.2.hlc ≠ [])) = entries := by
    refine filter_eq_self.2 ?_
    intro p hp
    exact decide_eq_true (hstamped p.1 p.2 (Record.mem_entries_iff.1 hp))
  have hop : rowToSyncOp ⟨meta', ⟨entries, hnodup⟩⟩ = if entries = [] then none
      else some (.upsert table rowId ⟨entries, hnodup⟩) := by
    rw [rowToSyncOp, if_neg (by rw [h.deleted]; simp), h.table, h.rowId]
    simp only [Record.filter, hall]
  rw [PutMesh.opOf, hop]
  by_cases hnil : entries = []
  · rw [if_pos hnil]
  · rw [if_neg hnil]
    have hne : getRowHlc ⟨meta', ⟨entries, hnodup⟩⟩ ≠ [] := by
      obtain ⟨p, hp⟩ := exists_mem_of_ne_nil _ hnil
      refine getRowHlc_loop_ne_nil (.inr ⟨p.2, mem_map_of_mem hp, ?_⟩)
      exact hstamped p.1 p.2 (Record.mem_entries_iff.1 hp)
    rw [truthy_of_ne_nil hne]

/-! ## What holds of every run -/

variable {table rowId col : Text} {x : ColumnEntry}

theorem PutCall.addr_of_entryAt (call : PutCall) (h : call.entryAt table rowId col = some x) :
    call.table = table ∧ call.rowId = rowId := by
  rw [PutCall.entryAt] at h
  split_ifs at h with haddr
  exact haddr

theorem PutMesh.entriesAt_step {ι : Type} [DecidableEq ι] (cfg : MeshSchema ι) (m : PutMesh ι)
    (i : ι) (call : PutCall) (table rowId col : Text) :
    (m.step cfg (.put i call)).entriesAt table rowId col =
      m.entriesAt table rowId col ++ (call.entryAt table rowId col).toList := by
  show (m.calls ++ [call]).filterMap _ = _
  rw [filterMap_append, filterMap_cons, filterMap_nil]
  cases call.entryAt table rowId col with
  | none => rfl
  | some x => rfl

theorem PutMesh.entries_subset {ι : Type} [DecidableEq ι] (cfg : MeshSchema ι) (m : PutMesh ι)
    (i : ι) (call : PutCall) (table rowId col : Text) :
    { x | x ∈ m.entriesAt table rowId col } ⊆
      { x | x ∈ (m.step cfg (.put i call)).entriesAt table rowId col } := by
  intro x hx
  show x ∈ (m.step cfg (.put i call)).entriesAt table rowId col
  rw [PutMesh.entriesAt_step]
  exact mem_append_left _ hx

/-- An entry that comes in is in the column afterwards, and so is the one that was there. -/
theorem under_of_takes {D : Set ColumnEntry} {join : ColumnEntry → ColumnEntry → ColumnEntry}
    (hl : Lawful D EqualEntry join) {old new after : Option ColumnEntry}
    (h : Takes D join old new after) (hold : ∀ e, old = some e → e ∈ D)
    (hnew : ∀ e, new = some e → e ∈ D) {e : ColumnEntry} (he : old = some e ∨ new = some e) :
    ∃ e', after = some e' ∧ hl.Under e e' := by
  cases new with
  | none =>
    have he := he.resolve_right (by simp)
    exact ⟨e, (show after = old from h).trans he, hl.under_refl (hold e he)⟩
  | some x =>
    cases old with
    | none =>
      have he := he.resolve_left (by simp)
      exact ⟨e, (show after = some x from h).trans he, hl.under_refl (hnew e he)⟩
    | some o =>
      obtain ⟨e', he', rfl, hsame⟩ := h
      have hoD := hold o rfl
      have hxD := hnew x rfl
      have hmerged : hl.Under (join o x) e' :=
        hl.under_of_same (hl.closed hoD hxD) he' (hl.symm he' (hl.closed hoD hxD) hsame)
      refine ⟨e', rfl, ?_⟩
      rcases he with he | he
      · rw [← some.inj he]
        exact (hl.under_merge_left hoD hxD).trans hmerged
      · rw [← some.inj he]
        exact (hl.under_merge_right hoD hxD).trans hmerged

section Invariant

variable {ι : Type} {cfg : MeshSchema ι}
  {D : Text → Text → Text → Set ColumnEntry}
  {join : Text → Text → Text → ColumnEntry → ColumnEntry → ColumnEntry}
  (hm : ∀ table rowId col, MergesBy cfg.schema table rowId col (D table rowId col)
    (join table rowId col))

/-- What is known of the devices and the ops.  Entries are merged from what was written.  In a
column `C` that absorbs what it replaces, a device holds at least what the ops hold that it has
seen, and everything that was written is in some op. -/
structure PutMesh.Sound (C : Text → Text → Prop) (m : PutMesh ι) : Prop where
  rows : ∀ i table rowId row, rowAt (m.tables i) table rowId = some row →
    LiveRow table rowId row
  upserts : ∀ op ∈ m.published, op.IsUpsert
  names : ∀ op ∈ m.published, op.table ∉ inheritedNames ∧ op.rowId ∉ inheritedNames
  held : ∀ i table rowId col e, columnOf (m.tables i) table rowId col = some e →
    (hm table rowId col).lawful.Within { x | x ∈ m.entriesAt table rowId col } e
  sent : ∀ op ∈ m.published, ∀ col e, op.entryAt col = some e →
    (hm op.table op.rowId col).lawful.Within { x | x ∈ m.entriesAt op.table op.rowId col } e
  known : ∀ i n op, n ∈ m.seen i → m.published[n]? = some op → ∀ col, C op.table col →
    ∀ e, op.entryAt col = some e → ∃ e', columnOf (m.tables i) op.table op.rowId col = some e' ∧
      (hm op.table op.rowId col).lawful.Under e e'
  carried : ∀ table rowId col, ∀ x ∈ m.entriesAt table rowId col,
    ∃ (n : ℕ) (op : Op) (e : ColumnEntry), m.published[n]? = some op ∧ op.table = table ∧
      op.rowId = rowId ∧ op.entryAt col = some e ∧ (hm table rowId col).lawful.Under x e
  seen : ∀ i n, n ∈ m.seen i → n < m.published.length

variable {hm}

theorem PutMesh.sound_start (C : Text → Text → Prop) : (PutMesh.start ι).Sound hm C := by
  have hnone : ∀ table rowId, rowAt (∅ : Tables) table rowId = none := by
    intro table rowId
    rw [rowAt, Record.get_empty]
    rfl
  constructor
  · intro i table rowId row hrow
    exact absurd ((hnone table rowId).symm.trans hrow) (by simp)
  · intro op hop
    exact absurd hop (by simp [PutMesh.start])
  · intro op hop
    exact absurd hop (by simp [PutMesh.start])
  · intro i table rowId col e he
    rw [columnOf, show (PutMesh.start ι).tables i = ∅ from rfl, hnone] at he
    exact absurd he (by simp)
  · intro op hop
    exact absurd hop (by simp [PutMesh.start])
  · intro i n op hn
    exact absurd hn (by simp [PutMesh.start])
  · intro table rowId col x hx
    exact absurd hx (by simp [PutMesh.start, PutMesh.entriesAt])
  · intro i n hn
    exact absurd hn (by simp [PutMesh.start])

variable (hm) in
/-- What a step may make of the tables of one device, with the entries written so far: the rows are
live, the columns are merged from what was written, and those in `C` do not go back. -/
structure Advances (C : Text → Text → Prop) (entries : Text → Text → Text → List ColumnEntry)
    (tables tables' : Tables) : Prop where
  rows : ∀ table rowId row, rowAt tables' table rowId = some row → LiveRow table rowId row
  held : ∀ table rowId col e, columnOf tables' table rowId col = some e →
    (hm table rowId col).lawful.Within { x | x ∈ entries table rowId col } e
  grows : ∀ table rowId col, C table col → ∀ e, columnOf tables table rowId col = some e →
    ∃ e', columnOf tables' table rowId col = some e' ∧
      (hm table rowId col).lawful.Under e e'

variable {C : Text → Text → Prop} {m : PutMesh ι}

/-- The published ops are ordinary: nothing was written to a column `__proto__`. -/
theorem PutMesh.Sound.ordinary (h : m.Sound hm C) {op : Op} (hop : op ∈ m.published) :
    op.Ordinary := by
  obtain ⟨htable, hrowId⟩ := h.names op hop
  refine ⟨htable, hrowId, fun hmem => ?_⟩
  have hentry : ∃ e, op.entryAt protoName = some e := by
    cases op with
    | delete _ _ _ => exact absurd hmem not_mem_nil
    | upsert _ _ columns => exact Record.mem_keys_iff.1 hmem
  obtain ⟨e, he⟩ := hentry
  obtain ⟨x, hx⟩ := (h.sent op hop protoName e he).nonempty
  obtain ⟨call, -, hcall⟩ := mem_filterMap.1 hx
  exact absurd ((call.entryAt_proto op.table op.rowId).symm.trans hcall) (by simp)

theorem PutMesh.Sound.advances_applyOp (h : m.Sound hm C) (i : ι) {op : Op} (hop : op ∈ m.published) :
    ∃ res tables', PlainKeys.applyOp (tablesOf (m.tables i)) op cfg.schemaVersion cfg.schema =
        .ok (res, tablesOf tables') ∧
      Advances hm C m.entriesAt (m.tables i) tables' ∧
      ∀ col e, op.entryAt col = some e → ∃ e', columnOf tables' op.table op.rowId col = some e' ∧
        (hm op.table op.rowId col).lawful.Under e e' := by
  have hordinary := h.ordinary hop
  have hup := h.upserts op hop
  have hsent := h.sent op hop
  cases op with
  | delete _ _ _ => exact absurd hup id
  | upsert t r columns =>
    have hD : ∀ col e, columns.get col = some e → e ∈ D t r col := fun col e he =>
      (hsent col e he).mem
    have hheld : ∀ col e, columnOf (m.tables i) t r col = some e → e ∈ D t r col :=
      fun col e he => (h.held i t r col e he).mem
    obtain ⟨res, tables', row, hap, hrow, hmeta, htakes, hother⟩ := applyOp_takes (hm t r)
      (fun row hrow => (h.rows i t r row hrow).deleted)
      (fun row col e hrow he => hheld col e (by rw [columnOf, hrow]; exact he)) hD
      cfg.schemaVersion
    have htakes' : ∀ col, Takes (D t r col) (join t r col) (columnOf (m.tables i) t r col)
        (columns.get col) (columnOf tables' t r col) := by
      intro col
      rw [columnOf, columnOf, hrow]
      exact htakes col
    have hframe : ∀ t' r' col, ¬ (t = t' ∧ r = r') →
        columnOf tables' t' r' col = columnOf (m.tables i) t' r' col := by
      intro t' r' col hne
      rw [columnOf, hother t' r' hne, columnOf]
    refine ⟨res.map PlainKeys.Row.ofMap, tables', ?_, ⟨?_, ?_, ?_⟩, ?_⟩
    · rw [PlainKeys.applyOp_eq hordinary, hap]
      rfl
    · intro table rowId row' hrow'
      by_cases haddr : t = table ∧ r = rowId
      · obtain ⟨rfl, rfl⟩ := haddr
        obtain rfl := some.inj (hrow.symm.trans hrow')
        have hstart : LiveRow t r
            ((rowAt (m.tables i) t r).getD (blankRow t r cfg.schemaVersion false none)) := by
          cases hold : rowAt (m.tables i) t r with
          | none => exact ⟨rfl, rfl, rfl⟩
          | some old => exact h.rows i t r old hold
        exact ⟨by rw [hmeta]; exact hstart.table, by rw [hmeta]; exact hstart.rowId,
          by rw [hmeta]; exact hstart.deleted⟩
      · rw [hother table rowId haddr] at hrow'
        exact h.rows i table rowId row' hrow'
    · intro table rowId col e he
      by_cases haddr : t = table ∧ r = rowId
      · obtain ⟨rfl, rfl⟩ := haddr
        have htake := htakes' col
        rw [he] at htake
        cases hc : columns.get col with
        | none =>
          rw [hc] at htake
          exact h.held i t r col e htake.symm
        | some x =>
          rw [hc] at htake
          cases hold : columnOf (m.tables i) t r col with
          | none =>
            rw [hold] at htake
            rw [some.inj htake]
            exact hsent col x hc
          | some old =>
            rw [hold] at htake
            obtain ⟨e', he', heq, hsame⟩ := htake
            obtain rfl := some.inj heq
            exact (h.held i t r col old hold).merge_same (hsent col x hc) he' hsame
      · rw [hframe table rowId col haddr] at he
        exact h.held i table rowId col e he
    · intro table rowId col _ e he
      by_cases haddr : t = table ∧ r = rowId
      · obtain ⟨rfl, rfl⟩ := haddr
        exact under_of_takes _ (htakes' col) (hheld col) (hD col) (.inl he)
      · rw [hframe table rowId col haddr]
        exact ⟨e, he, (hm table rowId col).lawful.under_refl (h.held i table rowId col e he).mem⟩
    · intro col e he
      exact under_of_takes _ (htakes' col) (hheld col) (hD col) (.inr he)

variable [DecidableEq ι]

/-- What a put does to the tables of a device, if it absorbs what it replaces in the columns
`C`. -/
theorem PutMesh.Sound.advances_put (h : m.Sound hm C) (i : ι) {call : PutCall}
    (hD : ∀ col x, call.entryAt call.table call.rowId col = some x →
      x ∈ D call.table call.rowId col)
    (habsorbs : ∀ col, C call.table col →
      ∀ old new, columnOf (m.tables i) call.table call.rowId col = some old →
      call.entryAt call.table call.rowId col = some new →
      (hm call.table call.rowId col).lawful.Under old new) :
    Advances hm C (m.step cfg (.put i call)).entriesAt (m.tables i)
      (setRow (m.tables i) call.table call.rowId (m.rowOf cfg i call)) := by
  have hlive := fun row hrow => h.rows i call.table call.rowId row hrow
  have hself : ∀ col, columnOf (setRow (m.tables i) call.table call.rowId (m.rowOf cfg i call))
      call.table call.rowId col = (call.entryAt call.table call.rowId col).or
        (columnOf (m.tables i) call.table call.rowId col) := by
    intro col
    rw [columnOf, rowAt_setRow, if_pos ⟨rfl, rfl⟩, bind_some, PutMesh.rowOf,
      get_rowOver call hlive, columnOf]
  have hframe : ∀ t r col, ¬ (call.table = t ∧ call.rowId = r) →
      columnOf (setRow (m.tables i) call.table call.rowId (m.rowOf cfg i call)) t r col =
        columnOf (m.tables i) t r col := by
    intro t r col hne
    rw [columnOf, rowAt_setRow, if_neg hne, columnOf]
  constructor
  · intro table rowId row hrow
    rw [rowAt_setRow] at hrow
    split_ifs at hrow with haddr
    · obtain ⟨rfl, rfl⟩ := haddr
      rw [← some.inj hrow]
      exact liveRow_rowOver call hlive _ _
    · exact h.rows i table rowId row hrow
  · intro table rowId col e he
    by_cases haddr : call.table = table ∧ call.rowId = rowId
    · obtain ⟨rfl, rfl⟩ := haddr
      rw [hself] at he
      cases hx : call.entryAt call.table call.rowId col with
      | none =>
        rw [hx, none_or] at he
        exact (h.held i _ _ col e he).mono (PutMesh.entries_subset cfg m i call _ _ col)
      | some x =>
        rw [hx, some_or] at he
        rw [← some.inj he]
        refine (hm _ _ col).lawful.within_of_mem (hD col x hx) ?_
        show x ∈ (m.step cfg (.put i call)).entriesAt call.table call.rowId col
        rw [PutMesh.entriesAt_step, hx]
        exact mem_append_right _ (mem_singleton_self x)
    · rw [hframe table rowId col haddr] at he
      exact (h.held i table rowId col e he).mono (PutMesh.entries_subset cfg m i call _ _ col)
  · intro table rowId col hC e he
    by_cases haddr : call.table = table ∧ call.rowId = rowId
    · obtain ⟨rfl, rfl⟩ := haddr
      rw [hself]
      cases hx : call.entryAt call.table call.rowId col with
      | none =>
        rw [none_or]
        exact ⟨e, he, (hm _ _ col).lawful.under_refl (h.held i _ _ col e he).mem⟩
      | some x => exact ⟨x, rfl, habsorbs col hC e x he hx⟩
    · rw [hframe table rowId col haddr]
      exact ⟨e, he, (hm table rowId col).lawful.under_refl (h.held i table rowId col e he).mem⟩

/-- **A pull raises nothing and keeps the invariant.** -/
theorem PutMesh.Sound.pull (h : m.Sound hm C) (i : ι) {n : ℕ} {op : Op}
    (hn : m.published[n]? = some op) : (m.step cfg (.pull i n)).Sound hm C := by
  obtain ⟨res, tables', hap, hadv, hin⟩ := h.advances_applyOp i (mem_of_getElem? hn)
  have hstep : m.step cfg (.pull i n) =
      { m with
        tables := update m.tables i tables'
        seen := update m.seen i (m.seen i ++ [n]) } := by
    simp only [PutMesh.step, hn, hap, mapsOf_tablesOf]
  rw [hstep]
  constructor
  · intro j table rowId row hrow
    by_cases hj : j = i
    · subst hj
      simp only [update_self] at hrow
      exact hadv.rows table rowId row hrow
    · simp only [update_of_ne hj] at hrow
      exact h.rows j table rowId row hrow
  · exact h.upserts
  · exact h.names
  · intro j table rowId col e he
    by_cases hj : j = i
    · subst hj
      simp only [update_self] at he
      exact hadv.held table rowId col e he
    · simp only [update_of_ne hj] at he
      exact h.held j table rowId col e he
  · exact h.sent
  · intro j k op' hk hop' col hC e he
    by_cases hj : j = i
    · subst hj
      simp only [update_self] at hk ⊢
      rcases mem_append.1 hk with hk | hk
      · obtain ⟨e', he', hunder⟩ := h.known j k op' hk hop' col hC e he
        obtain ⟨e'', he'', hunder'⟩ := hadv.grows op'.table op'.rowId col hC e' he'
        exact ⟨e'', he'', hunder.trans hunder'⟩
      · rw [mem_singleton.1 hk] at hop'
        obtain rfl := some.inj (hn.symm.trans hop')
        exact hin col e he
    · simp only [update_of_ne hj] at hk ⊢
      exact h.known j k op' hk hop' col hC e he
  · exact h.carried
  · intro j k hk
    by_cases hj : j = i
    · subst hj
      simp only [update_self] at hk
      rcases mem_append.1 hk with hk | hk
      · exact h.seen j k hk
      · rw [mem_singleton.1 hk]
        exact (List.getElem?_eq_some_iff.1 hn).1
    · simp only [update_of_ne hj] at hk
      exact h.seen j k hk

/-- **A put that absorbs what it replaces keeps the invariant.** -/
theorem PutMesh.Sound.put (h : m.Sound hm C) (i : ι) {call : PutCall}
    (hnames : call.Ordinary cfg.schema)
    (hstamped : ∀ table rowId col, ∀ e ∈ D table rowId col, e.hlc ≠ [])
    (hD : ∀ col x, call.entryAt call.table call.rowId col = some x →
      x ∈ D call.table call.rowId col)
    (habsorbs : ∀ col, C call.table col →
      ∀ old new, columnOf (m.tables i) call.table call.rowId col = some old →
      call.entryAt call.table call.rowId col = some new →
      (hm call.table call.rowId col).lawful.Under old new) :
    (m.step cfg (.put i call)).Sound hm C := by
  have hadv := h.advances_put i hD habsorbs
  -- the row that is stored, and the op that is published for it
  have hstored : rowAt (setRow (m.tables i) call.table call.rowId (m.rowOf cfg i call)) call.table
      call.rowId = some (m.rowOf cfg i call) := by
    rw [rowAt_setRow, if_pos ⟨rfl, rfl⟩]
  have hcolumn : ∀ col, columnOf
      (setRow (m.tables i) call.table call.rowId (m.rowOf cfg i call)) call.table call.rowId col =
      (m.rowOf cfg i call).payload.get col := by
    intro col
    rw [columnOf, hstored]
    rfl
  have hop := opOf_eq (hadv.rows _ _ _ hstored) fun col e he =>
    hstamped _ _ col e (hadv.held _ _ col e ((hcolumn col).trans he)).mem
  have hpub : ∀ op, PutMesh.opOf (m.rowOf cfg i call) = some op →
      op = .upsert call.table call.rowId (m.rowOf cfg i call).payload := by
    intro op hsome
    rw [hop] at hsome
    split_ifs at hsome
    exact (some.inj hsome).symm
  have hold : ∀ {k : ℕ} {op : Op}, k < m.published.length →
      (m.published ++ (PutMesh.opOf (m.rowOf cfg i call)).toList)[k]? = some op →
      m.published[k]? = some op := by
    intro k op hk hget
    rwa [List.getElem?_append_left hk] at hget
  constructor
  · intro j table rowId row hrow
    by_cases hj : j = i
    · subst hj
      simp only [PutMesh.step, update_self] at hrow
      exact hadv.rows table rowId row hrow
    · simp only [PutMesh.step, update_of_ne hj] at hrow
      exact h.rows j table rowId row hrow
  · intro op hmem
    rcases mem_append.1 hmem with hmem | hmem
    · exact h.upserts op hmem
    · rw [hpub op (Option.mem_toList.1 hmem)]
      trivial
  · intro op hmem
    rcases mem_append.1 hmem with hmem | hmem
    · exact h.names op hmem
    · rw [hpub op (Option.mem_toList.1 hmem)]
      exact ⟨hnames.table, hnames.rowId⟩
  · intro j table rowId col e he
    by_cases hj : j = i
    · subst hj
      simp only [PutMesh.step, update_self] at he
      exact hadv.held table rowId col e he
    · simp only [PutMesh.step, update_of_ne hj] at he
      exact (h.held j table rowId col e he).mono (PutMesh.entries_subset cfg m i call _ _ col)
  · intro op hmem col e he
    rcases mem_append.1 hmem with hmem | hmem
    · exact (h.sent op hmem col e he).mono (PutMesh.entries_subset cfg m i call _ _ col)
    · rw [hpub op (Option.mem_toList.1 hmem)] at he ⊢
      exact hadv.held _ _ col e ((hcolumn col).trans he)
  · intro j k op hk hget col hC e he
    by_cases hj : j = i
    · subst hj
      simp only [PutMesh.step, update_self] at hk ⊢
      rcases mem_append.1 hk with hk | hk
      · have hget' := hold (h.seen j k hk) hget
        obtain ⟨e', he', hunder⟩ := h.known j k op hk hget' col hC e he
        obtain ⟨e'', he'', hunder'⟩ := hadv.grows op.table op.rowId col hC e' he'
        exact ⟨e'', he'', hunder.trans hunder'⟩
      · -- the op of this very put: the device holds its columns
        obtain ⟨op', hop', rfl⟩ := mem_map.1 hk
        have hlast : (m.published ++ (PutMesh.opOf (m.rowOf cfg j call)).toList)[
            m.published.length]? = some op := hget
        rw [List.getElem?_append_right le_rfl, Nat.sub_self, Option.mem_toList.1 hop'] at hlast
        obtain rfl : op' = op := some.inj hlast
        rw [hpub op' (Option.mem_toList.1 hop')] at he ⊢
        refine ⟨e, (hcolumn col).trans he, (hm _ _ col).lawful.under_refl ?_⟩
        exact (hadv.held _ _ col e ((hcolumn col).trans he)).mem
    · simp only [PutMesh.step, update_of_ne hj] at hk ⊢
      exact h.known j k op hk (hold (h.seen j k hk) hget) col hC e he
  · intro table rowId col x hx
    have hx' : x ∈ m.entriesAt table rowId col ++ (call.entryAt table rowId col).toList := by
      rw [← PutMesh.entriesAt_step cfg m i call]
      exact hx
    rcases mem_append.1 hx' with hx' | hx'
    · obtain ⟨n, op, e, hget, ht, hr, he, hunder⟩ := h.carried table rowId col x hx'
      refine ⟨n, op, e, ?_, ht, hr, he, hunder⟩
      exact (List.getElem?_append_left (List.getElem?_eq_some_iff.1 hget).1).trans hget
    · have hentry := Option.mem_toList.1 hx'
      obtain ⟨rfl, rfl⟩ := call.addr_of_entryAt hentry
      have hget : (m.rowOf cfg i call).payload.get col = some x := by
        rw [PutMesh.rowOf, get_rowOver call (fun row hrow => h.rows i _ _ row hrow), hentry]
        rfl
      have hne : (m.rowOf cfg i call).payload.entries ≠ [] := by
        intro hnil
        rw [Record.entries_eq_nil_iff] at hnil
        exact absurd (hget.symm.trans (hnil col)) (by simp)
      rw [if_neg hne] at hop
      refine ⟨m.published.length,
        .upsert call.table call.rowId (m.rowOf cfg i call).payload, x, ?_, rfl, rfl, hget,
        (hm _ _ col).lawful.under_refl (hD col x hentry)⟩
      show (m.published ++ (PutMesh.opOf (m.rowOf cfg i call)).toList)[m.published.length]? = _
      rw [List.getElem?_append_right le_rfl, Nat.sub_self, hop]
      rfl
  · intro j k hk
    show k < (m.published ++ (PutMesh.opOf (m.rowOf cfg i call)).toList).length
    rw [length_append]
    by_cases hj : j = i
    · subst hj
      simp only [PutMesh.step, update_self] at hk
      rcases mem_append.1 hk with hk | hk
      · exact Nat.lt_add_right _ (h.seen j k hk)
      · obtain ⟨op', hop', rfl⟩ := mem_map.1 hk
        exact Nat.lt_add_of_pos_right (length_pos_of_mem hop')
    · simp only [PutMesh.step, update_of_ne hj] at hk
      exact Nat.lt_add_right _ (h.seen j k hk)

/-- The entries of the calls are in `D`. -/
def PutMesh.WritesIn (D : Text → Text → Text → Set ColumnEntry) (m : PutMesh ι) : Prop :=
  ∀ table rowId col, { x | x ∈ m.entriesAt table rowId col } ⊆ D table rowId col

theorem PutMesh.step_pull_entriesAt (m : PutMesh ι) (i : ι) (n : ℕ) :
    (m.step cfg (.pull i n)).entriesAt = m.entriesAt := by
  simp only [PutMesh.step]
  split
  · rfl
  · split
    · rfl
    · rfl

theorem PutMesh.writesIn_of_run {events : List (PutEvent ι)} (h : (m.run cfg events).WritesIn D) :
    m.WritesIn D := by
  induction events generalizing m with
  | nil => exact h
  | cons e events ih =>
    have hnext : (m.step cfg e).WritesIn D := ih h
    intro table rowId col
    cases e with
    | put i call =>
      exact (PutMesh.entries_subset cfg m i call table rowId col).trans (hnext table rowId col)
    | pull i n =>
      have hsub := hnext table rowId col
      rw [PutMesh.step_pull_entriesAt] at hsub
      exact hsub

/-- **A whole run.** -/
theorem PutMesh.Sound.run (h : m.Sound hm C)
    (hstamped : ∀ table rowId col, ∀ e ∈ D table rowId col, e.hlc ≠ [])
    (hjoin : ∀ table rowId col merge, declaredStrategy cfg.schema table col = .custom merge →
      join table rowId col = fun a b => merge a b ⟨table, rowId, col⟩)
    (hcustom : ∀ table col, C table col →
      ∃ merge, declaredStrategy cfg.schema table col = .custom merge)
    {events : List (PutEvent ι)}
    (hnames : ∀ i call, .put i call ∈ events → PutCall.Ordinary cfg.schema call)
    (habsorbing : m.Absorbing cfg events) (hwrites : (m.run cfg events).WritesIn D) :
    (m.run cfg events).Sound hm C := by
  induction events generalizing m with
  | nil => exact h
  | cons e events ih =>
    cases e with
    | put i call =>
      obtain ⟨habsorbs, hrest⟩ := habsorbing
      have hnext : (m.step cfg (.put i call)).WritesIn D := PutMesh.writesIn_of_run hwrites
      have hD : ∀ col x, call.entryAt call.table call.rowId col = some x →
          x ∈ D call.table call.rowId col := by
        intro col x hx
        refine hnext call.table call.rowId col ?_
        show x ∈ (m.step cfg (.put i call)).entriesAt call.table call.rowId col
        rw [PutMesh.entriesAt_step, hx]
        exact mem_append_right _ (mem_singleton_self x)
      refine ih (h.put i (hnames i call mem_cons_self) hstamped hD ?_)
        (fun j call' hmem => hnames j call' (mem_cons_of_mem _ hmem)) hrest hwrites
      intro col hCcol old new hold hnew
      obtain ⟨merge, hres⟩ := hcustom call.table col hCcol
      have hmerge := habsorbs col merge old new hres hold hnew
      refine ((hm _ _ col).lawful.under_iff (h.held i _ _ col old hold).mem (hD col new hnew)).2 ?_
      rw [hjoin call.table call.rowId col merge hres]
      exact hmerge
    | pull i n =>
      refine ih ?_ (fun j call' hmem => hnames j call' (mem_cons_of_mem _ hmem)) habsorbing hwrites
      cases hn : m.published[n]? with
      | none =>
        have hsame : m.step cfg (.pull i n) = m := by
          simp only [PutMesh.step, hn]
        rw [hsame]
        exact h
      | some op => exact h.pull i hn

end Invariant

/-! ## Convergence -/

end Interocitor
