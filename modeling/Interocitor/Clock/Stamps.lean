import Interocitor.Core.SyncEngine

/-!
# Where the stamps of a row come from

Every stamp in a row was put there by a local write, by a merged change or by a
snapshot.  This file follows the stamps through the merge: `mem_stamps_applyToRow`
for one op, `mem_stamps_mergeEntry` for a change entry and `mem_stamps_replacedStore`
for a snapshot.  A custom merge function could invent a stamp; `StampKeeping` says
that it returns one of the two it was given, or none.  None is what `toString` returns,
which `resolveStrategy` finds in every object of field strategies.

`getRowHlc_spec` is about the other direction: the stamp under which a row is
published is the latest of its stamps.
-/

namespace Interocitor

open CodeUnits OrderedRecord HybridClock List Option

/-! ## The stamps of rows, entries and snapshots -/

/-- The stamps in a row: of its tombstone and of the columns that have one. -/
def Row.stamps (row : Row) : List Text :=
  row._meta.deletedHlc.toList ++
    (row.payload.values.map ColumnEntry.hlc).filter fun t => decide (t ≠ [])

/-- The stamps in the ops of an entry. -/
def ChangeEntry.stamps (entry : ChangeEntry) : List Text := entry.ops.flatMap Op.stamps

/-- The stamps in the rows of a snapshot. -/
def Snapshot.stamps (snapshot : Snapshot) : List Text :=
  (snapshot.tables.values.flatMap fun rows => rows.values).flatMap Row.stamps

/-- A stamp occurs in the rows of a store. -/
def LocalStore.HasStamp (store : LocalStore) (t : Text) : Prop :=
  ∃ key row, store.rows.get key = some row ∧ t ∈ row.stamps

theorem mem_stamps_row {row : Row} {t : Text} :
    t ∈ row.stamps ↔ row._meta.deletedHlc = some t ∨
      ∃ col entry, row.payload.get col = some entry ∧ entry.hlc = t ∧ entry.hlc ≠ [] := by
  rw [Row.stamps, mem_append, Option.mem_toList, mem_filter, List.mem_map, decide_eq_true_eq]
  constructor
  · rintro (h | ⟨⟨entry, he, rfl⟩, hne⟩)
    · exact .inl h
    · obtain ⟨col, hcol⟩ := Record.mem_values_iff.mp he
      exact .inr ⟨col, entry, hcol, rfl, hne⟩
  · rintro (h | ⟨col, entry, hcol, rfl, hne⟩)
    · exact .inl h
    · exact .inr ⟨⟨entry, Record.mem_values_iff.mpr ⟨col, hcol⟩, rfl⟩, hne⟩

/-- The custom merge functions of a schema return one of the two stamps, or none. -/
def StampKeeping (schema : Option DatabaseSchemaDefinition) : Prop :=
  ∀ table field merge, resolveStrategy schema table field = .ok (.custom merge) →
    ∀ old incoming context, (merge old incoming context).hlc = old.hlc ∨
      (merge old incoming context).hlc = incoming.hlc ∨ (merge old incoming context).hlc = []

theorem stampKeeping_none : StampKeeping none := by
  intro table field merge h
  exact absurd (Except.ok.inj h) (by simp)

/-! ## Through the merge -/

section Merge

variable {schema : Option DatabaseSchemaDefinition} {table rowId : Text} {v : ℕ}

/-- The stamp of an entry, if it has one, has the property. -/
def StampIs (P : Text → Prop) (e : ColumnEntry) : Prop := e.hlc ≠ [] → P e.hlc

/-- The stamp of the tombstone has the one property, and the columns have the other. -/
structure Row.Has (P : Text → Prop) (Q : ColumnEntry → Prop) (row : Row) : Prop where
  deleted : ∀ t, row._meta.deletedHlc = some t → P t
  columns : ∀ col entry, row.payload.get col = some entry → Q entry

/-- The stamp of a delete has the one property, and the columns of an upsert have the other. -/
def Op.Has (P : Text → Prop) (Q : ColumnEntry → Prop) : Op → Prop
  | .delete _ _ hlc => P hlc
  | .upsert _ _ columns => ∀ entry ∈ columns.values, Q entry

/-- The columns of an op are among the given ones. -/
def Op.Within (F : Text → Text → Prop) (op : Op) : Prop := ∀ col ∈ op.columnNames, F op.table col

/-- The custom merge functions of a schema keep a property of entries, in the given columns. -/
def MergesKeep (F : Text → Text → Prop) (Q : ColumnEntry → Prop)
    (schema : Option DatabaseSchemaDefinition) : Prop :=
  ∀ table field merge, F table field → resolveStrategy schema table field = .ok (.custom merge) →
    ∀ old incoming context, Q old → Q incoming → Q (merge old incoming context)

theorem StampKeeping.mergesKeep (h : StampKeeping schema) (F : Text → Text → Prop)
    (P : Text → Prop) : MergesKeep F (StampIs P) schema := by
  intro table field merge _ hres old incoming context hold hin hne
  rcases h table field merge hres old incoming context with hm | hm | hm
  · rw [hm] at hne ⊢
    exact hold hne
  · rw [hm] at hne ⊢
    exact hin hne
  · exact absurd hm hne

theorem mergesKeep_none (F : Text → Text → Prop) (Q : ColumnEntry → Prop) :
    MergesKeep F Q none := by
  intro table field merge _ h
  exact absurd (Except.ok.inj h) (by simp)

variable {P : Text → Prop} {row : Row}

theorem Row.has_stampIs : row.Has P (StampIs P) ↔ ∀ t ∈ row.stamps, P t := by
  constructor
  · intro h t ht
    rcases mem_stamps_row.mp ht with hd | ⟨col, entry, hget, rfl, hne⟩
    · exact h.deleted t hd
    · exact h.columns col entry hget hne
  · intro h
    exact ⟨fun t ht => h t (mem_stamps_row.mpr (.inl ht)), fun col entry hget hne =>
      h _ (mem_stamps_row.mpr (.inr ⟨col, entry, hget, rfl, hne⟩))⟩

theorem Op.has_stampIs {op : Op} (h : ∀ t ∈ op.stamps, P t) : op.Has P (StampIs P) := by
  cases op with
  | delete table rowId hlc => exact h hlc (mem_singleton_self hlc)
  | upsert table rowId columns =>
    exact fun entry hentry _ => h _ (List.mem_map.mpr ⟨entry, hentry, rfl⟩)

section Keeps

variable {F : Text → Text → Prop} {P : Text → Prop} {Q : ColumnEntry → Prop}

theorem keeps_mergeColumn {existing : Option ColumnEntry} {incoming winner : ColumnEntry}
    {strategy : MergeStrategy} {field : Text}
    (hs : ∀ merge, strategy = .custom merge → ∀ old incoming context,
      Q old → Q incoming → Q (merge old incoming context))
    (hold : ∀ old, existing = some old → Q old) (hin : Q incoming)
    (h : mergeColumn existing incoming strategy table rowId field = .ok (some winner)) :
    Q winner := by
  have hincoming : ∀ {x : Except MergeError (Option ColumnEntry)}, x = .ok (some incoming) →
      x = .ok (some winner) → Q winner := by
    rintro x rfl hx
    rw [← some.inj (Except.ok.inj hx)]
    exact hin
  cases existing with
  | none => exact hincoming rfl h
  | some old =>
    simp only [mergeColumn] at h
    split at h
    · exact hincoming rfl h
    · split at h
      · rename_i merge
        split at h
        · obtain rfl := some.inj (Except.ok.inj h)
          exact hs merge rfl old incoming ⟨table, rowId, field⟩ (hold old rfl) hin
        · exact absurd (Except.ok.inj h) (by simp)
      · exact absurd h (by simp)
      · split at h
        · exact hincoming rfl h
        · split at h
          · exact absurd (Except.ok.inj h) (by simp)
          · split at h
            · exact absurd (Except.ok.inj h) (by simp)
            · exact absurd h (by simp)

theorem keeps_applyColumns (hs : MergesKeep F Q schema) {cols : List (Text × ColumnEntry)}
    {payload payload' : Record Text ColumnEntry} {changed changed' : Bool}
    (hpayload : ∀ col old, payload.get col = some old → Q old)
    (hcols : ∀ p ∈ cols, F table p.1 ∧ Q p.2)
    (h : applyColumns schema table rowId cols payload changed = .ok (payload', changed')) :
    ∀ col entry, payload'.get col = some entry → Q entry := by
  induction cols generalizing payload changed with
  | nil =>
    obtain ⟨rfl, -⟩ := Prod.mk.inj (Except.ok.inj h)
    exact hpayload
  | cons p cols ih =>
    obtain ⟨name, incoming⟩ := p
    rw [forall_mem_cons] at hcols
    rw [applyColumns] at h
    split at h
    · exact absurd h (by simp)
    · rename_i strategy hstrategy
      split at h
      · exact absurd h (by simp)
      · exact ih hpayload hcols.2 h
      · rename_i winner hwinner
        refine ih (fun col old hget => ?_) hcols.2 h
        rw [Record.get_set] at hget
        split_ifs at hget with hname
        · obtain rfl := some.inj hget
          exact keeps_mergeColumn (fun merge hm => hs table name merge hcols.1.1 (hm ▸ hstrategy))
            (hpayload name) hcols.1.2 hwinner
        · exact hpayload col old hget

theorem has_applyDelete {existing : Option Row} {hlc : Text} {row : Row} (hop : P hlc)
    (h : applyDelete existing table rowId hlc v = some row) : row.Has P Q := by
  have hdead : row._meta.deletedHlc = some hlc ∧ row.payload = ∅ := by
    cases existing with
    | none =>
      obtain rfl := some.inj h
      exact ⟨rfl, rfl⟩
    | some old =>
      simp only [applyDelete] at h
      split_ifs at h
      obtain rfl := some.inj h
      exact ⟨rfl, rfl⟩
  refine ⟨fun t ht => ?_, fun col entry hget => ?_⟩
  · rw [← some.inj (hdead.1.symm.trans ht)]
    exact hop
  · rw [hdead.2] at hget
    exact absurd hget (by simp)

/-- **What holds of a row and of an op holds of the merged row.** -/
theorem keeps_applyToRow (hs : MergesKeep F Q schema) {existing : Option Row} {op : Op} {row : Row}
    (hold : ∀ old, existing = some old → old.Has P Q) (hop : op.Has P Q) (hin : op.Within F)
    (h : applyToRow existing op v schema = .ok (some row)) : row.Has P Q := by
  cases op with
  | delete table rowId hlc => exact has_applyDelete hop (Except.ok.inj h)
  | upsert table rowId columns =>
    have hcolumns : ∀ p ∈ columns.entries, F table p.1 ∧ Q p.2 := fun p hp =>
      ⟨hin p.1 (List.mem_map.mpr ⟨p, hp, rfl⟩), hop p.2 (List.mem_map.mpr ⟨p, hp, rfl⟩)⟩
    simp only [applyToRow, applyUpsert] at h
    split at h
    · split_ifs at h with hempty
      · exact absurd (Except.ok.inj h) (by simp)
      · split at h
        · exact absurd h (by simp)
        · rename_i payload' changed' happly
          obtain rfl := some.inj (Except.ok.inj h)
          refine ⟨fun t ht => absurd ht (by simp), ?_⟩
          exact keeps_applyColumns hs (fun col old hget => absurd hget (by simp))
            (fun p hp => hcolumns p (mem_filter.mp hp).1) happly
    · split at h
      · exact absurd h (by simp)
      · rename_i payload' changed' happly
        split_ifs at h with hchanged
        · obtain rfl := some.inj (Except.ok.inj h)
          have hbase : (existing.getD (blankRow table rowId v false none)).Has P Q := by
            cases existing with
            | none => exact ⟨fun t ht => absurd ht (by simp [blankRow]), fun col entry hget =>
                absurd hget (by simp [blankRow])⟩
            | some old => exact hold old rfl
          exact ⟨hbase.deleted, keeps_applyColumns hs hbase.columns hcolumns happly⟩
        · exact absurd (Except.ok.inj h) (by simp)

theorem keeps_applyOp (hs : MergesKeep F Q schema) {tables tables' : Tables} {op : Op}
    {res : Option Row} (hold : ∀ tb r old, rowAt tables tb r = some old → old.Has P Q)
    (hop : op.Has P Q) (hin : op.Within F) (h : applyOp tables op v schema = .ok (res, tables')) :
    (∀ row, res = some row → row.Has P Q) ∧
      ∀ tb r row, rowAt tables' tb r = some row → row.Has P Q := by
  have hres : ∀ row, res = some row → row.Has P Q := by
    rintro row rfl
    exact keeps_applyToRow hs (hold _ _) hop hin (rowAt_applyOp h [] []).1
  refine ⟨hres, fun tb r row hrow => ?_⟩
  rw [(rowAt_applyOp h tb r).2] at hrow
  split_ifs at hrow with haddressed
  · cases res with
    | none => exact hold tb r row hrow
    | some row' => exact hres row (congrArg some (some.inj hrow))
  · exact hold tb r row hrow

theorem keeps_applyOpsLoop (hs : MergesKeep F Q schema) {ops : List Op}
    {affected affected' : List Row} {tables tables' : Tables}
    (haffected : ∀ row ∈ affected, row.Has P Q)
    (hold : ∀ tb r old, rowAt tables tb r = some old → old.Has P Q)
    (hops : ∀ op ∈ ops, op.Has P Q ∧ op.Within F)
    (h : applyOpsLoop v schema ops affected tables = .ok (affected', tables')) :
    ∀ row ∈ affected', row.Has P Q := by
  induction ops generalizing affected tables with
  | nil =>
    obtain ⟨rfl, -⟩ := Prod.mk.inj (Except.ok.inj h)
    exact haffected
  | cons op ops ih =>
    rw [forall_mem_cons] at hops
    rw [applyOpsLoop] at h
    split at h
    · exact absurd h (by simp)
    · rename_i res tables₁ hop
      obtain ⟨hres, htables⟩ := keeps_applyOp hs hold hops.1.1 hops.1.2 hop
      refine ih (fun row hrow => ?_) htables hops.2 h
      rcases mem_append.mp hrow with hrow | hnew
      · exact haffected row hrow
      · exact hres row (Option.mem_toList.mp hnew)

end Keeps

variable {t : Text}

/-- **A merged row has no new stamps:** each comes from the op or from the row before. -/
theorem mem_stamps_applyToRow (hs : StampKeeping schema) {existing : Option Row} {op : Op}
    (h : applyToRow existing op v schema = .ok (some row)) (ht : t ∈ row.stamps) :
    t ∈ op.stamps ∨ ∃ old, existing = some old ∧ t ∈ old.stamps := by
  have hkept : row.Has (fun t => t ∈ op.stamps ∨ ∃ old, existing = some old ∧ t ∈ old.stamps) _ :=
    keeps_applyToRow (hs.mergesKeep (fun _ _ => True) _)
      (fun old hold => Row.has_stampIs.mpr fun _ ht => .inr ⟨old, hold, ht⟩)
      (Op.has_stampIs fun _ => .inl) (fun _ _ => trivial) h
  exact Row.has_stampIs.mp hkept t ht

/-- All rows of some tables are rows of the store. -/
def FromStore (store : LocalStore) (tables : Tables) : Prop :=
  ∀ tb r row, rowAt tables tb r = some row → ∃ key, store.rows.get key = some row

variable {store : LocalStore}

theorem fromStore_cacheRow {tables : Tables} (h : FromStore store tables) (op : Op) :
    FromStore store (cacheRow store tables op) := by
  intro tb r row hrow
  rw [cacheRow] at hrow
  split at hrow
  · rename_i row' hrow'
    by_cases htb : op.table = tb
    · subst htb
      rw [rowAt_set_self, Record.get_set] at hrow
      split_ifs at hrow
      · obtain rfl := some.inj hrow
        exact ⟨_, hrow'⟩
      · rw [rowAt_of_tables_get] at hrow
        exact h _ _ _ hrow
    · rw [rowAt_set_ne _ _ _ htb] at hrow
      exact h _ _ _ hrow
  · exact h _ _ _ hrow

theorem fromStore_cachedRows (store : LocalStore) (ops : List Op) :
    FromStore store (cachedRows store ops) := by
  suffices ∀ tables, FromStore store tables → FromStore store (ops.foldl (cacheRow store) tables)
    from this ∅ fun tb r row hrow => absurd hrow (by simp [rowAt])
  induction ops with
  | nil => exact fun tables h => h
  | cons op ops ih => exact fun tables h => ih _ (fromStore_cacheRow h op)

theorem get_putRows {rows : List Row} {key : Text}
    (h : (store.putRows rows).rows.get key = some row) :
    store.rows.get key = some row ∨ row ∈ rows := by
  induction rows generalizing store with
  | nil => exact .inl h
  | cons first rows ih =>
    rcases ih h with hstored | hin
    · change (store.rows.set (LocalStore.keyOf first) first).get key = some row at hstored
      rw [Record.get_set] at hstored
      split_ifs at hstored
      · obtain rfl := some.inj hstored
        exact .inr mem_cons_self
      · exact .inl hstored
    · exact .inr (mem_cons_of_mem _ hin)

theorem hasStamp_putRows {rows : List Row} (h : (store.putRows rows).HasStamp t) :
    store.HasStamp t ∨ ∃ row ∈ rows, t ∈ row.stamps := by
  obtain ⟨key, row, hget, ht⟩ := h
  rcases get_putRows hget with hstored | hin
  · exact .inl ⟨key, row, hstored, ht⟩
  · exact .inr ⟨row, hin, ht⟩

/-- **What holds of the rows of a store and of an entry holds after merging the entry.** -/
theorem keeps_mergeEntry {F : Text → Text → Prop} {Q : ColumnEntry → Prop}
    (hs : MergesKeep F Q schema) {store' : LocalStore} {entry : ChangeEntry}
    (hstore : ∀ key row, store.rows.get key = some row → row.Has P Q)
    (hentry : ∀ op ∈ entry.ops, op.Has P Q ∧ op.Within F)
    (h : mergeEntry store entry v schema = .ok store') :
    ∀ key row, store'.rows.get key = some row → row.Has P Q := by
  rw [mergeEntry] at h
  split at h
  · exact absurd h (by simp)
  · rename_i affected tables happly
    obtain rfl := Except.ok.inj h
    have hold : ∀ tb r old, rowAt (cachedRows store entry.ops) tb r = some old → old.Has P Q := by
      intro tb r old hget
      obtain ⟨key, hkey⟩ := fromStore_cachedRows _ _ _ _ _ hget
      exact hstore key old hkey
    intro key row hget
    rcases get_putRows hget with hstored | hin
    · exact hstore key row hstored
    · exact keeps_applyOpsLoop hs (fun row hrow => absurd hrow not_mem_nil) hold hentry happly
        row hin

/-- **Merging an entry brings in the stamps of the entry**, and no others. -/
theorem mem_stamps_mergeEntry (hs : StampKeeping schema) {store' : LocalStore} {entry : ChangeEntry}
    (h : mergeEntry store entry v schema = .ok store') (ht : store'.HasStamp t) :
    store.HasStamp t ∨ t ∈ entry.stamps := by
  obtain ⟨key, row, hget, ht⟩ := ht
  have hkept : row.Has (fun t => store.HasStamp t ∨ t ∈ entry.stamps) _ :=
    keeps_mergeEntry (hs.mergesKeep (fun _ _ => True) _)
      (fun key row hget => Row.has_stampIs.mpr fun t ht => .inl ⟨key, row, hget, ht⟩)
      (fun op hop => ⟨Op.has_stampIs fun t ht => .inr (mem_flatMap.mpr ⟨op, hop, ht⟩),
        fun _ _ => trivial⟩) h key row hget
  exact Row.has_stampIs.mp hkept t ht

theorem mem_stamps_replacedStore {preserved : PreservedMeta} {snapshot : Snapshot}
    (ht : (replacedStore preserved snapshot).HasStamp t) : t ∈ snapshot.stamps := by
  rcases hasStamp_putRows ht with ⟨key, row, hget, -⟩ | ⟨row, hrow, hmem⟩
  · exact absurd hget (by simp)
  · exact mem_flatMap.mpr ⟨row, hrow, hmem⟩

end Merge

/-! ## The stamp a row is published under -/

theorem getRowHlc_eq (row : Row) : getRowHlc row = [] ∨ getRowHlc row ∈ row.stamps := by
  have hloop : ∀ (entries : List ColumnEntry) (latest : Text),
      entries.foldl (fun latest entry =>
        if entry.hlc = [] then latest
        else if latest = [] ∨ isPos (hlcCompareStr entry.hlc latest) then entry.hlc
        else latest) latest = latest ∨
      entries.foldl (fun latest entry =>
        if entry.hlc = [] then latest
        else if latest = [] ∨ isPos (hlcCompareStr entry.hlc latest) then entry.hlc
        else latest) latest ∈ entries.map ColumnEntry.hlc := by
    intro entries
    induction entries with
    | nil => exact fun latest => .inl rfl
    | cons e entries ih =>
      intro latest
      rw [foldl_cons, map_cons, mem_cons]
      rcases ih (if e.hlc = [] then latest
        else if latest = [] ∨ isPos (hlcCompareStr e.hlc latest) then e.hlc else latest)
        with hsame | hmem
      · rw [hsame]
        split_ifs
        · exact .inl rfl
        · exact .inr (.inl rfl)
        · exact .inl rfl
      · exact .inr (.inr hmem)
  rcases hloop row.payload.values (row._meta.deletedHlc.getD []) with hsame | hmem
  · cases hd : row._meta.deletedHlc with
    | none =>
      left
      rw [getRowHlc, hsame, hd]
      rfl
    | some t =>
      right
      rw [getRowHlc, hsame, hd]
      exact mem_stamps_row.mpr (.inl hd)
  · by_cases hnil : getRowHlc row = []
    · exact .inl hnil
    · obtain ⟨e, he, heq⟩ := List.mem_map.mp hmem
      obtain ⟨col, hget⟩ := Record.mem_values_iff.mp he
      exact .inr (mem_stamps_row.mpr (.inr ⟨col, e, hget, heq, fun hn => hnil (heq.symm.trans hn)⟩))

/-- The loop of `getRowHlc`, on serialized stamps: the latest of them. -/
theorem getRowHlc_loop {entries : List ColumnEntry} {latest : Text}
    (hentries : ∀ e ∈ entries, StampIs Serialized e) (hlatest : latest = [] ∨ Serialized latest) :
    let result := entries.foldl (fun latest entry =>
      if entry.hlc = [] then latest
      else if latest = [] ∨ isPos (hlcCompareStr entry.hlc latest) then entry.hlc
      else latest) latest
    (result = latest ∧ (latest = [] → ∀ e ∈ entries, e.hlc = []) ∨
        result ≠ [] ∧ result ∈ entries.map ColumnEntry.hlc) ∧
      (latest ≠ [] → stampOf latest ≤ stampOf result) ∧
      ∀ e ∈ entries, e.hlc ≠ [] → stampOf e.hlc ≤ stampOf result := by
  induction entries generalizing latest with
  | nil =>
    exact ⟨.inl ⟨rfl, fun _ _ h => absurd h not_mem_nil⟩, fun _ => le_refl _,
      fun _ h => absurd h not_mem_nil⟩
  | cons e entries ih =>
    have htail : ∀ e' ∈ entries, StampIs Serialized e' := fun e' h' =>
      hentries e' (mem_cons_of_mem _ h')
    by_cases hnil : e.hlc = []
    · simp only [foldl_cons, if_pos hnil]
      obtain ⟨hmem, hle, hall⟩ := ih htail hlatest
      refine ⟨hmem.imp (fun h => ⟨h.1, fun hl => ?_⟩) fun h => ⟨h.1, mem_cons_of_mem _ h.2⟩,
        hle, fun e' he' hne => ?_⟩
      · exact forall_mem_cons.mpr ⟨hnil, h.2 hl⟩
      · exact hall e' ((mem_cons.mp he').resolve_left fun heq => hne (heq ▸ hnil)) hne
    have he : Serialized e.hlc := hentries e mem_cons_self hnil
    simp only [foldl_cons, if_neg hnil]
    by_cases htake : latest = [] ∨ isPos (hlcCompareStr e.hlc latest) = true
    · rw [if_pos htake]
      obtain ⟨hmem, hle, hall⟩ := ih htail (.inr he)
      have hself := hle hnil
      refine ⟨.inr ?_, fun hne => ?_, fun e' he' hne' => ?_⟩
      · rcases hmem with ⟨heq, -⟩ | ⟨hne, hmem⟩
        · rw [heq]
          exact ⟨hnil, mem_cons_self⟩
        · exact ⟨hne, mem_cons_of_mem _ hmem⟩
      · have hpos := htake.resolve_left hne
        have hlt := (he.isPos_compare (hlatest.resolve_left hne)).mp hpos
        exact hlt.le.trans hself
      · rcases mem_cons.mp he' with rfl | he'
        · exact hself
        · exact hall e' he' hne'
    · rw [if_neg htake]
      obtain ⟨hne, hpos⟩ := not_or.mp htake
      have hser := hlatest.resolve_left hne
      obtain ⟨hmem, hle, hall⟩ := ih htail hlatest
      have hself : stampOf e.hlc ≤ stampOf latest :=
        not_lt.mp fun hlt => hpos ((he.isPos_compare hser).mpr hlt)
      refine ⟨?_, hle, fun e' he' hne' => ?_⟩
      · rcases hmem with ⟨heq, -⟩ | ⟨hres, hmem⟩
        · exact .inl ⟨heq, fun hnil => absurd hnil hne⟩
        · exact .inr ⟨hres, mem_cons_of_mem _ hmem⟩
      rcases mem_cons.mp he' with rfl | he'
      · exact hself.trans (hle hne)
      · exact hall e' he' hne'

/-- **A row is published under its latest stamp.** -/
theorem getRowHlc_spec {row : Row} (h : ∀ t ∈ row.stamps, Serialized t) {t : Text}
    (ht : t ∈ row.stamps) : getRowHlc row ∈ row.stamps ∧ stampOf t ≤ stampOf (getRowHlc row) := by
  have hcolumn : ∀ e ∈ row.payload.values, e.hlc ≠ [] → e.hlc ∈ row.stamps := fun e he hne => by
    obtain ⟨col, hget⟩ := Record.mem_values_iff.mp he
    exact mem_stamps_row.mpr (.inr ⟨col, e, hget, rfl, hne⟩)
  have hentries : ∀ e ∈ row.payload.values, StampIs Serialized e := fun e he hne =>
    h e.hlc (hcolumn e he hne)
  have hdeleted : ∀ d, row._meta.deletedHlc = some d → Serialized d := fun d hd =>
    h d (mem_stamps_row.mpr (.inl hd))
  have hstart : row._meta.deletedHlc.getD [] = [] ∨ Serialized (row._meta.deletedHlc.getD []) := by
    cases hd : row._meta.deletedHlc with
    | none => exact .inl rfl
    | some d => exact .inr (hdeleted d hd)
  obtain ⟨hmem, hle, hall⟩ := getRowHlc_loop hentries hstart
  change getRowHlc row = _ ∧ _ ∨ getRowHlc row ≠ [] ∧ getRowHlc row ∈ _ at hmem
  change _ → _ ≤ stampOf (getRowHlc row) at hle
  refine ⟨?_, ?_⟩
  · rcases hmem with ⟨heq, hnil⟩ | ⟨hne, hmem⟩
    · cases hd : row._meta.deletedHlc with
      | some d =>
        rw [hd] at heq
        exact heq ▸ mem_stamps_row.mpr (.inl hd)
      | none =>
        -- then no column has a stamp either, and the row has no stamp at all
        have hcolumns := hnil (by rw [hd, getD_none])
        rcases mem_stamps_row.mp ht with hdel | ⟨col, e, hget, rfl, hne⟩
        · exact absurd (hd.symm.trans hdel) (by simp)
        · exact absurd (hcolumns e (Record.mem_values_iff.mpr ⟨col, hget⟩)) hne
    · obtain ⟨e, he, heq⟩ := List.mem_map.mp hmem
      exact heq ▸ hcolumn e he (heq ▸ hne)
  · rcases mem_stamps_row.mp ht with hd | ⟨col, e, hget, rfl, hne⟩
    · rw [hd, getD_some] at hle
      exact hle (hdeleted t hd).ne_nil
    · exact hall e (Record.mem_values_iff.mpr ⟨col, hget⟩) hne

end Interocitor
