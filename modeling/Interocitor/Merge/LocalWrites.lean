import Interocitor.Clock.Skew
import Interocitor.Merge.PlainKeys

/-!
# What a local write stores and what it publishes

`putNow` and `deleteNow` build the row they store by hand, and publish an op that they read off
the row.  The peers apply the op.  The two agree if applying the op to the row as it was before
the write gives the row that was stored --- as long as there is an op at all: a put without
columns may store a row for which there is nothing to publish.

`Held` are the rows that can be under a key of some store: the results of merges, puts and
deletes.  Their column stamps come from any peers, and nothing says that the clock of the device
has passed them.  The peers apply ops to plain objects, and the names are those for which these
are maps.

* `local_write_is_its_op_iff`: what a write stores is what its op does, exactly if the stamp of the
  write is later than what it overrides, and a put on an absent or a deleted row has a column
  other than `__proto__`.
* `empty_put_revives`: a put without columns on a tombstone.
-/

namespace Interocitor

open CodeUnits OrderedRecord HybridClock Interaction Eng List Option
open Proc (wp_bind wp_modify wp_get wp_mono)
open PlainKeys (mapsOf tablesOf mapsOf_tablesOf)

/-! ## The rows a store can hold -/

/-- The columns with these names are merged by the last write. -/
def AllLww (schema : Option DatabaseSchemaDefinition) (names : Set Text) : Prop :=
  ∀ table, ∀ field ∈ names, resolveStrategy schema table field = .ok .lww

/-- The names of the columns that a put stores are among these. -/
def PutsOf (names : Set Text) (columns : List (Text × JsValue)) : Prop :=
  ∀ p ∈ storedColumns columns, p.1 ∈ names

/-- What can be under a key of a store, on some device: nothing, or the result of a merge, a put
or a delete, with columns of these names. -/
inductive Held (names : Set Text) (key : Text) : Option Row → Prop
  | absent : Held names key none
  | merged {before out : Option Row} {op : Op} {v : ℕ} {schema : Option DatabaseSchemaDefinition}
      (h : Held names key before) (hkey : LocalStore.rowKey op.table op.rowId = key)
      (hnames : ∀ c ∈ op.columnNames, c ∈ names) (hlww : AllLww schema names)
      (hstamps : ∀ t ∈ op.stamps, Serialized t)
      (happly : applyToRow before op v schema = .ok out) : Held names key (out.or before)
  | put {d : Device} {table rowId : Text} (h : Held names key (d.store.getRow table rowId))
      (hkey : LocalStore.rowKey table rowId = key) {columns : List (Text × JsValue)}
      (hnames : PutsOf names columns) (c : Stamp Text) :
      Held names key (some (putRowOf d table rowId columns (stampText c)))
  | deleted {row : Row} (h : Held names key (some row)) (deviceId : Text) (c : Stamp Text) :
      Held names key (some (tombstoneOf row deviceId (stampText c)))

/-- A row as `applyOp` and the writes of an engine leave it. -/
structure SoundRow (names : Set Text) (key : Text) (row : Row) : Prop where
  key : LocalStore.keyOf row = key
  column : ∀ col e, row.payload.get col = some e → col ∈ names ∧ Serialized e.hlc
  deletedHlc : ∀ t, row._meta.deletedHlc = some t → Serialized t
  live : row._meta.deleted = false → row._meta.deletedHlc = none
  dead : row._meta.deleted = true → ∃ t, row._meta.deletedHlc = some t

variable {names : Set Text} {key : Text} {row : Row}

theorem SoundRow.stamps (h : SoundRow names key row) : ∀ t ∈ row.stamps, Serialized t := by
  intro t ht
  rcases mem_stamps_row.mp ht with hdel | ⟨col, e, he, rfl, -⟩
  · exact h.deletedHlc t hdel
  · exact (h.column col e he).2

theorem SoundRow.column_serialized (h : SoundRow names key row) {col : Text} {e : ColumnEntry}
    (he : row.payload.get col = some e) : Serialized e.hlc := (h.column col e he).2

theorem soundRow_putRowOf {d : Device} {table rowId : Text}
    (h : ∀ row, d.store.getRow table rowId = some row → SoundRow names key row)
    (hkey : LocalStore.rowKey table rowId = key) {columns : List (Text × JsValue)}
    (hnames : PutsOf names columns) (c : Stamp Text) :
    SoundRow names key (putRowOf d table rowId columns (stampText c)) := by
  refine ⟨?_, fun col e he => ?_, fun t ht => absurd ht (by simp [putRowOf]), fun _ => rfl,
    fun hd => absurd hd (by simp [putRowOf])⟩
  · cases hget : d.store.getRow table rowId with
    | none =>
      simp only [putRowOf, hget, rowForPut]
      exact hkey
    | some old =>
      simp only [putRowOf, hget, rowForPut]
      exact (h old hget).key
  · rw [putRowOf, get_putColumns_eq] at he
    cases hw : written col (storedColumns columns) with
    | some v =>
      rw [hw] at he
      have hcol : col ∈ (storedColumns columns).map Prod.fst := by
        by_contra hnot
        exact absurd (hw.symm.trans (written_eq_none_iff.mpr hnot)) (by simp)
      obtain ⟨p, hp, rfl⟩ := mem_map.mp hcol
      exact ⟨hnames p hp, c, congrArg ColumnEntry.hlc (some.inj he)⟩
    | none =>
      rw [hw, map_none, none_or] at he
      cases hget : d.store.getRow table rowId with
      | none =>
        rw [hget] at he
        exact absurd he (by simp [rowForPut])
      | some old =>
        rw [hget] at he
        simp only [rowForPut] at he
        split_ifs at he
        · exact absurd he (by simp)
        · exact (h old hget).column col e he

variable {schema : Option DatabaseSchemaDefinition}

/-- Under LWW an entry of the merged payload was there before or comes in. -/
theorem mem_applyColumns_lww {table rowId : Text} {cols : List (Text × ColumnEntry)}
    (hlww : ∀ p ∈ cols, resolveStrategy schema table p.1 = .ok .lww)
    {payload payload' : Record Text ColumnEntry} {changed changed' : Bool}
    (h : applyColumns schema table rowId cols payload changed = .ok (payload', changed'))
    {col : Text} {e : ColumnEntry} (he : payload'.get col = some e) :
    payload.get col = some e ∨ (col, e) ∈ cols := by
  induction cols generalizing payload changed with
  | nil =>
    obtain ⟨rfl, -⟩ := Prod.mk.inj (Except.ok.inj h)
    exact .inl he
  | cons p cols ih =>
    obtain ⟨name, incoming⟩ := p
    rw [forall_mem_cons] at hlww
    rw [applyColumns, hlww.1] at h
    dsimp only at h
    split at h
    · exact absurd h (by simp)
    · exact (ih hlww.2 h).imp_right (mem_cons_of_mem _)
    · rename_i winner hwinner
      obtain rfl : winner = incoming := by
        simp only [mergeColumn] at hwinner
        split at hwinner
        · exact (some.inj (Except.ok.inj hwinner)).symm
        · split_ifs at hwinner <;> simp_all
      rcases ih hlww.2 h with hset | hmem
      · rw [Record.get_set] at hset
        split_ifs at hset with hname
        · rw [← hname, ← some.inj hset]
          exact .inr mem_cons_self
        · exact .inl hset
      · exact .inr (mem_cons_of_mem _ hmem)

variable {op : Op}

theorem soundRow_applyToRow {before : Option Row} {v : ℕ}
    (hbefore : ∀ r, before = some r → SoundRow names key r)
    (hkey : LocalStore.rowKey op.table op.rowId = key) (hnames : ∀ c ∈ op.columnNames, c ∈ names)
    (hlww : AllLww schema names) (hstamps : ∀ t ∈ op.stamps, Serialized t)
    (h : applyToRow before op v schema = .ok (some row)) : SoundRow names key row := by
  cases op with
  | delete table rowId hlc =>
    have hhlc : Serialized hlc := hstamps hlc mem_cons_self
    have htombstone : ∀ rowMeta : RowMeta, LocalStore.rowKey rowMeta.table rowMeta.rowId = key →
        SoundRow names key ⟨{ rowMeta with deleted := true, deletedHlc := some hlc }, ∅⟩ :=
      fun rowMeta hmeta => ⟨hmeta, fun col e he => absurd he (by simp),
        fun t ht => some.inj ht ▸ hhlc, fun hd => absurd hd (by simp), fun _ => ⟨hlc, rfl⟩⟩
    have hout : applyDelete before table rowId hlc v = some row := Except.ok.inj h
    cases before with
    | none =>
      obtain rfl := some.inj hout
      exact htombstone (blankRow table rowId v true (some hlc))._meta hkey
    | some old =>
      simp only [applyDelete] at hout
      split_ifs at hout
      obtain rfl := some.inj hout
      exact htombstone _ (hbefore old rfl).key
  | upsert table rowId columns =>
    have hin : ∀ p ∈ columns.entries, p.1 ∈ names ∧ Serialized p.2.hlc := fun p hp =>
      ⟨hnames p.1 (mem_map_of_mem hp),
        hstamps _ (mem_map.mpr ⟨p.2, mem_map.mpr ⟨p, hp, rfl⟩, rfl⟩)⟩
    have hbase : SoundRow names key (before.getD (blankRow table rowId v false none)) := by
      cases before with
      | none =>
        exact ⟨hkey, fun col e he => absurd he (by simp [blankRow]),
          fun t ht => absurd ht (by simp [blankRow]), fun _ => rfl,
          fun hd => absurd hd (by simp [blankRow])⟩
      | some old => exact hbefore old rfl
    change applyUpsert before table rowId columns v schema = _ at h
    rw [applyUpsert] at h
    generalize before.getD (blankRow table rowId v false none) = base at h hbase
    dsimp only at h
    split at h
    · rename_i deletedHlc _
      split_ifs at h
      · exact absurd (Except.ok.inj h) (by simp)
      · split at h
        · exact absurd h (by simp)
        · rename_i happly
          obtain rfl := some.inj (Except.ok.inj h)
          have hlater : ∀ p ∈ columns.entries.filter fun p => isPos (hlcCompareStr p.2.hlc deletedHlc),
              p ∈ columns.entries := fun p hp => (mem_filter.mp hp).1
          refine ⟨hbase.key, fun col e he => ?_, fun t ht => absurd ht (by simp), fun _ => rfl,
            fun hd => absurd hd (by simp)⟩
          rcases mem_applyColumns_lww (fun p hp => hlww table p.1 (hin p (hlater p hp)).1) happly he
            with hold | hnew
          · exact absurd hold (by simp)
          · exact hin _ (hlater _ hnew)
    · split at h
      · exact absurd h (by simp)
      · rename_i happly
        split_ifs at h
        · obtain rfl := some.inj (Except.ok.inj h)
          refine ⟨hbase.key, fun col e he => ?_, hbase.deletedHlc, hbase.live, hbase.dead⟩
          rcases mem_applyColumns_lww (fun p hp => hlww table p.1 (hin p hp).1) happly he
            with hold | hnew
          · exact hbase.column col e hold
          · exact hin _ hnew
        · exact absurd (Except.ok.inj h) (by simp)

/-- **The rows that a store can hold are sound.** -/
theorem Held.sound {r : Option Row} (h : Held names key r) :
    ∀ row, r = some row → SoundRow names key row := by
  induction h with
  | absent => exact fun row hrow => absurd hrow (by simp)
  | @merged before out op v schema _ hkey hnames hlww hstamps happly ih =>
    intro row hrow
    cases out with
    | none => exact ih row hrow
    | some row' =>
      obtain rfl : row' = row := some.inj hrow
      exact soundRow_applyToRow ih hkey hnames hlww hstamps happly
  | @put d table rowId _ hkey columns hnames c ih =>
    intro row hrow
    obtain rfl := some.inj hrow
    exact soundRow_putRowOf ih hkey hnames c
  | @deleted row _ deviceId c ih =>
    intro row' hrow
    obtain rfl := some.inj hrow
    exact ⟨(ih row rfl).key, fun col e he => absurd he (by simp [tombstoneOf]),
      fun t ht => ⟨c, some.inj ht⟩, fun hd => absurd hd (by simp [tombstoneOf]),
      fun _ => ⟨_, rfl⟩⟩

/-! ## Columns that are merged into a row -/

/-- An entry gives way to one with a later stamp, and is the same as itself --- unless its value is
not even equal to itself, as an invalid date is not. -/
def Yields (old new : ColumnEntry) : Prop :=
  stampOf old.hlc < stampOf new.hlc ∨ new = old ∧ columnValuesEqual old.value old.value = true

section Merge

variable {schema : Option DatabaseSchemaDefinition} {table rowId : Text}

theorem mergeColumn_yields_iff (table rowId field : Text) {old new : ColumnEntry}
    (ho : Serialized old.hlc) (hn : Serialized new.hlc) :
    (∃ o, mergeColumn (some old) new .lww table rowId field = .ok o ∧ o.getD old = new) ↔
      Yields old new := by
  rw [Yields]
  simp only [mergeColumn, if_neg ho.ne_nil, hn.isPos_compare ho, hn.isNeg_compare ho]
  by_cases hlt : stampOf old.hlc < stampOf new.hlc
  · rw [if_pos hlt]
    exact ⟨fun _ => .inl hlt, fun _ => ⟨_, rfl, rfl⟩⟩
  · rw [if_neg hlt]
    by_cases hgt : stampOf new.hlc < stampOf old.hlc
    · rw [if_pos hgt]
      constructor
      · rintro ⟨o, ho', hnew⟩
        obtain rfl := Except.ok.inj ho'
        obtain rfl : old = new := hnew
        exact absurd hgt (lt_irrefl _)
      · rintro (h | ⟨rfl, -⟩)
        · exact absurd h hlt
        · exact absurd hgt (lt_irrefl _)
    · rw [if_neg hgt]
      by_cases heq : columnValuesEqual old.value new.value = true
      · rw [if_pos heq]
        constructor
        · rintro ⟨o, ho', hnew⟩
          obtain rfl := Except.ok.inj ho'
          obtain rfl : old = new := hnew
          exact .inr ⟨rfl, heq⟩
        · rintro (h | ⟨rfl, -⟩)
          · exact absurd h hlt
          · exact ⟨none, rfl, rfl⟩
      · rw [if_neg heq]
        constructor
        · rintro ⟨o, ho', -⟩
          exact absurd ho' (by simp)
        · rintro (h | ⟨rfl, hself⟩)
          · exact absurd h hlt
          · exact absurd hself heq

/-- `mergeColumn` under LWW, as an update at a name. -/
def lwwPick (table rowId field : Text) (old : Option ColumnEntry) (new : ColumnEntry) :
    Except MergeError (Option ColumnEntry) :=
  mergeColumn old new .lww table rowId field

/-- Under LWW the loop over the columns makes its updates one after the other. -/
theorem applyColumns_eq_lwwPick (table rowId : Text) {cols : List (Text × ColumnEntry)}
    (h : ∀ p ∈ cols, resolveStrategy schema table p.1 = .ok .lww)
    (payload : Record Text ColumnEntry) (changed : Bool) :
    (applyColumns schema table rowId cols payload changed).map (fun out => out.1.entries) =
      updateAll (lwwPick table rowId) cols payload.entries := by
  induction cols generalizing payload changed with
  | nil => rfl
  | cons p cols ih =>
    obtain ⟨col, entry⟩ := p
    rw [forall_mem_cons] at h
    rw [applyColumns, updateAll, h.1]
    have hpick : lwwPick table rowId col (find col payload.entries) entry =
        mergeColumn (payload.get col) entry .lww table rowId col := rfl
    rw [hpick]
    dsimp only
    rcases mergeColumn (payload.get col) entry .lww table rowId col with e | o
    · rfl
    · cases o with
      | none => exact ih h.2 payload changed
      | some winner => exact ih h.2 (payload.set col winner) true

theorem applyColumns_unchanged {cols : List (Text × ColumnEntry)}
    {payload payload' : Record Text ColumnEntry} {changed : Bool}
    (h : applyColumns schema table rowId cols payload changed = .ok (payload', false)) :
    payload' = payload ∧ changed = false := by
  induction cols generalizing payload changed with
  | nil =>
    have hpair := Except.ok.inj h
    exact ⟨(congrArg Prod.fst hpair).symm, congrArg Prod.snd hpair⟩
  | cons p cols ih =>
    rw [applyColumns] at h
    split at h
    · exact absurd h (by simp)
    · split at h
      · exact absurd h (by simp)
      · exact ih h
      · exact absurd (ih h).2 (by decide)

/-- The columns that the merge of `new` into `payload` leaves are those of `new`. -/
def Replaces (schema : Option DatabaseSchemaDefinition) (table rowId : Text)
    (payload new : Record Text ColumnEntry) (changed : Bool) : Prop :=
  ∃ payload' changed', applyColumns schema table rowId new.entries payload changed =
    .ok (payload', changed') ∧ ∀ col, payload'.get col = new.get col

/-- **Merging columns over a payload that has no others gives these columns exactly if every
entry of the payload yields.** -/
theorem replaces_iff {payload new : Record Text ColumnEntry}
    (h : ∀ p ∈ new.entries, resolveStrategy schema table p.1 = .ok .lww)
    (hp : ∀ col e, payload.get col = some e → Serialized e.hlc)
    (hn : ∀ col e, new.get col = some e → Serialized e.hlc)
    (hsub : ∀ col, new.get col = none → payload.get col = none) (changed : Bool) :
    Replaces schema table rowId payload new changed ↔
      ∀ col old e, payload.get col = some old → new.get col = some e → Yields old e := by
  have hloop := applyColumns_eq_lwwPick table rowId h payload changed
  have hentry : ∀ p ∈ new.entries, new.get p.1 = some p.2 := fun p hp =>
    Record.mem_entries_iff.mp hp
  constructor
  · rintro ⟨payload', changed', happly, hsame⟩ col old e hold he
    have hok : ∀ p ∈ new.entries, ∃ o, lwwPick table rowId p.1 (find p.1 payload.entries) p.2 =
        .ok o := by
      intro p hp
      rcases hpick : lwwPick table rowId p.1 (find p.1 payload.entries) p.2 with err | o
      · obtain ⟨err', herr⟩ := updateAll_error new.nodup hp hpick
        rw [happly, herr] at hloop
        exact absurd hloop (by simp [Except.map])
      · exact ⟨o, rfl⟩
    obtain ⟨l, hl, hfind, -⟩ := updateAll_ok new.nodup hok
    rw [happly, hl] at hloop
    have hl' : payload'.entries = l := Except.ok.inj hloop
    obtain ⟨o, ho⟩ := hok (col, e) (Record.mem_entries_iff.mpr he)
    have hcol : find col payload.entries = some old := hold
    have hgot : updated (lwwPick table rowId) new.entries payload.entries col = some e := by
      rw [← hfind col, ← hl']
      exact (hsame col).trans he
    refine (mergeColumn_yields_iff table rowId col (hp col old hold) (hn col e he)).mp ⟨o, ?_, ?_⟩
    · rw [hcol] at ho
      exact ho
    · have hnew : find col new.entries = some e := he
      rw [updated, hnew] at hgot
      dsimp only at ho hgot
      rw [ho, hcol] at hgot
      cases o with
      | none => exact some.inj hgot
      | some winner => exact some.inj hgot
  · intro hyield
    have hok : ∀ p ∈ new.entries, ∃ o, lwwPick table rowId p.1 (find p.1 payload.entries) p.2 =
        .ok o ∧ o.or (find p.1 payload.entries) = some p.2 := by
      intro p hmem
      cases hold : payload.get p.1 with
      | none =>
        have hnone : find p.1 payload.entries = none := hold
        exact ⟨some p.2, by rw [hnone]; rfl, rfl⟩
      | some old =>
        have hsome : find p.1 payload.entries = some old := hold
        obtain ⟨o, ho, hgot⟩ := (mergeColumn_yields_iff table rowId p.1 (hp p.1 old hold)
          (hn p.1 p.2 (hentry p hmem))).mpr
          (hyield p.1 old p.2 hold (hentry p hmem))
        refine ⟨o, by rw [hsome]; exact ho, ?_⟩
        rw [hsome, ← hgot]
        cases o <;> rfl
    obtain ⟨l, hl, hfind, -⟩ := updateAll_ok new.nodup fun p hp =>
      (hok p hp).imp fun _ ho => ho.1
    rw [hl] at hloop
    rcases happly : applyColumns schema table rowId new.entries payload changed with err | out
    · rw [happly] at hloop
      exact absurd hloop (by simp [Except.map])
    · rw [happly] at hloop
      have hl' : out.1.entries = l := Except.ok.inj hloop
      refine ⟨out.1, out.2, happly, fun col => ?_⟩
      have hget : out.1.get col = updated (lwwPick table rowId) new.entries payload.entries col := by
        rw [← hfind col, ← hl']
        rfl
      rw [hget, updated]
      cases hnew : new.get col with
      | none =>
        have hnone : find col new.entries = none := hnew
        rw [hnone]
        exact hsub col hnew
      | some e =>
        have hsome : find col new.entries = some e := hnew
        obtain ⟨o, ho, hgot⟩ := hok (col, e) (Record.mem_entries_iff.mpr hnew)
        dsimp only at ho hgot
        rw [hsome]
        dsimp only
        rw [ho]
        cases o with
        | none => exact hgot
        | some winner => exact hgot

end Merge

/-! ## The op of a row -/

/-- Whatever table and row the key stands for, peers can find it in plain objects. -/
def OrdinaryKey (key : Text) : Prop :=
  ∀ table rowId, LocalStore.rowKey table rowId = key →
    table ∉ inheritedNames ∧ rowId ∉ inheritedNames

/-- What an op is read off: the flag, the tombstone and the columns of a row. -/
structure SameContent (r s : Row) : Prop where
  deleted : r._meta.deleted = s._meta.deleted
  deletedHlc : r._meta.deletedHlc = s._meta.deletedHlc
  payload : ∀ col, r.payload.get col = s.payload.get col

/-- The op, applied to the row as it was before, gives a row of the same content. -/
def RowIsOp (schema : Option DatabaseSchemaDefinition) (v : ℕ) (before : Option Row) (op : Op)
    (after : Row) : Prop :=
  ∃ out, applyToRow before op v schema = .ok out ∧
    ∃ row, out.or before = some row ∧ SameContent row after

theorem filter_payload_eq (h : SoundRow names key row) :
    (row.payload.filter fun _ entry => decide (entry.hlc ≠ [])) = row.payload := by
  obtain ⟨rowMeta, ⟨entries, hnodup⟩⟩ := row
  have hall : entries.filter (fun p => decide (p.2.hlc ≠ [])) = entries := by
    refine filter_eq_self.mpr fun p hp => decide_eq_true ?_
    exact (h.column_serialized (Record.mem_entries_iff.mp hp)).ne_nil
  simp only [Record.filter, hall]

theorem rowToSyncOp_live (h : SoundRow names key row) (hlive : row._meta.deleted = false) :
    rowToSyncOp row = if row.payload.entries = [] then none
      else some (.upsert row._meta.table row._meta.rowId row.payload) := by
  rw [rowToSyncOp, if_neg (by simp [hlive])]
  dsimp only
  rw [filter_payload_eq h]

theorem rowToSyncOp_dead {t : Text} (hdead : row._meta.deleted = true)
    (ht : row._meta.deletedHlc = some t) (hne : t ≠ []) :
    rowToSyncOp row = some (.delete row._meta.table row._meta.rowId t) := by
  rw [rowToSyncOp, if_pos hdead, ht]
  exact if_neg hne

theorem getRowHlc_ne_nil (h : SoundRow names key row) (hop : rowToSyncOp row = some op) :
    getRowHlc row ≠ [] := by
  have hstamp : ∃ t, t ∈ row.stamps := by
    cases hdel : row._meta.deleted with
    | true =>
      obtain ⟨t, ht⟩ := h.dead hdel
      exact ⟨t, mem_stamps_row.mpr (.inl ht)⟩
    | false =>
      rw [rowToSyncOp_live h hdel] at hop
      split_ifs at hop with hnil
      obtain ⟨p, hp⟩ := exists_mem_of_ne_nil _ hnil
      have hget := Record.mem_entries_iff.mp hp
      exact ⟨p.2.hlc,
        mem_stamps_row.mpr (.inr ⟨p.1, p.2, hget, rfl, (h.column_serialized hget).ne_nil⟩)⟩
  obtain ⟨t, ht⟩ := hstamp
  exact (h.stamps _ (getRowHlc_spec h.stamps ht).1).ne_nil

theorem ordinary_rowToSyncOp (h : SoundRow names key row) (hkey : OrdinaryKey key)
    (hproto : protoName ∉ names) (hop : rowToSyncOp row = some op) : op.Ordinary := by
  obtain ⟨htable, hrowId⟩ := hkey row._meta.table row._meta.rowId h.key
  cases hdel : row._meta.deleted with
  | true =>
    obtain ⟨t, ht⟩ := h.dead hdel
    rw [rowToSyncOp_dead hdel ht (h.deletedHlc t ht).ne_nil] at hop
    obtain rfl := some.inj hop
    exact ⟨htable, hrowId, not_mem_nil⟩
  | false =>
    rw [rowToSyncOp_live h hdel] at hop
    split_ifs at hop
    obtain rfl := some.inj hop
    refine ⟨htable, hrowId, fun hmem => ?_⟩
    obtain ⟨e, he⟩ := Record.mem_keys_iff.mp hmem
    exact hproto (h.column _ e he).1

section RowIsOp

variable {schema : Option DatabaseSchemaDefinition} {table rowId : Text} {v : ℕ}

theorem rowIsOp_upsert_live {before : Option Row} {new : Record Text ColumnEntry} {after : Row}
    (hlive : ∀ row, before = some row → row._meta.deleted = false ∧ row._meta.deletedHlc = none)
    (hafter : after._meta.deleted = false ∧ after._meta.deletedHlc = none)
    (hpayload : after.payload = new) :
    RowIsOp schema v before (.upsert table rowId new) after ↔
      Replaces schema table rowId ((before.map Row.payload).getD ∅) new before.isNone := by
  have hbase : (before.getD (blankRow table rowId v false none))._meta.deleted = false ∧
      (before.getD (blankRow table rowId v false none))._meta.deletedHlc = none ∧
      (before.getD (blankRow table rowId v false none)).payload =
        (before.map Row.payload).getD ∅ := by
    cases before with
    | none => exact ⟨rfl, rfl, rfl⟩
    | some row => exact ⟨(hlive row rfl).1, (hlive row rfl).2, rfl⟩
  have happly : applyToRow before (.upsert table rowId new) v schema =
      (applyColumns schema table rowId new.entries ((before.map Row.payload).getD ∅)
        before.isNone).map fun out => if out.2 then
          some ⟨(before.getD (blankRow table rowId v false none))._meta, out.1⟩ else none := by
    rw [applyToRow, applyUpsert]
    dsimp only
    rw [if_neg (by simp [hbase.1]), hbase.2.2]
    rcases applyColumns schema table rowId new.entries ((before.map Row.payload).getD ∅)
      before.isNone with e | ⟨payload, changed⟩ <;> rfl
  rw [RowIsOp, Replaces, happly]
  rcases hcols : applyColumns schema table rowId new.entries ((before.map Row.payload).getD ∅)
    before.isNone with e | ⟨payload, changed⟩
  · constructor
    · rintro ⟨out, hout, -⟩
      cases hout
    · rintro ⟨payload', changed', hout, -⟩
      cases hout
  · have hresult : ∃ row, ((if changed = true then
          some (Row.mk (before.getD (blankRow table rowId v false none))._meta payload)
          else none).or before) = some row ∧ row._meta.deleted = false ∧
        row._meta.deletedHlc = none ∧ row.payload = payload := by
      cases changed with
      | true => exact ⟨_, rfl, hbase.1, hbase.2.1, rfl⟩
      | false =>
        obtain ⟨hsame, hsome⟩ := applyColumns_unchanged hcols
        cases before with
        | none => exact absurd hsome (by simp)
        | some row => exact ⟨row, rfl, (hlive row rfl).1, (hlive row rfl).2, hsame.symm⟩
    obtain ⟨row, hrow, hdel, hhlc, hpay⟩ := hresult
    constructor
    · rintro ⟨out, hout, row', hrow', hsame⟩
      obtain rfl := Except.ok.inj hout
      obtain rfl : row = row' := some.inj (hrow.symm.trans hrow')
      exact ⟨payload, changed, rfl, fun col => by rw [← hpay, hsame.payload col, hpayload]⟩
    · rintro ⟨payload', changed', hout, hsame⟩
      obtain ⟨rfl, rfl⟩ := Prod.mk.inj (Except.ok.inj hout)
      refine ⟨_, rfl, row, hrow, hdel.trans hafter.1.symm, hhlc.trans hafter.2.symm, fun col => ?_⟩
      rw [hpay, hpayload]
      exact hsame col

theorem rowIsOp_upsert_dead {t stamp : Text} (hdead : row._meta.deleted = true)
    (ht : row._meta.deletedHlc = some t) (hser : Serialized t) (hstamp : Serialized stamp)
    {new : Record Text ColumnEntry} {after : Row}
    (h : ∀ p ∈ new.entries, resolveStrategy schema table p.1 = .ok .lww)
    (hnew : ∀ col e, new.get col = some e → e.hlc = stamp) (hne : new.entries ≠ [])
    (hafter : after._meta.deleted = false ∧ after._meta.deletedHlc = none)
    (hpayload : after.payload = new) :
    RowIsOp schema v (some row) (.upsert table rowId new) after ↔ stampOf t < stampOf stamp := by
  have hentry : ∀ p ∈ new.entries, p.2.hlc = stamp := fun p hp =>
    hnew p.1 p.2 (Record.mem_entries_iff.mp hp)
  have happly : applyToRow (some row) (.upsert table rowId new) v schema =
      if (new.entries.filter fun p => isPos (hlcCompareStr p.2.hlc t)).isEmpty then .ok none
      else (applyColumns schema table rowId
          (new.entries.filter fun p => isPos (hlcCompareStr p.2.hlc t)) ∅ true).map fun out =>
        some ⟨{ row._meta with deleted := false, deletedHlc := none }, out.1⟩ := by
    rw [applyToRow, applyUpsert]
    dsimp only [getD_some]
    rw [if_pos hdead, ht, truthy_of_ne_nil hser.ne_nil]
    dsimp only
    split_ifs
    · rfl
    · rcases applyColumns schema table rowId
        (new.entries.filter fun p => isPos (hlcCompareStr p.2.hlc t)) ∅ true with
        e | ⟨payload, changed⟩ <;> rfl
  rw [RowIsOp, happly]
  by_cases hlt : stampOf t < stampOf stamp
  · -- every column is newer than the tombstone and lands in an empty payload
    have hall : (new.entries.filter fun p => isPos (hlcCompareStr p.2.hlc t)) = new.entries := by
      refine filter_eq_self.mpr fun p hp => ?_
      rw [hentry p hp]
      exact (hstamp.isPos_compare hser).mpr hlt
    obtain ⟨payload, changed, hcols, hsame⟩ : Replaces schema table rowId ∅ new true := by
      refine (replaces_iff h (fun col e he => absurd he (by simp)) (fun col e he => ?_)
        (fun col _ => rfl) true).mpr fun col old e hold _ => absurd hold (by simp)
      rw [hnew col e he]
      exact hstamp
    rw [hall, if_neg (by simpa using hne), hcols]
    refine ⟨fun _ => hlt, fun _ => ⟨_, rfl, _, rfl, hafter.1.symm, hafter.2.symm, fun col => ?_⟩⟩
    rw [hpayload]
    exact hsame col
  · -- no column is, and the tombstone stays
    have hnone : (new.entries.filter fun p => isPos (hlcCompareStr p.2.hlc t)) = [] := by
      refine filter_eq_nil_iff.mpr fun p hp hpos => hlt ?_
      rw [hentry p hp] at hpos
      exact (hstamp.isPos_compare hser).mp hpos
    rw [hnone, if_pos isEmpty_nil]
    refine ⟨?_, fun hc => absurd hc hlt⟩
    rintro ⟨out, hout, row', hrow', hsame⟩
    obtain rfl := Except.ok.inj hout
    obtain rfl : row = row' := some.inj hrow'
    exact absurd (hdead.symm.trans (hsame.deleted.trans hafter.1)) (by simp)

theorem rowIsOp_delete (h : SoundRow names key row) (hlive : row._meta.deleted =
      false) {stamp : Text} (hstamp : Serialized stamp) (deviceId : Text) :
    RowIsOp schema v (some row) (.delete table rowId stamp) (tombstoneOf row deviceId stamp) ↔
      ∀ col e, row.payload.get col = some e → stampOf e.hlc ≤ stampOf stamp := by
  have happly : applyToRow (some row) (.delete table rowId stamp) v schema =
      .ok (if row.payload.values.any fun e =>
          decide (e.hlc ≠ []) && isPos (hlcCompareStr e.hlc stamp) then none
        else some ⟨{ row._meta with deleted := true, deletedHlc := some stamp }, ∅⟩) := by
    rw [applyToRow, applyDelete]
    dsimp only
    rw [h.live hlive]
    rfl
  rw [RowIsOp, happly]
  split_ifs with hnewer
  · constructor
    · rintro ⟨out, hout, row', hrow', hsame⟩
      obtain rfl := Except.ok.inj hout
      obtain rfl : row = row' := some.inj hrow'
      exact absurd (hlive.symm.trans hsame.deleted) (by simp [tombstoneOf])
    · intro hle
      obtain ⟨e, he, hpos⟩ := any_eq_true.mp hnewer
      obtain ⟨col, hcol⟩ := Record.mem_values_iff.mp he
      rw [Bool.and_eq_true, (h.column_serialized hcol).isPos_compare hstamp] at hpos
      exact absurd hpos.2 (not_lt.mpr (hle col e hcol))
  · refine ⟨fun _ col e he => not_lt.mp fun hlt => hnewer ?_, fun _ => ?_⟩
    · refine any_eq_true.mpr ⟨e, Record.mem_values_iff.mpr ⟨col, he⟩, ?_⟩
      rw [Bool.and_eq_true, (h.column_serialized he).isPos_compare hstamp]
      exact ⟨decide_eq_true (h.column_serialized he).ne_nil, hlt⟩
    · exact ⟨_, rfl, _, rfl, rfl, rfl, fun col => rfl⟩

end RowIsOp

/-! ## The writes of an engine -/

/-- A put of columns, or a delete. -/
inductive LocalWrite where
  | put (columns : List (Text × JsValue))
  | delete

/-- The method of the engine that makes the write. -/
def LocalWrite.method (table rowId : Text) : LocalWrite → Eng Unit
  | .put columns => do let _ ← putNow table rowId columns
  | .delete => do let _ ← deleteNow table rowId

/-- The ops that are waiting to be published. -/
def LocalStore.queuedOps (store : LocalStore) : List Op := store.queued.flatMap ChangeEntry.ops

/-- The write is the ops that it enqueues: one, which makes of the row before what is stored now
wherever it is applied, or none, and the row is as it was. -/
def IsItsOps (schema : Option DatabaseSchemaDefinition) (before after : Option Row) :
    List Op → Prop
  | [] => Option.Rel (fun r s => r._meta.deleted = s._meta.deleted ∧
      ∀ col, r.payload.get col = s.payload.get col) before after
  | [op] => ∀ v tables, rowAt tables op.table op.rowId = before →
      ∃ res tables', PlainKeys.applyOp (tablesOf tables) op v schema = .ok (res, tables') ∧
        Option.Rel SameContent (rowAt (mapsOf tables') op.table op.rowId) after
  | _ => False

theorem isItsOps_singleton {before : Option Row} {after : Row} (hop : op.Ordinary) :
    IsItsOps schema before (some after) [op] ↔ ∀ v, RowIsOp schema v before op after := by
  constructor
  · intro h v
    have hrow : rowAt ((∅ : Tables).set op.table (before.elim ∅ fun r => (∅ : Record _ _).set op.rowId r))
        op.table op.rowId = before := by
      rw [rowAt_set_self]
      cases before with
      | none => rfl
      | some r => exact Record.get_set_self _ _ _
    obtain ⟨_, _, hplain, hrel⟩ := h v _ hrow
    obtain ⟨res, tables', happly, rfl⟩ := PlainKeys.applyOp_eq_ok hop hplain
    rw [mapsOf_tablesOf] at hrel
    obtain ⟨hres, hafter⟩ := rowAt_applyOp happly op.table op.rowId
    rw [if_pos ⟨rfl, rfl⟩, hrow] at hafter
    rw [hrow] at hres
    rw [hafter] at hrel
    refine ⟨res, hres, ?_⟩
    cases hout : res.or before with
    | none =>
      rw [hout] at hrel
      exact absurd hrel (by rintro ⟨⟩)
    | some row =>
      rw [hout] at hrel
      cases hrel with
      | some hsame => exact ⟨row, rfl, hsame⟩
  · intro h v tables hrow
    obtain ⟨out, hout, row, hor, hsame⟩ := h v
    have happly : ∃ tables', applyOp tables op v schema = .ok (out, tables') := by
      simp only [applyOp, rowAt_of_tables_get, hrow, hout]
      cases out with
      | none => exact ⟨_, rfl⟩
      | some r => exact ⟨_, rfl⟩
    obtain ⟨tables', happly⟩ := happly
    refine ⟨out.map PlainKeys.Row.ofMap, tablesOf tables', ?_, ?_⟩
    · rw [PlainKeys.applyOp_eq hop, happly]
      rfl
    rw [mapsOf_tablesOf, (rowAt_applyOp happly op.table op.rowId).2, if_pos ⟨rfl, rfl⟩, hrow, hor]
    exact .some hsame

/-- When a write is its op: the stamp is later than what the write overrides, and a put on an
absent or a deleted row has a column that is stored.  The columns that a put leaves alone go into
its op too, and have to be equal to themselves. -/
def LocalWrite.KeepsPace (stamp : Text) (before : Option Row) : LocalWrite → Prop
  | .put columns =>
    match before with
    | none => storedColumns columns ≠ []
    | some row =>
      if row._meta.deleted = true then
        storedColumns columns ≠ [] ∧
          ∀ t, row._meta.deletedHlc = some t → stampOf t < stampOf stamp
      else ∀ col e, row.payload.get col = some e →
        match written col (storedColumns columns) with
        | none => columnValuesEqual e.value e.value = true
        | some v => Yields e ⟨v, stamp⟩
  | .delete => ∀ row, before = some row → row._meta.deleted = false →
      ∀ col e, row.payload.get col = some e → stampOf e.hlc ≤ stampOf stamp

section Put

variable {schema : Option DatabaseSchemaDefinition} {stamp : Text} {after : Row}
  {columns : List (Text × JsValue)}

theorem putColumns_eq_nil_iff {payload : Record Text ColumnEntry} :
    (putColumns payload columns stamp).entries = [] ↔
      storedColumns columns = [] ∧ payload.entries = [] := by
  constructor
  · intro h
    have hnone : ∀ col, written col (storedColumns columns) = none ∧ payload.get col = none := by
      intro col
      have hget := Record.entries_eq_nil_iff.mp h col
      rw [get_putColumns_eq, or_eq_none_iff, map_eq_none_iff] at hget
      exact hget
    refine ⟨?_, Record.entries_eq_nil_iff.mpr fun col => (hnone col).2⟩
    refine eq_nil_iff_forall_not_mem.mpr fun p hp => ?_
    exact written_eq_none_iff.mp (hnone p.1).1 (mem_map_of_mem hp)
  · rintro ⟨hnil, h⟩
    rwa [putColumns, hnil]

theorem ordinary_upsert (hkey : OrdinaryKey key) (hproto : protoName ∉ names)
    (hafter : SoundRow names key after) (hlive : after._meta.deleted = false)
    (hne : after.payload.entries ≠ []) :
    (Op.upsert after._meta.table after._meta.rowId after.payload).Ordinary :=
  ordinary_rowToSyncOp hafter hkey hproto (by rw [rowToSyncOp_live hafter hlive, if_neg hne])

theorem AllLww.resolve (h : AllLww schema names) (hafter : SoundRow names key after)
    (table : Text) : ∀ p ∈ after.payload.entries, resolveStrategy schema table p.1 = .ok .lww :=
  fun p hp => h table p.1 (hafter.column p.1 p.2 (Record.mem_entries_iff.mp hp)).1

theorem put_absent_iff (hlww : AllLww schema names) (hkey : OrdinaryKey key)
    (hproto : protoName ∉ names) (hafter : SoundRow names key after)
    (hlive : after._meta.deleted = false) (hpayload : after.payload = putColumns ∅ columns stamp) :
    IsItsOps schema none (some after) (rowToSyncOp after).toList ↔
      storedColumns columns ≠ [] := by
  have hempty : after.payload.entries = [] ↔ storedColumns columns = [] := by
    rw [hpayload, putColumns_eq_nil_iff]
    exact and_iff_left rfl
  rw [rowToSyncOp_live hafter hlive, Ne, ← hempty]
  by_cases hnil : after.payload.entries = []
  · rw [if_pos hnil]
    refine ⟨fun hrel => ?_, fun hne => absurd hnil hne⟩
    cases hrel
  · rw [if_neg hnil, toList_some,
      isItsOps_singleton (ordinary_upsert hkey hproto hafter hlive hnil)]
    refine ⟨fun _ => hnil, fun _ v => ?_⟩
    rw [rowIsOp_upsert_live (fun row hrow => absurd hrow (by simp)) ⟨hlive, hafter.live hlive⟩ rfl]
    exact (replaces_iff (hlww.resolve hafter _) (fun col e he => absurd he (by simp))
      (fun col e he => hafter.column_serialized he) (fun col _ => rfl) _).mpr
      fun col old e hold _ => absurd hold (by simp)

theorem put_dead_iff (hlww : AllLww schema names) (hkey : OrdinaryKey key)
    (hproto : protoName ∉ names) (hrow : SoundRow names key row) (hdead : row._meta.deleted = true)
    (hafter : SoundRow names key after) (hlive : after._meta.deleted = false)
    (hpayload : after.payload = putColumns ∅ columns stamp) (hstamp : Serialized stamp) :
    IsItsOps schema (some row) (some after) (rowToSyncOp after).toList ↔
      storedColumns columns ≠ [] ∧
        ∀ t, row._meta.deletedHlc = some t → stampOf t < stampOf stamp := by
  obtain ⟨t, ht⟩ := hrow.dead hdead
  have hempty : after.payload.entries = [] ↔ storedColumns columns = [] := by
    rw [hpayload, putColumns_eq_nil_iff]
    exact and_iff_left rfl
  rw [rowToSyncOp_live hafter hlive, ht, Ne, ← hempty]
  by_cases hnil : after.payload.entries = []
  · rw [if_pos hnil]
    refine ⟨fun hrel => ?_, fun hne => absurd hnil hne.1⟩
    cases hrel with
    | some hsame => exact absurd (hdead.symm.trans (hsame.1.trans hlive)) (by simp)
  · have hnew : ∀ col e, after.payload.get col = some e → e.hlc = stamp := by
      intro col e he
      rw [hpayload] at he
      exact (get_putColumns he).resolve_right fun hold => absurd hold.1 (by simp)
    rw [if_neg hnil, toList_some,
      isItsOps_singleton (ordinary_upsert hkey hproto hafter hlive hnil)]
    have hiff : ∀ v, RowIsOp schema v (some row) (.upsert after._meta.table after._meta.rowId
        after.payload) after ↔ stampOf t < stampOf stamp := fun v =>
      rowIsOp_upsert_dead hdead ht (hrow.deletedHlc t ht) hstamp (hlww.resolve hafter _) hnew hnil
        ⟨hlive, hafter.live hlive⟩ rfl
    constructor
    · refine fun hall => ⟨hnil, fun t' ht' => ?_⟩
      obtain rfl := some.inj ht'
      exact (hiff 0).mp (hall 0)
    · exact fun hpace v => (hiff v).mpr (hpace.2 t rfl)

theorem put_live_iff (hlww : AllLww schema names) (hkey : OrdinaryKey key)
    (hproto : protoName ∉ names) (hrow : SoundRow names key row)
    (hbefore : row._meta.deleted = false) (hafter : SoundRow names key after)
    (hlive : after._meta.deleted = false)
    (hpayload : after.payload = putColumns row.payload columns stamp) :
    IsItsOps schema (some row) (some after) (rowToSyncOp after).toList ↔
      ∀ col e, row.payload.get col = some e →
        match written col (storedColumns columns) with
        | none => columnValuesEqual e.value e.value = true
        | some v => Yields e ⟨v, stamp⟩ := by
  have hyields : (∀ col old e, row.payload.get col = some old →
      after.payload.get col = some e → Yields old e) ↔
      ∀ col e, row.payload.get col = some e →
        match written col (storedColumns columns) with
        | none => columnValuesEqual e.value e.value = true
        | some v => Yields e ⟨v, stamp⟩ := by
    refine forall_congr' fun col => forall_congr' fun old => ?_
    rw [forall_comm]
    refine forall_congr' fun hold => ?_
    rw [hpayload, get_putColumns_eq, hold]
    cases written col (storedColumns columns) with
    | none =>
      rw [map_none, none_or]
      constructor
      · exact fun hall => ((hall old rfl).resolve_left (lt_irrefl _)).2
      · intro hself e he
        obtain rfl := some.inj he
        exact .inr ⟨rfl, hself⟩
    | some v =>
      rw [map_some, some_or]
      constructor
      · exact fun hall => hall _ rfl
      · intro hy e he
        obtain rfl := some.inj he
        exact hy
  rw [rowToSyncOp_live hafter hlive, ← hyields]
  by_cases hnil : after.payload.entries = []
  · obtain ⟨hstored, hempty⟩ := putColumns_eq_nil_iff.mp (hpayload ▸ hnil)
    rw [if_pos hnil]
    refine ⟨fun _ col old e hold _ => ?_, fun _ => .some ⟨hbefore.trans hlive.symm, fun col => ?_⟩⟩
    · rw [Record.entries_eq_nil_iff.mp hempty col] at hold
      exact absurd hold (by simp)
    · rw [hpayload, putColumns, hstored]
      rfl
  · rw [if_neg hnil, toList_some,
      isItsOps_singleton (ordinary_upsert hkey hproto hafter hlive hnil)]
    have hiff : ∀ v, RowIsOp schema v (some row) (.upsert after._meta.table after._meta.rowId
        after.payload) after ↔
        ∀ col old e, row.payload.get col = some old → after.payload.get col = some e →
          Yields old e := by
      intro v
      rw [rowIsOp_upsert_live (fun r hr => ?_) ⟨hlive, hafter.live hlive⟩ rfl]
      · refine replaces_iff (hlww.resolve hafter _) (fun col e he => hrow.column_serialized he)
          (fun col e he => hafter.column_serialized he) (fun col hnone => ?_) _
        rw [hpayload, get_putColumns_eq, or_eq_none_iff] at hnone
        exact hnone.2
      · obtain rfl := some.inj hr
        exact ⟨hbefore, hrow.live hbefore⟩
    exact ⟨fun hall => (hiff 0).mp (hall 0), fun hpace v => (hiff v).mpr hpace⟩

/-- **The row that a put stores is what its op does exactly if the put keeps pace.** -/
theorem put_isItsOps_iff (hlww : AllLww schema names) (hproto : protoName ∉ names) {d : Device}
    {table rowId : Text} (hkey : OrdinaryKey (LocalStore.rowKey table rowId))
    (h : ∀ row, d.store.getRow table rowId = some row →
      SoundRow names (LocalStore.rowKey table rowId) row)
    (hnames : PutsOf names columns) (c : Stamp Text) :
    IsItsOps schema (d.store.getRow table rowId)
        (some (putRowOf d table rowId columns (stampText c)))
        (rowToSyncOp (putRowOf d table rowId columns (stampText c))).toList ↔
      (LocalWrite.put columns).KeepsPace (stampText c) (d.store.getRow table rowId) := by
  have hsound := soundRow_putRowOf h rfl hnames c
  have hpayload : (putRowOf d table rowId columns (stampText c)).payload =
      putColumns (rowForPut (d.store.getRow table rowId) table rowId
        ((d.config.schema.bind fun s => s.version).getD 0)).payload columns (stampText c) := rfl
  cases hget : d.store.getRow table rowId with
  | none =>
    rw [hget] at hpayload
    exact put_absent_iff hlww hkey hproto hsound rfl hpayload
  | some row =>
    rw [hget] at hpayload
    rw [LocalWrite.KeepsPace]
    cases hdel : row._meta.deleted with
    | true =>
      rw [if_pos rfl]
      refine put_dead_iff hlww hkey hproto (h row hget) hdel hsound rfl ?_ ⟨c, rfl⟩
      rw [hpayload, rowForPut, hdel]
      rfl
    | false =>
      rw [if_neg (by simp)]
      refine put_live_iff hlww hkey hproto (h row hget) hdel hsound rfl ?_
      rw [hpayload, rowForPut, hdel]
      rfl

end Put

/-! ## The run of a write -/

/-- The clock a write starts from: the engine's, or the stored one if that is later. -/
def Device.refreshedClock (d : Device) : Hlc :=
  match d.store.metadata.hlc with
  | none => d.hlc
  | some saved =>
    if isNonPos (hlcCompareStr saved (hlcSerialize d.hlc)) then d.hlc
    else { hlcParse saved with nodeId := d.config.deviceId }

/-- The stamp that a write gets when the wall clock shows `wall`. -/
def Device.nextStamp (d : Device) (wall : ℕ) : Text := hlcSerialize (hlcNow wall d.refreshedClock)

/-- The engine's clock is a clock, and the stored one is a serialized stamp. -/
structure Ticking (d : Device) : Prop where
  clock : ∃ c : Stamp Text, d.hlc = .ofStamp c
  saved : ∀ t, d.store.metadata.hlc = some t → Serialized t

theorem Ticking.exists_nextStamp {d : Device} (h : Ticking d) (wall : ℕ) :
    ∃ c : Stamp Text, d.nextStamp wall = stampText c := by
  have hrefreshed : ∃ c : Stamp Text, d.refreshedClock = .ofStamp c := by
    rw [Device.refreshedClock]
    cases hsaved : d.store.metadata.hlc with
    | none => exact h.clock
    | some saved =>
      dsimp only
      split_ifs
      · exact h.clock
      · refine ⟨⟨(stampOf saved).ts, (stampOf saved).counter, d.config.deviceId⟩, ?_⟩
        rw [(h.saved saved hsaved).hlcParse_eq]
        rfl
  obtain ⟨c, hc⟩ := hrefreshed
  refine ⟨c.tick wall, ?_⟩
  rw [Device.nextStamp, hc, hlcNow_ofStamp]
  rfl

theorem refreshHlcFromLocal_eq :
    refreshHlcFromLocal = Proc.modify fun d : Device => { d with hlc := d.refreshedClock } := by
  refine congrArg Proc.modify (funext fun d => ?_)
  rw [Device.refreshedClock]
  cases d.store.metadata.hlc with
  | none => rfl
  | some saved =>
    dsimp only
    split_ifs <;> rfl

/-- A row is stored, and its op is enqueued. -/
structure Committed (store : LocalStore) (row : Row) (store' : LocalStore) : Prop where
  rows : store'.rows = store.rows.set (LocalStore.keyOf row) row
  ops : store'.queuedOps = store.queuedOps ++ (rowToSyncOp row).toList

theorem Committed.promoted {store : LocalStore} {d : Device} (h : Committed store row d.store) :
    Committed store row d.promoted.store := by
  refine ⟨?_, ?_⟩
  · rw [promoted_eq]
    exact h.rows
  · rw [LocalStore.queuedOps, queued_promoted]
    exact h.ops

theorem queuedOps_commitLocalMutation (store : LocalStore) (row : Row) (change : ChangeEntry) :
    (store.commitLocalMutation row change).queuedOps = store.queuedOps ++ change.ops := by
  rw [LocalStore.queuedOps, LocalStore.queuedOps, LocalStore.queued, LocalStore.queued,
    LocalStore.commitLocalMutation]
  cases hp : store.pendingBatch with
  | none => simp [LocalStore.joinBatch]
  | some p => simp [LocalStore.joinBatch]

section Run

variable {W : Type} {reply : W → (c : Call) → Reply c × W} {d : Device} {w : W}

/-- **A sound row is stored with its op, if it has one.** -/
theorem wp_storeMutation_committed (h : SoundRow names key row) :
    (storeMutation row).wp (Env.ofReply reply) (fun _ d' _ => Committed d.store row d'.store)
      (fun _ _ _ => False) d w := by
  rw [storeMutation]
  split
  · rename_i op hlc hop htruthy
    rw [commitLocalMutation, wp_bind, wp_generateId]
    rintro w₁ - uuid w₂ -
    refine ⟨trivial, ?_⟩
    rw [wp_bind, wp_now]
    rintro w₃ - ts w₄ -
    refine ⟨trivial, ?_⟩
    rw [wp_bind, wp_modify, wp_bind, wp_get, Proc.wp_when]
    refine (fun hstored : Committed d.store row _ => ⟨fun _ => hstored.promoted, fun _ => hstored⟩) ?_
    refine ⟨rfl, ?_⟩
    rw [hop]
    exact queuedOps_commitLocalMutation _ _ _
  · rename_i hnot
    rw [wp_modifyStore]
    have hnone : rowToSyncOp row = none := by
      cases hop : rowToSyncOp row with
      | none => rfl
      | some op =>
        exact absurd (truthy_of_ne_nil (getRowHlc_ne_nil h hop)) (hnot op _ hop)
    refine ⟨rfl, ?_⟩
    rw [hnone]
    exact (append_nil _).symm

variable {table rowId : Text}

theorem wp_putNow_committed
    (h : Held names (LocalStore.rowKey table rowId) (d.store.getRow table rowId))
    (hclock : Ticking d) {columns : List (Text × JsValue)} (hnames : PutsOf names columns) :
    (putNow table rowId columns).wp (Env.ofReply reply)
      (fun _ d' _ => Committed d.store
        (putRowOf d table rowId columns (d.nextStamp (reply w .now).1)) d'.store)
      (fun _ _ _ => False) d w := by
  rw [putNow, refreshHlcFromLocal_eq, wp_bind, wp_modify, wp_bind, wp_now]
  rintro w₁ rfl wall w₂ hans
  obtain rfl : wall = (reply w .now).1 := congrArg Prod.fst hans
  refine ⟨trivial, ?_⟩
  rw [wp_bind, wp_modify, wp_bind, wp_get, wp_bind]
  obtain ⟨c, hc⟩ := hclock.exists_nextStamp (reply w .now).1
  have hsound := soundRow_putRowOf h.sound rfl hnames c
  rw [← hc] at hsound
  exact wp_mono (wp_storeMutation_committed hsound) (fun _ _ _ hx => hx) fun _ _ _ hx => hx

/-- A delete has nothing to do, or stores a tombstone. -/
def Removed (store : LocalStore) (table rowId deviceId stamp : Text) (store' : LocalStore) : Prop :=
  store' = store ∧ (∀ row, store.getRow table rowId = some row → row._meta.deleted = true) ∨
    ∃ row, store.getRow table rowId = some row ∧ row._meta.deleted = false ∧
      Committed store (tombstoneOf row deviceId stamp) store'

theorem wp_deleteNow_removed
    (h : Held names (LocalStore.rowKey table rowId) (d.store.getRow table rowId))
    (hclock : Ticking d) :
    (deleteNow table rowId).wp (Env.ofReply reply)
      (fun _ d' _ => Removed d.store table rowId d.config.deviceId (d.nextStamp (reply w .now).1)
        d'.store) (fun _ _ _ => False) d w := by
  rw [deleteNow, refreshHlcFromLocal_eq, wp_bind, wp_modify, wp_bind, wp_get]
  dsimp only
  cases hget : d.store.getRow table rowId with
  | none => exact .inl ⟨rfl, fun row hrow => absurd (hget.symm.trans hrow) (by simp)⟩
  | some row =>
    dsimp only
    split_ifs with hdel
    · refine .inl ⟨rfl, fun row' hrow' => ?_⟩
      rw [← some.inj (hget.symm.trans hrow')]
      exact hdel
    · rw [wp_bind, wp_now]
      rintro w₁ rfl wall w₂ hans
      obtain rfl : wall = (reply w .now).1 := congrArg Prod.fst hans
      refine ⟨trivial, ?_⟩
      rw [wp_bind, wp_modify, wp_bind, wp_get, wp_bind]
      obtain ⟨c, hc⟩ := hclock.exists_nextStamp (reply w .now).1
      have hsound := (Held.deleted (hget ▸ h) d.config.deviceId c).sound _ rfl
      rw [← hc] at hsound
      exact wp_mono (wp_storeMutation_committed hsound)
        (fun _ _ _ hx => .inr ⟨row, hget, by simpa using hdel, hx⟩) fun _ _ _ hx => hx

variable (reply w) in
/-- **A local write is the op it publishes exactly if it keeps pace** with the row as it was. -/
theorem local_write_is_its_op_iff {schema : Option DatabaseSchemaDefinition}
    (hheld : Held names (LocalStore.rowKey table rowId) (d.store.getRow table rowId))
    (hkey : OrdinaryKey (LocalStore.rowKey table rowId)) (hproto : protoName ∉ names)
    (hclock : Ticking d) (hlww : AllLww schema names) (write : LocalWrite)
    (hnames : ∀ columns, write = .put columns → PutsOf names columns) :
    ∃ d' w' ops, (write.method table rowId d).exec reply w = (.ok (), d', w') ∧
      d'.store.queuedOps = d.store.queuedOps ++ ops ∧
      (IsItsOps schema (d.store.getRow table rowId) (d'.store.getRow table rowId) ops ↔
        write.KeepsPace (d.nextStamp (reply w .now).1) (d.store.getRow table rowId)) := by
  obtain ⟨c, hc⟩ := hclock.exists_nextStamp (reply w .now).1
  -- a committed row is found under the key of the write
  have hfound : ∀ {row : Row} {store' : LocalStore},
      SoundRow names (LocalStore.rowKey table rowId) row → Committed d.store row store' →
      store'.getRow table rowId = some row := by
    intro row store' hsound hcommit
    rw [LocalStore.getRow, hcommit.rows, hsound.key, Record.get_set_self]
  cases write with
  | put columns =>
    have hwp : ((LocalWrite.put columns).method table rowId).wp (Env.ofReply reply)
        (fun _ d' _ => Committed d.store
          (putRowOf d table rowId columns (d.nextStamp (reply w .now).1)) d'.store)
        (fun _ _ _ => False) d w := by
      rw [LocalWrite.method, wp_bind]
      exact wp_putNow_committed hheld hclock (hnames columns rfl)
    obtain ⟨⟨⟩, d', w', hexec, hcommit⟩ := Proc.exec_of_wp hwp
    rw [hc] at hcommit ⊢
    have hsound := soundRow_putRowOf hheld.sound rfl (hnames columns rfl) c
    refine ⟨d', w', _, hexec, hcommit.ops, ?_⟩
    rw [hfound hsound hcommit]
    exact put_isItsOps_iff hlww hproto hkey hheld.sound (hnames columns rfl) c
  | delete =>
    have hwp : (LocalWrite.delete.method table rowId).wp (Env.ofReply reply)
        (fun _ d' _ => Removed d.store table rowId d.config.deviceId (d.nextStamp (reply w .now).1)
          d'.store) (fun _ _ _ => False) d w := by
      rw [LocalWrite.method, wp_bind]
      exact wp_deleteNow_removed hheld hclock
    obtain ⟨⟨⟩, d', w', hexec, hend⟩ := Proc.exec_of_wp hwp
    rcases hend with ⟨hstore, hdead⟩ | ⟨row, hrow, hlive, hcommit⟩
    · refine ⟨d', w', [], hexec, by rw [hstore, append_nil], ?_⟩
      rw [hstore]
      refine ⟨fun _ row hrow hlive => absurd ((hdead row hrow).symm.trans hlive) (by simp),
        fun _ => ?_⟩
      cases d.store.getRow table rowId with
      | none => exact .none
      | some row => exact .some ⟨rfl, fun col => rfl⟩
    · rw [hc] at hcommit ⊢
      have hbefore := hheld.sound row hrow
      have hsound := (Held.deleted (hrow ▸ hheld) d.config.deviceId c).sound _ rfl
      refine ⟨d', w', _, hexec, hcommit.ops, ?_⟩
      have hdeleted : (tombstoneOf row d.config.deviceId (stampText c))._meta.deleted = true := rfl
      have hop := rowToSyncOp_dead hdeleted rfl (stampText_ne_nil c)
      rw [hfound hsound hcommit, hrow, hop, toList_some,
        isItsOps_singleton (ordinary_rowToSyncOp hsound hkey hproto hop)]
      have hiff : ∀ v, RowIsOp schema v (some row) (.delete row._meta.table row._meta.rowId
          (stampText c)) (tombstoneOf row d.config.deviceId (stampText c)) ↔ _ := fun v =>
        rowIsOp_delete hbefore hlive ⟨c, rfl⟩ d.config.deviceId
      constructor
      · intro hall row' hrow' _
        obtain rfl := some.inj hrow'
        exact (hiff 0).mp (hall 0)
      · exact fun hpace v => (hiff v).mpr (hpace row rfl hlive)

end Run

/-! ### A put over a change, and a put without columns -/

theorem allLww_none (names : Set Text) : AllLww none names := fun _ _ _ => rfl

/-- The columns of a plain object. -/
def columnNames : Set Text := {name | name ≠ protoName}

theorem putsOf_columnNames (columns : List (Text × JsValue)) : PutsOf columnNames columns :=
  fun p hp => of_decide_eq_true (p := p.1 ≠ protoName) (mem_filter.mp hp).2

theorem ordinaryKey_small : OrdinaryKey (LocalStore.rowKey [116] [49]) := by
  intro table rowId hkey
  have hlength : table.length + rowId.length = 2 := by
    have := congrArg List.length hkey
    simp only [LocalStore.rowKey, length_append, length_cons, length_nil] at this
    omega
  have hlong : ∀ name ∈ inheritedNames, 2 < name.length := by decide
  exact ⟨fun h => absurd (hlong _ h) (by omega), fun h => absurd (hlong _ h) (by omega)⟩

/-- An engine of `"a"` that has one row. -/
def engineWith (row : Row) : Device :=
  openEngine configOfA 1000 (LocalStore.empty.putRow row)

theorem ticking_engineWith (row : Row) : Ticking (engineWith row) :=
  ⟨⟨⟨1000, 0, [97]⟩, rfl⟩, fun t ht => absurd (show none = some t from ht) (by simp)⟩

/-- A tombstone of the row `"1"` of the table `"t"`. -/
def deletedAtStamp (st : Stamp Text) : Row := blankRow [116] [49] 1 true (some (stampText st))

theorem held_rowAtStamp (st : Stamp Text) :
    Held columnNames (LocalStore.rowKey [116] [49]) (some (rowAtStamp st)) := by
  have happly : applyToRow none (.upsert [116] [49] (Record.set ∅ [120] ⟨.null, stampText st⟩)) 1
      none = .ok (some (rowAtStamp st)) := rfl
  refine Held.merged .absent rfl (fun c hc => ?_) (allLww_none _) (fun t ht => ?_) happly
  · rw [mem_singleton.mp hc]
    exact (by decide : ([120] : Text) ≠ protoName)
  · exact ⟨st, (mem_singleton.mp ht).symm⟩

theorem held_deletedAtStamp (st : Stamp Text) :
    Held columnNames (LocalStore.rowKey [116] [49]) (some (deletedAtStamp st)) := by
  have happly : applyToRow none (.delete [116] [49] (stampText st)) 1 none =
      .ok (some (deletedAtStamp st)) := rfl
  refine Held.merged .absent rfl (fun c hc => absurd hc not_mem_nil) (allLww_none _)
    (fun t ht => ?_) happly
  exact ⟨st, (mem_singleton.mp ht).symm⟩

/-- The clock of the engine stands at one second, and the row was changed half a second before. -/
theorem put_over_a_change_is_its_op :
    ∃ d' w' ops, ((LocalWrite.put [([121], .bool true)]).method [116] [49]
        (engineWith (rowAtStamp earlierStamp))).exec (Inbox.emptyRemote 1000) ⟨none, []⟩ =
          (.ok (), d', w') ∧
      d'.store.queuedOps = (engineWith (rowAtStamp earlierStamp)).store.queuedOps ++ ops ∧
      IsItsOps none (some (rowAtStamp earlierStamp)) (d'.store.getRow [116] [49]) ops := by
  have hget : (engineWith (rowAtStamp earlierStamp)).store.getRow [116] [49] =
      some (rowAtStamp earlierStamp) := rfl
  obtain ⟨d', w', ops, hexec, hops, hiff⟩ := local_write_is_its_op_iff
    (Inbox.emptyRemote 1000) ⟨none, []⟩ (hget ▸ held_rowAtStamp earlierStamp) ordinaryKey_small
    (not_not_intro rfl) (ticking_engineWith _) (allLww_none _) (.put [([121], .bool true)])
    fun columns _ => putsOf_columnNames columns
  refine ⟨d', w', ops, hexec, hops, hiff.mpr fun col e he => ?_⟩
  have hcol : [120] = col ∧ (⟨.null, stampText earlierStamp⟩ : ColumnEntry) = e := by
    rw [rowAtStamp, Record.get_set] at he
    split_ifs at he with h
    · exact ⟨h, some.inj he⟩
    · exact absurd he (by simp)
  obtain ⟨rfl, rfl⟩ := hcol
  rfl

/-- **A put without columns revives a tombstone**, and there is no op that would tell a peer. -/
theorem empty_put_revives :
    Held columnNames (LocalStore.rowKey [116] [49])
        ((engineWith (deletedAtStamp earlierStamp)).store.getRow [116] [49]) ∧
      Ticking (engineWith (deletedAtStamp earlierStamp)) ∧
      ∃ d' w', ((LocalWrite.put []).method [116] [49]
          (engineWith (deletedAtStamp earlierStamp))).exec (Inbox.emptyRemote 1000) ⟨none, []⟩ =
            (.ok (), d', w') ∧
        d'.store.queuedOps = (engineWith (deletedAtStamp earlierStamp)).store.queuedOps ++ [] ∧
        ¬ IsItsOps none ((engineWith (deletedAtStamp earlierStamp)).store.getRow [116] [49])
          (d'.store.getRow [116] [49]) [] := by
  refine ⟨held_deletedAtStamp earlierStamp, ticking_engineWith _, _, _, rfl, rfl, ?_⟩
  intro hrel
  have hflag : ∀ {r s : Option Row}, IsItsOps none r s [] →
      r.map (fun row => row._meta.deleted) = s.map fun row => row._meta.deleted := by
    rintro r s (hsame | _)
    · exact congrArg some hsame.1
    · rfl
  exact absurd (hflag hrel) (by decide)

end Interocitor
