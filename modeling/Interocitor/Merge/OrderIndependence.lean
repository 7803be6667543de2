import Interocitor.Merge.PlainKeys
import Interocitor.Merge.RowSimulation

/-!
# When merging ops in any order gives the same rows

Peers receive the same ops in different orders, so the rows they end with should
not depend on the order.  They can: an op that brings a deleted row back erases the
stamp of the delete, and an old column arriving after that is accepted although the
same column arriving before it was rejected (`mergeAll_order_dependent`).

`mergeAll_order_independent_iff` is the exact boundary.  Fix a row and let `d` be
its newest delete.  If some upsert carries a column newer than `d`, then every column
whose newest entry is *not* newer than `d` must have that entry in two upserts which
each carry a column newer than `d`.  For rows without deletes, and for rows whose
newest delete is newer than everything, there is no condition.  The tables are plain
objects, and the ops have ordinary names.
-/

namespace Interocitor

open CodeUnits OrderedRecord HybridClock LwwRow List Option
open PlainKeys (mapsOf tablesOf mapsOf_tablesOf)
open PlainObjects (PlainObject)

/-- Folding `applyOp` over a list of ops, without a schema, from empty tables. -/
def mergeAll (schemaVersion : ℕ) (ops : List Op) : Except MergeError Tables :=
  ops.foldlM (fun tables op => (applyOp tables op schemaVersion none).map Prod.snd) ∅

/-! ## What "the same rows" means -/

/-- The same stamp, and the same value as far as the merge engine can tell. -/
def SameEntry (a b : ColumnEntry) : Prop :=
  a.hlc = b.hlc ∧ (a.value = b.value ∨ columnValuesEqual a.value b.value = true)

/-- The same deleted flag, the same delete stamp and the same columns. -/
structure SameRow (a b : Row) : Prop where
  deleted : a._meta.deleted = b._meta.deleted
  deletedHlc : a._meta.deletedHlc = b._meta.deletedHlc
  column : ∀ col, Option.Rel SameEntry (a.payload.get col) (b.payload.get col)

/-- The same rows in every table. -/
def SameRows (s t : Tables) : Prop :=
  ∀ table rowId, Option.Rel SameRow (rowAt s table rowId) (rowAt t table rowId)

/-- Every order of the ops merges without an error into the plain object `{}`, and any
two orders give the same rows. -/
def OrderIndependent (schemaVersion : ℕ) (ops : List Op) : Prop :=
  ∀ ops₁ ops₂, ops₁.Perm ops → ops₂.Perm ops →
    ∃ s t, PlainKeys.foldOps schemaVersion none ops₁ .empty = .ok s ∧
      PlainKeys.foldOps schemaVersion none ops₂ .empty = .ok t ∧ SameRows (mapsOf s) (mapsOf t)

/-- Entries of one row and column with one stamp carry equal values. -/
def ValuesAgree (a b : Op) : Prop :=
  a.table = b.table → a.rowId = b.rowId → ∀ col x y, a.entryAt col = some x →
    b.entryAt col = some y → x.hlc = y.hlc →
      columnValuesEqual x.value y.value = true ∧ columnValuesEqual y.value x.value = true

theorem ValuesAgree.symm {a b : Op} (h : ValuesAgree a b) : ValuesAgree b a := by
  intro ht hr col x y hx hy hxy
  exact (h ht.symm hr.symm col y x hy hx hxy.symm).symm

instance : Std.Symm ValuesAgree := ⟨fun _ _ h => h.symm⟩

/-! ## The condition on the ops -/

/-- The ops that address one row. -/
def forRow (table rowId : Text) (ops : List Op) : List Op :=
  ops.filter fun op => decide (op.table = table ∧ op.rowId = rowId)

/-- The op carries a column newer than `d`. -/
def Op.newerThan (d : Text) : Op → Bool
  | .upsert _ _ columns => columns.values.any fun e => isPos (hlcCompareStr e.hlc d)
  | .delete _ _ _ => false

/-- `d` is the newest delete among the ops. -/
def NewestDelete (ops : List Op) (d : Text) : Prop :=
  (∃ table rowId, Op.delete table rowId d ∈ ops) ∧
    ∀ table rowId e, Op.delete table rowId e ∈ ops → isPos (hlcCompareStr e d) = false

/-- `e` is a newest entry of the column among the ops. -/
def NewestEntry (ops : List Op) (col : Text) (e : ColumnEntry) : Prop :=
  (∃ op ∈ ops, op.entryAt col = some e) ∧
    ∀ op ∈ ops, ∀ e', op.entryAt col = some e' → isPos (hlcCompareStr e'.hlc e.hlc) = false

/-- The condition on the ops of one row: if some upsert carries a column newer than
the newest delete, then a newest entry that is not newer than the delete is carried by
two upserts which each carry a column newer than it. -/
def RestoredTwice (ops : List Op) : Prop :=
  ∀ d, NewestDelete ops d → (∃ op ∈ ops, op.newerThan d = true) →
    ∀ col e, NewestEntry ops col e → isPos (hlcCompareStr e.hlc d) = false →
      2 ≤ ops.countP fun op =>
        ((op.entryAt col).any fun x => decide (x.hlc = e.hlc)) && op.newerThan d

/-! ## The condition, without values -/

theorem cols_toAct (op : Op) (col : Text) : op.toAct.cols col = stampAt (op.entryAt col) := by
  cases op <;> rfl

theorem newerThan_iff {op : Op} (hop : op.Serialized) {d : Text} (hd : Serialized d) :
    op.newerThan d = true ↔ op.toAct.Fresh (stampOf d) := by
  cases op with
  | delete t r hlc =>
    rw [Op.newerThan]
    refine ⟨fun h => absurd h (by simp), ?_⟩
    rintro ⟨c, hc⟩
    exact absurd hc not_lt_bot
  | upsert t r columns =>
    rw [Op.newerThan, List.any_eq_true]
    constructor
    · rintro ⟨e, he, hlt⟩
      obtain ⟨col, hcol⟩ := Record.mem_values_iff.mp he
      refine ⟨col, ?_⟩
      rw [cols_toAct, Op.entryAt, hcol, stampAt_some, WithBot.coe_lt_coe]
      exact ((hop.entry hcol).isPos_compare hd).mp hlt
    · rintro ⟨col, hlt⟩
      rw [cols_toAct, Op.entryAt] at hlt
      cases hcol : columns.get col with
      | none =>
        rw [hcol] at hlt
        exact absurd hlt not_lt_bot
      | some e =>
        rw [hcol, stampAt_some, WithBot.coe_lt_coe] at hlt
        exact ⟨e, Record.mem_values_iff.mpr ⟨col, hcol⟩,
          ((hop.entry hcol).isPos_compare hd).mpr hlt⟩

variable {ops : List Op}

theorem del_mem_iff {s : Stamp Text} :
    Act.del s ∈ ops.map Op.toAct ↔ ∃ table rowId h, Op.delete table rowId h ∈ ops ∧
      stampOf h = s := by
  rw [List.mem_map]
  constructor
  · rintro ⟨op, hop, heq⟩
    cases op with
    | upsert t r columns => exact absurd heq (by simp [Op.toAct])
    | delete t r h => exact ⟨t, r, h, hop, Act.del.inj heq⟩
  · rintro ⟨t, r, h, hop, rfl⟩
    exact ⟨_, hop, rfl⟩

section Condition

variable {ops : List Op} (hser : ∀ op ∈ ops, op.Serialized)

include hser

theorem serialized_of_delete_mem {table rowId h : Text} (hop : Op.delete table rowId h ∈ ops) :
    Serialized h :=
  hser _ hop h mem_cons_self

theorem newestDelete_iff (d : Text) : NewestDelete ops d ↔ Serialized d ∧
    Act.del (stampOf d) ∈ ops.map Op.toAct ∧
      ∀ e, Act.del e ∈ ops.map Op.toAct → e ≤ stampOf d := by
  constructor
  · rintro ⟨⟨t, r, hd⟩, hmax⟩
    have hds := serialized_of_delete_mem hser hd
    refine ⟨hds, del_mem_iff.mpr ⟨t, r, d, hd, rfl⟩, fun e he => ?_⟩
    obtain ⟨t', r', h, hop, rfl⟩ := del_mem_iff.mp he
    have hle := hmax t' r' h hop
    rw [← Bool.not_eq_true, (serialized_of_delete_mem hser hop).isPos_compare hds] at hle
    exact not_lt.mp hle
  · rintro ⟨hds, hmem, hmax⟩
    obtain ⟨t, r, h, hop, heq⟩ := del_mem_iff.mp hmem
    have hh := serialized_of_delete_mem hser hop
    rw [hh.stampOf_inj hds] at heq
    subst heq
    refine ⟨⟨t, r, hop⟩, fun t' r' e he => ?_⟩
    rw [← Bool.not_eq_true, (serialized_of_delete_mem hser he).isPos_compare hds, not_lt]
    exact hmax _ (del_mem_iff.mpr ⟨t', r', e, he, rfl⟩)

theorem newestEntry_iff (col : Text) (e : ColumnEntry) : NewestEntry ops col e ↔
    (∃ op ∈ ops, op.entryAt col = some e) ∧
      joinAll (ops.map Op.toAct) col = stampAt (some e) := by
  refine and_congr_right ?_
  rintro ⟨op, hop, he⟩
  have hes := (hser op hop).entry he
  have hle : stampAt (some e) ≤ joinAll (ops.map Op.toAct) col := by
    rw [← he, ← cols_toAct]
    exact cols_le_joinAll (mem_map_of_mem hop) col
  constructor
  · intro hmax
    refine le_antisymm (joinAll_le fun a ha => ?_) hle
    obtain ⟨op', hop', rfl⟩ := List.mem_map.mp ha
    rw [cols_toAct]
    cases he' : op'.entryAt col with
    | none => exact bot_le
    | some e' =>
      have h := hmax op' hop' e' he'
      rw [← Bool.not_eq_true, ((hser op' hop').entry he').isPos_compare hes, not_lt] at h
      exact WithBot.coe_le_coe.mpr h
  · intro hjoin op' hop' e' he'
    rw [← Bool.not_eq_true, ((hser op' hop').entry he').isPos_compare hes, not_lt,
      ← WithBot.coe_le_coe, ← stampAt_some, ← stampAt_some, ← hjoin, ← he', ← cols_toAct]
    exact cols_le_joinAll (mem_map_of_mem hop') col

theorem countP_restored {d : Text} (hd : Serialized d) {col : Text} {e : ColumnEntry}
    (he : Serialized e.hlc) (hjoin : joinAll (ops.map Op.toAct) col = stampAt (some e)) :
    (ops.map Op.toAct).countP (carries (stampOf d) col (joinAll (ops.map Op.toAct) col)) =
      ops.countP fun op =>
        ((op.entryAt col).any fun x => decide (x.hlc = e.hlc)) && op.newerThan d := by
  rw [countP_map]
  refine countP_congr fun op hop => ?_
  rw [Function.comp_apply, carries_iff, Bool.and_eq_true, newerThan_iff (hser op hop) hd,
    hjoin, cols_toAct]
  refine and_congr_left fun _ => ?_
  cases hx : op.entryAt col with
  | none => simp
  | some x =>
    rw [any_some, decide_eq_true_iff, stampAt_some, stampAt_some, WithBot.coe_inj]
    exact ((hser op hop).entry hx).stampOf_inj he

/-- The condition on the ops is the condition of `LwwRow` on their actions. -/
theorem restoredTwice_iff : RestoredTwice ops ↔ OrderFree (ops.map Op.toAct) := by
  constructor
  · intro h d hd hmax hfresh col hbot hle
    obtain ⟨t, r, d, hdel, rfl⟩ := del_mem_iff.mp hd
    have hds := serialized_of_delete_mem hser hdel
    obtain ⟨a, ha, hac⟩ := exists_mem_of_joinAll hbot
    obtain ⟨op, hop, rfl⟩ := List.mem_map.mp ha
    rw [cols_toAct] at hac
    cases he : op.entryAt col with
    | none =>
      rw [he] at hac
      exact absurd hac.symm hbot
    | some e =>
      rw [he] at hac
      have hes := (hser op hop).entry he
      rw [countP_restored hser hds hes hac.symm]
      refine h d ((newestDelete_iff hser d).mpr ⟨hds, hd, hmax⟩) ?_ col e
        ((newestEntry_iff hser col e).mpr ⟨⟨op, hop, he⟩, hac.symm⟩) ?_
      · obtain ⟨b, hb, hbf⟩ := hfresh
        obtain ⟨op', hop', rfl⟩ := List.mem_map.mp hb
        exact ⟨op', hop', (newerThan_iff (hser op' hop') hds).mpr hbf⟩
      · rw [← hac, stampAt_some, WithBot.coe_le_coe] at hle
        rw [← Bool.not_eq_true, hes.isPos_compare hds, not_lt]
        exact hle
  · intro h d hnd hfresh col e hne hle
    obtain ⟨hds, hd, hmax⟩ := (newestDelete_iff hser d).mp hnd
    obtain ⟨⟨op, hop, he⟩, hjoin⟩ := (newestEntry_iff hser col e).mp hne
    have hes := (hser op hop).entry he
    rw [← Bool.not_eq_true, hes.isPos_compare hds, not_lt] at hle
    rw [← countP_restored hser hds hes hjoin]
    refine h _ hd hmax ?_ col ?_ ?_
    · obtain ⟨op', hop', hf⟩ := hfresh
      exact ⟨_, mem_map_of_mem hop', (newerThan_iff (hser op' hop') hds).mp hf⟩
    · rw [hjoin, stampAt_some]
      exact WithBot.coe_ne_bot
    · rw [hjoin, stampAt_some, WithBot.coe_le_coe]
      exact hle

end Condition

/-! ## Merging a list of ops -/

theorem forRow_append (table rowId : Text) (l m : List Op) :
    forRow table rowId (l ++ m) = forRow table rowId l ++ forRow table rowId m :=
  filter_append ..

variable {table rowId : Text}

theorem mem_forRow {op : Op} :
    op ∈ forRow table rowId ops ↔ op ∈ ops ∧ op.table = table ∧ op.rowId = rowId := by
  rw [forRow, mem_filter, decide_eq_true_iff]

/-- What the merge of a list of ops leaves at one row: the run of the row's actions,
showing entries that ops of the row carry. -/
structure RowSpec (ops : List Op) (table rowId : Text) (existing : Option Row) : Prop where
  view_eq : view existing = run ((forRow table rowId ops).map Op.toAct)
  rowOk : ∀ row, existing = some row → RowOk row
  entry : ∀ row, existing = some row → ∀ col e, row.payload.get col = some e →
    ∃ op ∈ forRow table rowId ops, op.entryAt col = some e

theorem RowSpec.append_other {existing : Option Row} (h : RowSpec ops table rowId existing)
    {op : Op} (hop : ¬ (op.table = table ∧ op.rowId = rowId)) :
    RowSpec (ops ++ [op]) table rowId existing := by
  have heq : forRow table rowId (ops ++ [op]) = forRow table rowId ops := by
    rw [forRow_append]
    simp [forRow, hop]
  exact ⟨heq ▸ h.view_eq, h.rowOk, heq ▸ h.entry⟩

/-- **Merging a list of ops does not throw and runs each row's actions**, if entries
with one stamp carry equal values. -/
theorem mergeAll_spec (v : ℕ) (hser : ∀ op ∈ ops,
      op.Serialized) (hagree : ops.Pairwise ValuesAgree) :
    ∃ tables, mergeAll v ops = .ok tables ∧
      ∀ table rowId, RowSpec ops table rowId (rowAt tables table rowId) := by
  induction ops using List.reverseRecOn with
  | nil =>
    refine ⟨∅, rfl, fun table rowId => ⟨rfl, fun _ h => ?_, fun _ h => ?_⟩⟩
    · exact absurd h (by simp [rowAt])
    · exact absurd h (by simp [rowAt])
  | append_singleton ops op ih =>
    rw [pairwise_append] at hagree
    obtain ⟨tables, heq, hspec⟩ := ih (fun o ho => hser o (mem_append_left _ ho)) hagree.1
    have hold := hspec op.table op.rowId
    have hop : op.Serialized := hser op (mem_append_right _ mem_cons_self)
    obtain ⟨res, hres, hview, hok, hentry⟩ := view_applyToRow hold.rowOk hop v (by
      intro row hrow col old e ho he hh
      obtain ⟨op', hop', ho'⟩ := hold.entry row hrow col old ho
      obtain ⟨hmem, ht, hr⟩ := mem_forRow.mp hop'
      exact (hagree.2.2 op' hmem op mem_cons_self ht hr col old e ho' he hh).1)
    obtain ⟨tables', happ⟩ : ∃ tables', applyOp tables op v none = .ok (res, tables') := by
      simp only [applyOp, rowAt_of_tables_get, hres]
      cases res with
      | none => exact ⟨_, rfl⟩
      | some row => exact ⟨_, rfl⟩
    refine ⟨tables', ?_, fun table rowId => ?_⟩
    · rw [mergeAll] at heq ⊢
      rw [foldlM_append, heq]
      change ((applyOp tables op v none).map Prod.snd >>= fun t => pure t) = _
      rw [happ]
      rfl
    · have hrow := (rowAt_applyOp happ table rowId).2
      rw [hrow]
      by_cases haddr : op.table = table ∧ op.rowId = rowId
      · obtain ⟨rfl, rfl⟩ := haddr
        rw [if_pos ⟨rfl, rfl⟩]
        have hlast : op ∈ forRow op.table op.rowId (ops ++ [op]) :=
          mem_forRow.mpr ⟨mem_append_right _ mem_cons_self, rfl, rfl⟩
        have hprev : ∀ o ∈ forRow op.table op.rowId ops,
            o ∈ forRow op.table op.rowId (ops ++ [op]) := fun o ho => by
          rw [forRow_append]
          exact mem_append_left _ ho
        refine ⟨?_, fun row h => ?_, fun row h col e he => ?_⟩
        · rw [hview, hold.view_eq, forRow_append, map_append, run, run, foldl_append]
          simp [forRow]
        · cases res with
          | none => exact hold.rowOk row h
          | some row' => exact hok row h
        · cases res with
          | none =>
            obtain ⟨o, ho, hoe⟩ := hold.entry row h col e he
            exact ⟨o, hprev o ho, hoe⟩
          | some row' =>
            rcases hentry row h col e he with hcol | ⟨old, ho, hcol⟩
            · exact ⟨op, hlast, hcol⟩
            · obtain ⟨o, ho, hoe⟩ := hold.entry old ho col e hcol
              exact ⟨o, hprev o ho, hoe⟩
      · rw [if_neg haddr]
        exact (hspec table rowId).append_other haddr

/-! ## The same rows are the same views -/

theorem stampAt_eq_of_rel {a b : Option ColumnEntry} (h : Option.Rel SameEntry a b) :
    stampAt a = stampAt b := by
  cases h with
  | none => rfl
  | some hef => rw [stampAt_some, stampAt_some, hef.1]

theorem view_eq_of_sameRow {a b : Option Row} (h : Option.Rel SameRow a b) : view a = view b := by
  cases h with
  | none => rfl
  | @some x y hxy =>
    simp only [view, hxy.deletedHlc]
    cases y._meta.deletedHlc with
    | some d => rfl
    | none => exact congrArg State.live (funext fun col => stampAt_eq_of_rel (hxy.column col))

/-- Two merges whose ops all come from one agreeing list leave the same row wherever
their views agree. -/
theorem sameRow_of_view_eq {ops₁ ops₂ : List Op} (hagree : ops.Pairwise ValuesAgree)
    (h₁ : ∀ op ∈ ops₁, op ∈ ops) (h₂ : ∀ op ∈ ops₂, op ∈ ops) {a b : Option Row}
    (ha : RowSpec ops₁ table rowId a) (hb : RowSpec ops₂ table rowId b) (h : view a = view b) :
    Option.Rel SameRow a b := by
  have hvalues : ∀ x y col e f, a = some x → b = some y → x.payload.get col = some e →
      y.payload.get col = some f → e.hlc = f.hlc → SameEntry e f := by
    intro x y col e f hx hy he hf hef
    refine ⟨hef, ?_⟩
    obtain ⟨o, ho, hoe⟩ := ha.entry x hx col e he
    obtain ⟨o', ho', hoe'⟩ := hb.entry y hy col f hf
    obtain ⟨ho, hot, hor⟩ := mem_forRow.mp ho
    obtain ⟨ho', hot', hor'⟩ := mem_forRow.mp ho'
    by_cases hoo : o = o'
    · subst hoo
      rw [hoe, some.injEq] at hoe'
      exact .inl (by rw [hoe'])
    · have hva := hagree.forall (h₁ o ho) (h₂ o' ho') hoo
      exact .inr (hva (hot.trans hot'.symm) (hor.trans hor'.symm) col e f hoe hoe' hef).1
  cases a with
  | none =>
    cases b with
    | none => exact .none
    | some y =>
      simp only [view] at h
      split at h <;> exact absurd h (by simp)
  | some x =>
    have hx := ha.rowOk x rfl
    cases b with
    | none =>
      simp only [view] at h
      split at h <;> exact absurd h (by simp)
    | some y =>
      have hy := hb.rowOk y rfl
      refine .some ?_
      simp only [view] at h
      cases hdx : x._meta.deletedHlc with
      | some d =>
        cases hdy : y._meta.deletedHlc with
        | none => simp [hdx, hdy] at h
        | some d' =>
          simp only [hdx, hdy, State.dead.injEq] at h
          have hdel : x._meta.deleted = true := by rw [hx.deleted_iff, hdx]; rfl
          have hdel' : y._meta.deleted = true := by rw [hy.deleted_iff, hdy]; rfl
          refine ⟨hdel.trans hdel'.symm, ?_, fun col => ?_⟩
          · rw [hdx, hdy, ((hx.deletedHlc d hdx).stampOf_inj (hy.deletedHlc d' hdy)).mp h]
          · rw [hx.payload_deleted hdel, hy.payload_deleted hdel']
            exact .none
      | none =>
        cases hdy : y._meta.deletedHlc with
        | some d' => simp [hdx, hdy] at h
        | none =>
          simp only [hdx, hdy, State.live.injEq] at h
          refine ⟨?_, hdx.trans hdy.symm, fun col => ?_⟩
          · rw [hx.deleted_iff, hy.deleted_iff, hdx, hdy]
          · have hcol := congrFun h col
            cases he : x.payload.get col with
            | none =>
              cases hf : y.payload.get col with
              | none => exact .none
              | some f =>
                rw [he, hf] at hcol
                exact absurd hcol.symm WithBot.coe_ne_bot
            | some e =>
              cases hf : y.payload.get col with
              | none =>
                rw [he, hf] at hcol
                exact absurd hcol WithBot.coe_ne_bot
              | some f =>
                rw [he, hf, stampAt_some, stampAt_some, WithBot.coe_inj,
                  (hx.entry col e he).stampOf_inj (hy.entry col f hf)] at hcol
                exact .some (hvalues x y col e f rfl rfl he hf hcol)

/-! ## The theorem -/

theorem forRow_perm {ops₁ ops₂ : List Op} (h : ops₁.Perm ops₂) (table rowId : Text) :
    (forRow table rowId ops₁).Perm (forRow table rowId ops₂) :=
  h.filter _

/-- Every order of a row's actions is the order of the row's ops in some order of all
ops. -/
theorem exists_perm_forRow (ops : List Op) (table rowId : Text)
    {acts : List (Act Text (Stamp Text))}
    (h : acts.Perm ((forRow table rowId ops).map Op.toAct)) :
    ∃ ops', ops'.Perm ops ∧ (forRow table rowId ops').map Op.toAct = acts := by
  have hmap : List.Forall₂ (fun a op => a = Op.toAct op) ((forRow table rowId ops).map Op.toAct)
      (forRow table rowId ops) := by
    rw [forall₂_map_left_iff, forall₂_same]
    exact fun _ _ => rfl
  obtain ⟨l, hl, hperm⟩ := perm_comp_forall₂ h hmap
  have hself : forRow table rowId l = l := by
    rw [forRow, filter_eq_self]
    intro op hop
    exact decide_eq_true (mem_forRow.mp (hperm.mem_iff.mp hop)).2
  set rest := ops.filter fun op => !decide (op.table = table ∧ op.rowId = rowId) with hrest
  have hrest' : forRow table rowId rest = [] := by
    rw [forRow, filter_eq_nil_iff]
    intro op hop haddr
    have hnot := (mem_filter.mp hop).2
    rw [haddr] at hnot
    exact absurd hnot (by simp)
  refine ⟨l ++ rest, (hperm.append_right rest).trans (filter_append_perm _ ops), ?_⟩
  rw [forRow_append, hself, hrest', append_nil]
  clear hself hperm h hmap
  induction hl with
  | nil => rfl
  | cons hab _ ih => rw [map_cons, ih, hab]

theorem foldOps_of_mergeAll {v : ℕ} (hnames : ∀ op ∈ ops, op.Ordinary) {tables : Tables}
    (h : mergeAll v ops = .ok tables) :
    PlainKeys.foldOps v none ops .empty = .ok (tablesOf tables) := by
  rw [mergeAll] at h
  exact (PlainKeys.foldOps_eq v none hnames ∅).trans (by rw [h]; rfl)

/-- **Exactly when merging is independent of the order.** -/
theorem mergeAll_order_independent_iff (v : ℕ) {ops : List Op}
    (hser : ∀ op ∈ ops, op.Serialized) (hagree : ops.Pairwise ValuesAgree)
    (hnames : ∀ op ∈ ops, op.Ordinary) :
    OrderIndependent v ops ↔ ∀ table rowId, RestoredTwice (forRow table rowId ops) := by
  have hmerge : ∀ ops', ops'.Perm ops → ∃ tables,
      PlainKeys.foldOps v none ops' .empty = .ok (tablesOf tables) ∧
        ∀ table rowId, RowSpec ops' table rowId (rowAt tables table rowId) := by
    intro ops' hp
    obtain ⟨tables, hok, hspec⟩ := mergeAll_spec v (fun op hop => hser op (hp.mem_iff.mp hop))
      ((hp.pairwise_iff ValuesAgree.symm).mpr hagree)
    exact ⟨tables, foldOps_of_mergeAll (fun op hop => hnames op (hp.mem_iff.mp hop)) hok, hspec⟩
  have hserRow : ∀ table rowId, ∀ op ∈ forRow table rowId ops, op.Serialized :=
    fun table rowId op hop => hser op (mem_forRow.mp hop).1
  constructor
  · intro h table rowId
    rw [restoredTwice_iff (hserRow table rowId)]
    refine orderFree_of_run_perm fun acts hacts => ?_
    obtain ⟨ops', hperm, rfl⟩ := exists_perm_forRow ops table rowId hacts
    obtain ⟨s, t, hs, ht, hsame⟩ := h ops' ops hperm (List.Perm.refl ops)
    obtain ⟨s', hs', hspec⟩ := hmerge ops' hperm
    obtain ⟨t', ht', hspec'⟩ := hmerge ops (List.Perm.refl ops)
    obtain rfl : s = tablesOf s' := Except.ok.inj (hs.symm.trans hs')
    obtain rfl : t = tablesOf t' := Except.ok.inj (ht.symm.trans ht')
    rw [mapsOf_tablesOf, mapsOf_tablesOf] at hsame
    rw [← (hspec table rowId).view_eq, ← (hspec' table rowId).view_eq]
    exact view_eq_of_sameRow (hsame table rowId)
  · intro h ops₁ ops₂ hperm₁ hperm₂
    obtain ⟨s, hs, hspec⟩ := hmerge ops₁ hperm₁
    obtain ⟨t, ht, hspec'⟩ := hmerge ops₂ hperm₂
    refine ⟨tablesOf s, tablesOf t, hs, ht, fun table rowId => ?_⟩
    rw [mapsOf_tablesOf, mapsOf_tablesOf]
    have hfree := (restoredTwice_iff (hserRow table rowId)).mp (h table rowId)
    refine sameRow_of_view_eq hagree (fun op hop => hperm₁.mem_iff.mp hop)
      (fun op hop => hperm₂.mem_iff.mp hop) (hspec table rowId) (hspec' table rowId) ?_
    rw [(hspec table rowId).view_eq, (hspec' table rowId).view_eq,
      run_of_orderFree hfree ((forRow_perm hperm₁ table rowId).map _),
      run_of_orderFree hfree ((forRow_perm hperm₂ table rowId).map _)]

/-! ## Two orders that differ -/

/-- A stamp text of the device `a`. -/
def exampleStamp (ts : ℕ) : Text := stampText ⟨ts, 0, [97]⟩

theorem serialized_exampleStamp (ts : ℕ) : Serialized (exampleStamp ts) := ⟨_, rfl⟩

/-- One column `c` with a null value. -/
def exampleColumn (c : CodeUnit) (ts : ℕ) : Record Text ColumnEntry :=
  (∅ : Record Text ColumnEntry).set [c] ⟨.null, exampleStamp ts⟩

/-- A row `r` of table `t`: deleted at 5, column `x` written at 10, column `y` at 3. -/
def resurrectionOps : List Op :=
  [.delete [116] [114] (exampleStamp 5), .upsert [116] [114] (exampleColumn 120 10),
    .upsert [116] [114] (exampleColumn 121 3)]

theorem serialized_resurrectionOps : ∀ op ∈ resurrectionOps, op.Serialized := by
  intro op hop s hs
  simp only [resurrectionOps, mem_cons, not_mem_nil, or_false] at hop
  rcases hop with rfl | rfl | rfl <;>
  · rw [mem_singleton.mp hs]
    exact serialized_exampleStamp _

theorem valuesAgree_resurrectionOps : resurrectionOps.Pairwise ValuesAgree := by
  have hnull : ∀ op ∈ resurrectionOps, ∀ col e, op.entryAt col = some e → e.value = .null := by
    intro op hop col e he
    simp only [resurrectionOps, mem_cons, not_mem_nil, or_false] at hop
    rcases hop with rfl | rfl | rfl
    · exact absurd he (by simp [Op.entryAt])
    · simp only [Op.entryAt, exampleColumn, Record.get_set] at he
      split_ifs at he
      · exact (some.inj he) ▸ rfl
      · exact absurd he (by simp)
    · simp only [Op.entryAt, exampleColumn, Record.get_set] at he
      split_ifs at he
      · exact (some.inj he) ▸ rfl
      · exact absurd he (by simp)
  refine pairwise_of_forall_mem_list fun a ha b hb _ _ col x y hx hy _ => ?_
  rw [hnull a ha col x hx, hnull b hb col y hy]
  exact ⟨rfl, rfl⟩

/-- Whether the example row shows column `y`. -/
def showsOldColumn (tables : Tables) : Option Bool :=
  (rowAt tables [116] [114]).map fun row => (row.payload.get [121]).isSome

theorem map_eq_of_rel {α β : Type*} {R : α → α → Prop} {a b : Option α} {f : α → β}
    (h : Option.Rel R a b) (hf : ∀ x y, R x y → f x = f y) : a.map f = b.map f := by
  cases h with
  | none => rfl
  | some hxy => rw [map_some, map_some, hf _ _ hxy]

theorem showsOldColumn_eq {s t : Tables} (h : SameRows s t) :
    showsOldColumn s = showsOldColumn t := by
  refine map_eq_of_rel (h [116] [114]) fun x y hxy => ?_
  have hcol := map_eq_of_rel (f := fun _ => ()) (hxy.column [121]) fun _ _ _ => rfl
  rw [← isSome_map (f := fun _ => ()), hcol, isSome_map]

/-- **Merging can depend on the order.**  With the old column last the row shows both
columns; with the old column between the delete and the new column it shows one. -/
theorem mergeAll_order_dependent :
    ¬ ∀ (v : ℕ) (ops : List Op), (∀ op ∈ ops, op.Serialized) → ops.Pairwise ValuesAgree →
      OrderIndependent v ops := by
  intro h
  obtain ⟨s, t, hs, ht, hsame⟩ := h 1 resurrectionOps serialized_resurrectionOps
    valuesAgree_resurrectionOps resurrectionOps
    [.delete [116] [114] (exampleStamp 5), .upsert [116] [114] (exampleColumn 121 3),
      .upsert [116] [114] (exampleColumn 120 10)] (List.Perm.refl _)
    ((List.Perm.swap _ _ _).cons _)
  have hlast : (PlainKeys.foldOps 1 none resurrectionOps .empty).toOption.map
      (fun tables => showsOldColumn (mapsOf tables)) = some (some true) := by
    decide
  have hbetween : (PlainKeys.foldOps 1 none [.delete [116] [114] (exampleStamp 5),
      .upsert [116] [114] (exampleColumn 121 3),
      .upsert [116] [114] (exampleColumn 120 10)] .empty).toOption.map
        (fun tables => showsOldColumn (mapsOf tables)) = some (some false) := by
    decide
  rw [hs] at hlast
  rw [ht] at hbetween
  have h₁ : showsOldColumn (mapsOf s) = some true := some.inj hlast
  have h₂ : showsOldColumn (mapsOf t) = some false := some.inj hbetween
  rw [showsOldColumn_eq hsame, h₂] at h₁
  exact absurd h₁ (by simp)

/-- The boundary at the example: its ops satisfy the assumptions. -/
theorem resurrectionOps_order_independent_iff :
    OrderIndependent 1 resurrectionOps ↔
      ∀ table rowId, RestoredTwice (forRow table rowId resurrectionOps) := by
  refine mergeAll_order_independent_iff 1 serialized_resurrectionOps valuesAgree_resurrectionOps ?_
  intro op hop
  simp only [resurrectionOps, mem_cons, not_mem_nil, or_false] at hop
  rcases hop with rfl | rfl | rfl <;> exact ⟨by decide, by decide, by decide⟩

end Interocitor
