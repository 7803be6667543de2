import Interocitor.Core.Crdt
import Interocitor.Foundation.LwwRow

/-!
# A row of the merge engine is a last-writer-wins row

Forgetting values, a row of `crdt.ts` is a state of `Foundation.LwwRow`: a
tombstone is dead at its `deletedHlc`, any other row is live and shows the stamp of
each column.  Forgetting values, an op is an action on it.  `view_applyToRow` says
that `applyToRow` without a schema is `LwwRow.step` on these, that it does not throw
when entries with one stamp carry equal values, and that it keeps `RowOk`, the shape
that every row built by `applyOp` has.
-/

namespace Interocitor

open CodeUnits OrderedRecord HybridClock LwwRow Option

variable {table rowId : Text} {v : ℕ}

/-- The stamp that a column shows. -/
def stampAt (e : Option ColumnEntry) : WithBot (Stamp Text) := e.map fun e => stampOf e.hlc

@[simp] theorem stampAt_none : stampAt none = ⊥ := rfl

@[simp] theorem stampAt_some (e : ColumnEntry) : stampAt (some e) = ↑(stampOf e.hlc) := rfl

/-- A row without its values. -/
def view : Option Row → State Text (Stamp Text)
  | none => .absent
  | some row =>
    match row._meta.deletedHlc with
    | some d => .dead (stampOf d)
    | none => .live fun col => stampAt (row.payload.get col)

/-- An op without its values, as an action on the row it addresses. -/
def Op.toAct : Op → Act Text (Stamp Text)
  | .upsert _ _ columns => .ups fun col => stampAt (columns.get col)
  | .delete _ _ hlc => .del (stampOf hlc)

/-- Every stamp an op carries was produced by `hlcSerialize`. -/
def Op.Serialized (op : Op) : Prop := ∀ s ∈ op.stamps, Interocitor.Serialized s

theorem Op.Serialized.entry {op : Op} (h : op.Serialized) {col : Text} {e : ColumnEntry}
    (he : op.entryAt col = some e) : Interocitor.Serialized e.hlc := by
  cases op with
  | upsert t r columns => exact h _ (List.mem_map_of_mem (Record.mem_values_iff.mpr ⟨col, he⟩))
  | delete t r hlc => exact absurd he (by simp [Op.entryAt])

/-- The shape of a row that `applyOp` built: a tombstone has a stamp and no columns,
any other row has no delete stamp, and every stamp is serialized. -/
structure RowOk (row : Row) : Prop where
  deleted_iff : row._meta.deleted = row._meta.deletedHlc.isSome
  payload_deleted : row._meta.deleted = true → row.payload = ∅
  deletedHlc : ∀ d, row._meta.deletedHlc = some d → Serialized d
  entry : ∀ col e, row.payload.get col = some e → Serialized e.hlc

theorem stampAt_laterEntry (a b : Option ColumnEntry) :
    stampAt (laterEntry a b) = stampAt a ⊔ stampAt b := by
  cases a with
  | none =>
    rw [laterEntry, stampAt_none, bot_sup_eq]
  | some old =>
    cases b with
    | none =>
      rw [laterEntry, stampAt_none, sup_bot_eq]
      simp
    | some incoming =>
      rw [laterEntry, stampAt_some, stampAt_some]
      by_cases h : stampOf old.hlc < stampOf incoming.hlc
      · rw [if_pos h, stampAt_some, sup_eq_right.mpr (WithBot.coe_le_coe.mpr h.le)]
      · rw [if_neg h, stampAt_some, sup_eq_left.mpr (WithBot.coe_le_coe.mpr (not_lt.mp h))]

/-! ## Deletes -/

variable {row : Row}

theorem exists_newer_iff (hrow : RowOk row) {hlc : Text} (h : Serialized hlc) :
    (row.payload.values.any fun e => decide (e.hlc ≠ []) && isPos (hlcCompareStr e.hlc hlc)) =
        true ↔
      ∃ col, (↑(stampOf hlc) : WithBot (Stamp Text)) < stampAt (row.payload.get col) := by
  rw [List.any_eq_true]
  constructor
  · rintro ⟨e, he, hlt⟩
    obtain ⟨col, hcol⟩ := Record.mem_values_iff.mp he
    rw [Bool.and_eq_true, (hrow.entry col e hcol).isPos_compare h] at hlt
    refine ⟨col, ?_⟩
    rw [hcol, stampAt_some]
    exact WithBot.coe_lt_coe.mpr hlt.2
  · rintro ⟨col, hlt⟩
    cases hcol : row.payload.get col with
    | none =>
      rw [hcol] at hlt
      exact absurd hlt not_lt_bot
    | some e =>
      rw [hcol, stampAt_some, WithBot.coe_lt_coe] at hlt
      have he := hrow.entry col e hcol
      refine ⟨e, Record.mem_values_iff.mpr ⟨col, hcol⟩, ?_⟩
      rw [Bool.and_eq_true, decide_eq_true_iff, he.isPos_compare h]
      exact ⟨he.ne_nil, hlt⟩

variable {existing : Option Row}

theorem view_applyDelete (hok : ∀ row, existing = some row → RowOk row) (table rowId : Text)
    {hlc : Text} (h : Serialized hlc) (v : ℕ) :
    view ((applyDelete existing table rowId hlc v).or existing) =
        step (view existing) (.del (stampOf hlc)) ∧
      ∀ row, applyDelete existing table rowId hlc v = some row → RowOk row ∧ row.payload = ∅ := by
  have hdead : ∀ m : RowMeta, m.deleted = true → m.deletedHlc = some hlc → RowOk ⟨m, ∅⟩ := by
    intro m hd hh
    refine ⟨by rw [hd, hh]; rfl, fun _ => rfl, fun d hd' => ?_, fun col e he => ?_⟩
    · rw [hh, some.injEq] at hd'
      exact hd' ▸ h
    · exact absurd he (by simp)
  cases existing with
  | none =>
    refine ⟨rfl, fun row hrow => ?_⟩
    obtain rfl := some.inj hrow
    exact ⟨hdead _ rfl rfl, rfl⟩
  | some row =>
    have hrow : RowOk row := hok row rfl
    have hnewer := exists_newer_iff hrow h
    simp only [applyDelete]
    cases hd : row._meta.deletedHlc with
    | none =>
      have hview : view (some row) = .live fun col => stampAt (row.payload.get col) := by
        simp only [view, hd]
      rw [truthy_none, any_none, if_neg (by simp), hview, step]
      by_cases hn : ∃ col, (↑(stampOf hlc) : WithBot (Stamp Text)) < stampAt (row.payload.get col)
      · rw [if_pos (hnewer.mpr hn), if_pos hn, none_or, hview]
        exact ⟨rfl, fun _ h' => absurd h' (by simp)⟩
      · rw [if_neg (fun h' => hn (hnewer.mp h')), if_neg hn, some_or]
        refine ⟨rfl, fun row' hrow' => ?_⟩
        obtain rfl := some.inj hrow'
        exact ⟨hdead _ rfl rfl, rfl⟩
    | some d =>
      have hds : Serialized d := hrow.deletedHlc d hd
      have hview : view (some row) = .dead (stampOf d) := by simp only [view, hd]
      have hdel : row._meta.deleted = true := by rw [hrow.deleted_iff, hd]; rfl
      have hno : ¬ ∃ col,
          (↑(stampOf hlc) : WithBot (Stamp Text)) < stampAt (row.payload.get col) := by
        rintro ⟨col, hlt⟩
        rw [hrow.payload_deleted hdel, Record.get_empty] at hlt
        exact absurd hlt not_lt_bot
      rw [truthy_of_ne_nil hds.ne_nil, any_some, hview, step]
      by_cases hle : stampOf hlc ≤ stampOf d
      · rw [if_pos ((isNonPos_compare h hds).mpr hle), if_pos hle, none_or, hview]
        exact ⟨rfl, fun _ h' => absurd h' (by simp)⟩
      · rw [if_neg (fun h' => hle ((isNonPos_compare h hds).mp h')), if_neg hle,
          if_neg (fun h' => hno (hnewer.mp h')), some_or]
        refine ⟨rfl, fun row' hrow' => ?_⟩
        obtain rfl := some.inj hrow'
        exact ⟨hdead _ rfl rfl, rfl⟩

/-! ## Upserts -/

/-- Entries of one column with one stamp carry equal values. -/
def ColumnsAgree (payload columns : Record Text ColumnEntry) : Prop :=
  ∀ col old e, payload.get col = some old → columns.get col = some e → old.hlc = e.hlc →
    columnValuesEqual old.value e.value = true

variable {columns : Record Text ColumnEntry}

theorem stampAt_filter (hc : ∀ col e, columns.get col = some e → Serialized e.hlc) {d : Text}
    (hd : Serialized d) (col : Text) :
    stampAt ((columns.get col).filter fun e => isPos (hlcCompareStr e.hlc d)) =
      if (↑(stampOf d) : WithBot (Stamp Text)) < stampAt (columns.get col) then
        stampAt (columns.get col) else ⊥ := by
  cases he : columns.get col with
  | none => simp
  | some e =>
    rw [filter_some, stampAt_some]
    by_cases hlt : stampOf d < stampOf e.hlc
    · rw [if_pos (((hc col e he).isPos_compare hd).mpr hlt), if_pos (WithBot.coe_lt_coe.mpr hlt),
        stampAt_some]
    · rw [if_neg (fun hp => hlt (((hc col e he).isPos_compare hd).mp hp)),
        if_neg (fun hp => hlt (WithBot.coe_lt_coe.mp hp)), stampAt_none]

/-- What one upsert leaves: a row that is a step of the view, whose entries are old
entries or entries of the upsert. -/
structure UpsertResult (existing : Option Row) (columns : Record Text ColumnEntry)
    (res : Option Row) : Prop where
  view_eq : view (res.or existing) =
    step (view existing) (.ups fun col => stampAt (columns.get col))
  rowOk : ∀ row, res = some row → RowOk row
  entry : ∀ row, res = some row → ∀ col e, row.payload.get col = some e →
    columns.get col = some e ∨ ∃ old, existing = some old ∧ old.payload.get col = some e

theorem laterEntry_cases {a b : Option ColumnEntry} {e : ColumnEntry}
    (h : laterEntry a b = some e) : b = some e ∨ a = some e := by
  cases a with
  | none => exact .inl h
  | some old =>
    cases b with
    | none => exact .inr h
    | some incoming =>
      rw [laterEntry] at h
      split_ifs at h
      · exact .inl h
      · exact .inr h

theorem upsertResult_live (hrow : row = existing.getD (blankRow table rowId v false none))
    (hok : RowOk row) (hlive : row._meta.deletedHlc = none)
    (hc : ∀ col e, columns.get col = some e → Serialized e.hlc)
    (hagree : ColumnsAgree row.payload columns) :
    ∃ res, applyUpsert existing table rowId columns v none = .ok res ∧
      UpsertResult existing columns res := by
  have hdeleted : row._meta.deleted = false := by rw [hok.deleted_iff, hlive]; rfl
  have hentries : ∀ p ∈ columns.entries, columns.get p.1 = some p.2 := fun p hp =>
    Record.mem_entries_iff.mp hp
  obtain ⟨payload', changed', heq, hget, hch⟩ := applyColumns_eq table rowId columns.nodup
    row.payload existing.isNone hok.entry (fun p hp => hc p.1 p.2 (hentries p hp))
    fun p hp old hold hh => hagree p.1 old p.2 hold (hentries p hp) hh
  have hstep : step (view existing) (.ups fun col => stampAt (columns.get col)) =
      .live fun col => stampAt (payload'.get col) := by
    have hpay : (fun col => stampAt (payload'.get col)) =
        (fun col => stampAt (row.payload.get col)) ⊔ fun col => stampAt (columns.get col) := by
      funext col
      rw [hget col, stampAt_laterEntry]
      rfl
    rw [hpay]
    cases existing with
    | none =>
      rw [hrow]
      exact congrArg State.live (bot_sup_eq _).symm
    | some old =>
      obtain rfl : row = old := hrow
      simp only [view, hlive, step]
  have hcall : applyUpsert existing table rowId columns v none =
      .ok (if changed' = true then some ⟨row._meta, payload'⟩ else none) := by
    simp only [applyUpsert, ← hrow, hdeleted, Bool.false_eq_true, if_false, heq]
  refine ⟨_, hcall, ?_⟩
  cases changed' with
  | false =>
    obtain ⟨hp', hnone⟩ := hch rfl
    refine ⟨?_, fun _ h => absurd h (by simp), fun _ h => absurd h (by simp)⟩
    rw [hstep, hp', if_neg (by simp), none_or]
    cases existing with
    | none => simp at hnone
    | some old =>
      obtain rfl : row = old := hrow
      simp only [view, hlive]
  | true =>
    refine ⟨?_, fun row' h => ?_, fun row' h col e he => ?_⟩
    · rw [hstep, if_pos rfl, some_or]
      simp only [view, hlive]
    · obtain rfl := some.inj h
      refine ⟨hok.deleted_iff, fun hd => absurd hd (by simp [hdeleted]), hok.deletedHlc, ?_⟩
      intro col e he
      rcases laterEntry_cases ((hget col).symm.trans he) with hcol | hcol
      · exact hc col e hcol
      · exact hok.entry col e hcol
    · obtain rfl := some.inj h
      rcases laterEntry_cases ((hget col).symm.trans he) with hcol | hcol
      · exact .inl hcol
      · right
        cases existing with
        | none =>
          rw [hrow] at hcol
          exact absurd hcol (by simp [blankRow])
        | some old =>
          obtain rfl : row = old := hrow
          exact ⟨row, rfl, hcol⟩

/-- An upsert to a tombstone: the columns newer than the delete, or nothing. -/
theorem upsertResult_dead (hok : RowOk row) {d : Text} (hdead : row._meta.deletedHlc = some d)
    (hc : ∀ col e, columns.get col = some e → Serialized e.hlc) :
    ∃ res, applyUpsert (some row) table rowId columns v none = .ok res ∧
      UpsertResult (some row) columns res := by
  have hds : Serialized d := hok.deletedHlc d hdead
  have hdeleted : row._meta.deleted = true := by rw [hok.deleted_iff, hdead]; rfl
  have hview : view (some row) = .dead (stampOf d) := by simp only [view, hdead]
  set fresh := columns.filter fun _ e => isPos (hlcCompareStr e.hlc d) with hfresh
  have hget : ∀ col, fresh.get col =
      (columns.get col).filter fun e => isPos (hlcCompareStr e.hlc d) := fun col =>
    Record.get_filter _ _ col
  have hsub : ∀ col e, fresh.get col = some e → columns.get col = some e := by
    intro col e he
    rw [hget col, filter_eq_some_iff] at he
    exact he.1
  have hempty : fresh.entries.isEmpty = true ↔
      ¬ ∃ col, (↑(stampOf d) : WithBot (Stamp Text)) < stampAt (columns.get col) := by
    rw [List.isEmpty_iff, Record.entries_eq_nil_iff, not_exists]
    refine forall_congr' fun col => ?_
    have hst := stampAt_filter hc hds col
    rw [hget col]
    constructor
    · intro hnone hlt
      rw [hnone, if_pos hlt] at hst
      rw [← hst] at hlt
      exact absurd hlt not_lt_bot
    · intro hlt
      rw [if_neg hlt] at hst
      cases hf : (columns.get col).filter fun e => isPos (hlcCompareStr e.hlc d) with
      | none => rfl
      | some e => rw [hf] at hst; exact absurd hst (by simp)
  have hentries : ∀ p ∈ fresh.entries, columns.get p.1 = some p.2 := fun p hp =>
    hsub p.1 p.2 (Record.mem_entries_iff.mp hp)
  obtain ⟨payload', changed', heq, hpay, -⟩ := applyColumns_eq table rowId fresh.nodup ∅ true
    (fun col e he => absurd he (by simp)) (fun p hp => hc p.1 p.2 (hentries p hp))
    fun p _ old hold => absurd hold (by simp)
  have hpay' : ∀ col, payload'.get col = fresh.get col := fun col => by
    rw [hpay col, Record.get_empty]
    rfl
  have hcall : applyUpsert (some row) table rowId columns v none =
      .ok (if fresh.entries.isEmpty then none
        else some ⟨{ row._meta with deleted := false, deletedHlc := none }, payload'⟩) := by
    have hcond : (if row._meta.deleted = true then truthy row._meta.deletedHlc else none) =
        some d := by
      rw [hdeleted, if_pos rfl, hdead, truthy_of_ne_nil hds.ne_nil]
    have hlist : (columns.entries.filter fun p => isPos (hlcCompareStr p.2.hlc d)) =
        fresh.entries := rfl
    simp only [applyUpsert, getD_some, hcond, hlist, heq]
    split_ifs <;> rfl
  refine ⟨_, hcall, ?_⟩
  by_cases hf : ∃ col, (↑(stampOf d) : WithBot (Stamp Text)) < stampAt (columns.get col)
  · rw [if_neg (fun h => hempty.mp h hf)]
    refine ⟨?_, fun row' h => ?_, fun row' h col e he => ?_⟩
    · rw [some_or, hview, step, if_pos hf]
      simp only [view]
      refine congrArg State.live (funext fun col => ?_)
      rw [hpay' col, hget col, stampAt_filter hc hds col]
    · obtain rfl := some.inj h
      refine ⟨rfl, fun h' => absurd h' (by simp), fun _ h' => absurd h' (by simp), ?_⟩
      intro col e he
      exact hc col e (hsub col e ((hpay' col).symm.trans he))
    · obtain rfl := some.inj h
      exact .inl (hsub col e ((hpay' col).symm.trans he))
  · rw [if_pos (hempty.mpr hf)]
    refine ⟨?_, fun _ h => absurd h (by simp), fun _ h => absurd h (by simp)⟩
    rw [none_or, hview, step, if_neg hf]

/-- **One op on one row** is one step on its view. -/
theorem view_applyToRow (hok : ∀ row, existing = some row → RowOk row) {op : Op}
    (hop : op.Serialized) (v : ℕ)
    (hagree : ∀ row, existing = some row → ∀ col old e, row.payload.get col = some old →
      op.entryAt col = some e → old.hlc = e.hlc → columnValuesEqual old.value e.value = true) :
    ∃ res, applyToRow existing op v none = .ok res ∧
      view (res.or existing) = step (view existing) op.toAct ∧
      (∀ row, res = some row → RowOk row) ∧
      ∀ row, res = some row → ∀ col e, row.payload.get col = some e →
        op.entryAt col = some e ∨ ∃ old, existing = some old ∧ old.payload.get col = some e := by
  cases op with
  | delete table rowId hlc =>
    have hs : Serialized hlc := hop hlc List.mem_cons_self
    obtain ⟨hview, hrow⟩ := view_applyDelete hok table rowId hs v
    refine ⟨_, rfl, hview, fun row h => (hrow row h).1, fun row h col e he => ?_⟩
    rw [(hrow row h).2] at he
    exact absurd he (by simp)
  | upsert table rowId columns =>
    have hc : ∀ col e, columns.get col = some e → Serialized e.hlc := fun col e he =>
      hop.entry he
    have hresult : ∃ res, applyUpsert existing table rowId columns v none = .ok res ∧
        UpsertResult existing columns res := by
      cases existing with
      | none =>
        refine upsertResult_live rfl ?_ rfl hc ?_
        · exact ⟨rfl, fun h => absurd h (by simp [blankRow]), fun _ h => absurd h (by simp [blankRow]),
            fun _ _ h => absurd h (by simp [blankRow])⟩
        · intro col old e hold
          exact absurd hold (by simp [blankRow])
      | some row =>
        cases hd : row._meta.deletedHlc with
        | none =>
          have hrow : row = (some row).getD (blankRow table rowId v false none) := rfl
          exact upsertResult_live hrow (hok row rfl) hd hc (hagree row rfl)
        | some d => exact upsertResult_dead (hok row rfl) hd hc
    obtain ⟨res, heq, hres⟩ := hresult
    exact ⟨res, heq, hres.view_eq, hres.rowOk, hres.entry⟩

end Interocitor
