import Interocitor.Merge.Lives

/-!
# Columns that a delete removed

A delete empties the row, and while the row is a tombstone every upsert is filtered:
only columns newer than the delete pass.  The first upsert that has one revives the row
and erases the stamp of the delete, and from then on nothing is filtered.  Peers publish
whole rows, so a peer that has not seen the delete sends the old columns again with
every write of its own; the second such write brings them back.

* `deleted_columns_stay_away_iff`: after a delete with stamp `d` has made the row a
  tombstone, no later state shows a column from `d` or before, exactly if in no life of
  the row an op after the one that began the life carries a column that is not newer
  than `d` and that the life has not got.
* `deleted_column_comes_back`: whole-row upserts in the order of their stamps for which a
  deleted column comes back.
-/

namespace Interocitor

open CodeUnits OrderedRecord HybridClock LwwRow List Option

variable {table rowId : Text} {v : ℕ}

/-- The row shows no column whose stamp compares at or before `d`. -/
def ShowsNothingUpTo (d : Text) (row : Option Row) : Prop :=
  ∀ x, row = some x → ∀ col e, x.payload.get col = some e →
    isNonPos (hlcCompareStr e.hlc d) = false

/-- After the delete, no state of the row shows a column from `d` or before. -/
def DeletedStaysDeleted (v : ℕ) (table rowId d : Text) (before after : List Op) : Prop :=
  ∀ front, front <+: after → ∀ tables,
    mergeAll v (before ++ .delete table rowId d :: front) = .ok tables →
      ShowsNothingUpTo d (rowAt tables table rowId)

/-- The delete took effect: the row is a tombstone with its stamp. -/
def BecameTombstone (v : ℕ) (table rowId d : Text) (before : List Op) : Prop :=
  ∃ tables row, mergeAll v (before ++ [.delete table rowId d]) = .ok tables ∧
    rowAt tables table rowId = some row ∧ row._meta.deletedHlc = some d

/-- In each life after the delete, begun by `u`, a column that a later op of the life
carries was brought by `u` newer than every delete before, or is carried newer than `d`
by an op of the life. -/
def NothingStale (table rowId d : Text) (after : List Op) : Prop :=
  ∀ s u t, s ++ u :: t <+: .delete table rowId d :: after → Incarnation s u t → ∀ col,
    (∃ op ∈ t, ∃ x, op.entryAt col = some x) →
      (∃ x, u.entryAt col = some x ∧ NewerThanDeletes s x) ∨
        ∃ op ∈ t, ∃ x, op.entryAt col = some x ∧ isPos (hlcCompareStr x.hlc d) = true

/-! ## The condition, without values -/

theorem late_ne_bot_iff {s : List Op} {u : Op} (hs : ∀ op ∈ s, op.Serialized) (hu : u.Serialized)
    (col : Text) :
    late (s.map Op.toAct) u.toAct col ≠ ⊥ ↔
      ∃ x, u.entryAt col = some x ∧ NewerThanDeletes s x := by
  rw [late, cols_toAct]
  cases hx : u.entryAt col with
  | none =>
    rw [stampAt_none, ite_self]
    simp
  | some x =>
    have hnew := newerThanDeletes_iff hs (hu.entry hx)
    split_ifs with h
    · exact ⟨fun _ => ⟨x, rfl, hnew.mpr h⟩, fun _ => WithBot.coe_ne_bot⟩
    · refine ⟨fun hne => absurd rfl hne, ?_⟩
      rintro ⟨y, hy, hlate⟩
      obtain rfl := some.inj hy
      exact absurd (hnew.mp hlate) h

theorem joinAll_ne_bot_iff (t : List Op) (col : Text) :
    joinAll (t.map Op.toAct) col ≠ ⊥ ↔ ∃ op ∈ t, ∃ x, op.entryAt col = some x := by
  constructor
  · intro h
    obtain ⟨a, ha, hac⟩ := exists_mem_of_joinAll h
    obtain ⟨op, hop, rfl⟩ := mem_map.mp ha
    rw [cols_toAct] at hac
    cases hx : op.entryAt col with
    | none =>
      rw [hx] at hac
      exact absurd hac.symm h
    | some x => exact ⟨op, hop, x, hx⟩
  · rintro ⟨op, hop, x, hx⟩ hbot
    have hle := cols_le_joinAll (mem_map_of_mem (f := Op.toAct) hop) col
    rw [cols_toAct, hx, hbot] at hle
    exact absurd (le_bot_iff.mp hle) WithBot.coe_ne_bot

theorem lt_joinAll_iff {t : List Op} (ht : ∀ op ∈ t, op.Serialized) {d : Text}
    (hd : Serialized d) (col : Text) :
    (↑(stampOf d) : WithBot (Stamp Text)) < joinAll (t.map Op.toAct) col ↔
      ∃ op ∈ t, ∃ x, op.entryAt col = some x ∧ isPos (hlcCompareStr x.hlc d) = true := by
  constructor
  · intro h
    obtain ⟨a, ha, hac⟩ := exists_mem_of_joinAll (lt_of_le_of_lt bot_le h).ne'
    obtain ⟨op, hop, rfl⟩ := mem_map.mp ha
    rw [← hac, cols_toAct] at h
    cases hx : op.entryAt col with
    | none =>
      rw [hx] at h
      exact absurd h not_lt_bot
    | some x =>
      rw [hx, stampAt_some, WithBot.coe_lt_coe] at h
      exact ⟨op, hop, x, hx, (((ht op hop).entry hx).isPos_compare hd).mpr h⟩
  · rintro ⟨op, hop, x, hx, hpos⟩
    refine lt_of_lt_of_le ?_ (cols_le_joinAll (mem_map_of_mem hop) col)
    rw [cols_toAct, hx, stampAt_some, WithBot.coe_lt_coe]
    exact (((ht op hop).entry hx).isPos_compare hd).mp hpos

/-- The condition on the ops is the condition of `LwwRow` on their actions. -/
theorem nothingStale_iff {d : Text} {after : List Op}
    (hser : ∀ op ∈ Op.delete table rowId d :: after, op.Serialized) :
    NothingStale table rowId d after ↔ NoReturn (stampOf d) (after.map Op.toAct) := by
  have hd : Serialized d := hser _ mem_cons_self d mem_cons_self
  have hmap : (Op.delete table rowId d :: after).map Op.toAct =
      .del (stampOf d) :: after.map Op.toAct := rfl
  -- what both conditions say of one life and one column
  have hcol : ∀ s u t, s ++ u :: t <+: .delete table rowId d :: after → ∀ col,
      (((∃ op ∈ t, ∃ x, op.entryAt col = some x) →
        (∃ x, u.entryAt col = some x ∧ NewerThanDeletes s x) ∨
          ∃ op ∈ t, ∃ x, op.entryAt col = some x ∧ isPos (hlcCompareStr x.hlc d) = true) ↔
      (late (s.map Op.toAct) u.toAct col = ⊥ → joinAll (t.map Op.toAct) col ≠ ⊥ →
        (↑(stampOf d) : WithBot (Stamp Text)) < joinAll (t.map Op.toAct) col)) := by
    intro s u t hpre col
    have hall : ∀ op ∈ s ++ u :: t, op.Serialized := fun op hop => hser op (hpre.subset hop)
    rw [← late_ne_bot_iff (fun op hop => hall op (mem_append_left _ hop))
        (hall u (mem_append_right _ mem_cons_self)),
      ← joinAll_ne_bot_iff, ← lt_joinAll_iff (fun op hop =>
        hall op (mem_append_right _ (mem_cons_of_mem _ hop))) hd]
    tauto
  constructor
  · intro h s' u' t' hpre hlife col
    rw [← hmap, prefix_map_iff] at hpre
    obtain ⟨l, hl, heq⟩ := hpre
    obtain ⟨s, rest, rfl, rfl, hrest⟩ := map_eq_append_iff.mp heq.symm
    obtain ⟨u, t, rfl, rfl, rfl⟩ := map_eq_cons_iff.mp hrest
    have hinc := (incarnation_iff fun op hop => hser op (hl.subset hop)).mpr hlife
    exact (hcol s u t hl col).mp (h s u t hl hinc col)
  · intro h s u t hpre hinc col
    have hlife := (incarnation_iff fun op hop => hser op (hpre.subset hop)).mp hinc
    have hpre' := hpre.map Op.toAct
    rw [hmap, map_append, map_cons] at hpre'
    exact (hcol s u t hpre col).mpr (h _ _ _ hpre' hlife col)

/-! ## The theorem -/

theorem showsNothingUpTo_iff {d : Text} (hd : Serialized d) {row : Option Row}
    (hok : ∀ x, row = some x → RowOk x) :
    ShowsNothingUpTo d row ↔ ∀ p, view row = .live p → ∀ col, p col ≠ ⊥ →
      (↑(stampOf d) : WithBot (Stamp Text)) < p col := by
  have hlt : ∀ e : ColumnEntry, Serialized e.hlc →
      (isNonPos (hlcCompareStr e.hlc d) = false ↔ stampOf d < stampOf e.hlc) := by
    intro e he
    rw [← Bool.not_eq_true, isNonPos_compare he hd, not_le]
  cases row with
  | none =>
    refine ⟨fun _ p hp => ?_, fun _ x hx => absurd hx (by simp)⟩
    exact absurd hp (by simp [view])
  | some x =>
    have hx := hok x rfl
    cases hdel : x._meta.deletedHlc with
    | some d' =>
      have hdead : x._meta.deleted = true := by rw [hx.deleted_iff, hdel]; rfl
      refine ⟨fun _ p hp => absurd hp (by simp [view, hdel]), fun _ y hy col e he => ?_⟩
      obtain rfl := some.inj hy
      rw [hx.payload_deleted hdead] at he
      exact absurd he (by simp)
    | none =>
      have hview : view (some x) = .live fun col => stampAt (x.payload.get col) := by
        simp only [view, hdel]
      constructor
      · intro h p hp col hbot
        rw [hview] at hp
        obtain rfl := State.live.inj hp
        change stampAt (x.payload.get col) ≠ ⊥ at hbot
        change _ < stampAt (x.payload.get col)
        cases he : x.payload.get col with
        | none =>
          rw [he] at hbot
          exact absurd rfl hbot
        | some e =>
          rw [stampAt_some, WithBot.coe_lt_coe]
          exact (hlt e (hx.entry col e he)).mp (h x rfl col e he)
      · intro h y hy col e he
        obtain rfl := some.inj hy
        have hshown := h _ hview col (by rw [he]; exact WithBot.coe_ne_bot)
        rw [he, stampAt_some, WithBot.coe_lt_coe] at hshown
        exact (hlt e (hx.entry col e he)).mpr hshown

theorem exists_mergeAll_of_prefix {l m : List Op} {tables : Tables} (hl : l <+: m)
    (h : mergeAll v m = .ok tables) : ∃ tables', mergeAll v l = .ok tables' := by
  obtain ⟨rest, rfl⟩ := hl
  change mergeFrom v ∅ (l ++ rest) = _ at h
  rw [mergeFrom_append] at h
  cases hfront : mergeFrom v ∅ l with
  | ok tables' => exact ⟨tables', hfront⟩
  | error e =>
    rw [hfront] at h
    exact absurd h (by simp [bind, Except.bind])

theorem forRow_eq_self {ops : List Op} (h : ∀ op ∈ ops, op.table = table ∧ op.rowId = rowId) :
    forRow table rowId ops = ops := by
  rw [forRow, filter_eq_self]
  exact fun op hop => decide_eq_true (h op hop)

/-- **Exactly when deleted columns stay away.**  For every sequence of ops applied to one
row without an error, after a delete with stamp `d` has made the row a tombstone, no later
state of the row shows a column whose stamp compares at or before `d`, if and only if no
life of the row after the delete takes in a stale column. -/
theorem deleted_columns_stay_away_iff {d : Text} {before after : List Op}
    (hser : ∀ op ∈ before ++ .delete table rowId d :: after, op.Serialized)
    (hrow : ∀ op ∈ before ++ .delete table rowId d :: after,
      op.table = table ∧ op.rowId = rowId)
    (happlied : ∃ tables, mergeAll v (before ++ .delete table rowId d :: after) = .ok tables)
    (hdeleted : BecameTombstone v table rowId d before) :
    DeletedStaysDeleted v table rowId d before after ↔ NothingStale table rowId d after := by
  have hafter : ∀ op ∈ Op.delete table rowId d :: after, op.Serialized := fun op hop =>
    hser op (mem_append_right _ hop)
  have hd : Serialized d := hafter _ mem_cons_self d mem_cons_self
  have hsub : ∀ front, front <+: after → before ++ Op.delete table rowId d :: front <+:
      before ++ Op.delete table rowId d :: after := fun front hfront =>
    (prefix_append_right_inj _).mpr (cons_prefix_cons.mpr ⟨rfl, hfront⟩)
  -- the row after the delete is dead at `d`
  have hdead : ((before ++ [Op.delete table rowId d]).map Op.toAct).foldl step .absent =
      .dead (stampOf d) := by
    obtain ⟨tables, row, hmerge, hat, hhlc⟩ := hdeleted
    have hpre : before ++ [Op.delete table rowId d] <+:
        before ++ Op.delete table rowId d :: after :=
      hsub [] nil_prefix
    have hspec := mergeFrom_spec tablesOk_empty
      (fun op hop => hser op (hpre.subset hop)) hmerge table rowId
    rw [hat] at hspec
    have hview := hspec.view_eq
    rw [forRow_eq_self fun op hop => hrow op (hpre.subset hop)] at hview
    refine Eq.trans hview.symm ?_
    simp only [view, hhlc]
  have hstate : ∀ front, front <+: after → ∀ tables,
      mergeAll v (before ++ .delete table rowId d :: front) = .ok tables →
      view (rowAt tables table rowId) = (front.map Op.toAct).foldl step (.dead (stampOf d)) ∧
        ∀ x, rowAt tables table rowId = some x → RowOk x := by
    intro front hfront tables hmerge
    have hpre := hsub front hfront
    have hspec := mergeFrom_spec tablesOk_empty
      (fun op hop => hser op (hpre.subset hop)) hmerge table rowId
    refine ⟨?_, hspec.rowOk⟩
    rw [hspec.view_eq, forRow_eq_self fun op hop => hrow op (hpre.subset hop), ← hdead,
      ← foldl_append, ← map_append, append_assoc, singleton_append]
    rfl
  rw [nothingStale_iff hafter, ← noReturn_iff]
  constructor
  · intro h m hm p hp
    obtain ⟨front, hfront, rfl⟩ := prefix_map_iff.mp hm
    obtain ⟨tables, hmerge⟩ := exists_mergeAll_of_prefix (hsub front hfront) happlied.choose_spec
    obtain ⟨hview, hok⟩ := hstate front hfront tables hmerge
    exact (showsNothingUpTo_iff hd hok).mp (h front hfront tables hmerge) p (hview.trans hp)
  · intro h front hfront tables hmerge
    obtain ⟨hview, hok⟩ := hstate front hfront tables hmerge
    rw [showsNothingUpTo_iff hd hok]
    intro p hp
    exact h _ (hfront.map _) p (hview.symm.trans hp)

/-! ## Whole rows, in the order of their stamps -/

/-- The op is what `rowToSyncOp` builds from a row. -/
def WholeRow (op : Op) : Prop := ∃ row, RowOk row ∧ rowToSyncOp row = some op

/-- A live row of the example, with null values. -/
def exampleRow (columns : Record Text ColumnEntry) : Row :=
  ⟨⟨[116], [114], false, none, 0, none⟩, columns⟩

/-- Column `y` written at 3 and, by a peer that has not seen a delete, column `x` at 10. -/
def echoedColumns : Record Text ColumnEntry :=
  (exampleColumn 121 3).set [120] ⟨.null, exampleStamp 10⟩

/-- The write of the peer at 10, and its next one, of column `z` at 12. -/
def echoingWrites : List Op :=
  [.upsert [116] [114] echoedColumns,
    .upsert [116] [114] (echoedColumns.set [122] ⟨.null, exampleStamp 12⟩)]

/-- The row before the delete. -/
def firstWrite : Op := .upsert [116] [114] (exampleColumn 121 3)

/-- The whole sequence: a write at 3, a delete at 5, and the two writes of the peer. -/
def echoOps : List Op :=
  [firstWrite] ++ .delete [116] [114] (exampleStamp 5) :: echoingWrites

theorem mem_echoOps {op : Op} (h : op ∈ echoOps) :
    op = firstWrite ∨ op = .delete [116] [114] (exampleStamp 5) ∨
      op = .upsert [116] [114] echoedColumns ∨
      op = .upsert [116] [114] (echoedColumns.set [122] ⟨.null, exampleStamp 12⟩) := by
  simpa [echoOps, echoingWrites] using h

theorem serialized_of_mem {s : Text}
    (h : s ∈ [exampleStamp 3, exampleStamp 10, exampleStamp 12]) : Serialized s := by
  simp only [mem_cons, not_mem_nil, or_false] at h
  rcases h with rfl | rfl | rfl <;> exact serialized_exampleStamp _

theorem serialized_echoOps : ∀ op ∈ echoOps, op.Serialized := by
  intro op hop s hs
  rcases mem_echoOps hop with rfl | rfl | rfl | rfl
  · rw [mem_singleton.mp hs]
    exact serialized_exampleStamp _
  · rw [mem_singleton.mp hs]
    exact serialized_exampleStamp _
  · have hs' : s ∈ [exampleStamp 3, exampleStamp 10] := hs
    exact serialized_of_mem (mem_of_mem_take (i := 2) hs')
  · have hs' : s ∈ [exampleStamp 3, exampleStamp 10, exampleStamp 12] := hs
    exact serialized_of_mem hs'

theorem rowOk_exampleRow {columns : Record Text ColumnEntry}
    (h : ∀ s ∈ columns.values.map ColumnEntry.hlc, Serialized s) : RowOk (exampleRow columns) :=
  ⟨rfl, fun hd => absurd hd (by simp [exampleRow]), fun _ hd => absurd hd (by simp [exampleRow]),
    fun col _ he => h _ (mem_map_of_mem (Record.mem_values_iff.mpr ⟨col, he⟩))⟩

theorem wholeRow_echoOps : ∀ op ∈ echoOps, WholeRow op := by
  intro op hop
  have hser := serialized_echoOps op hop
  rcases mem_echoOps hop with rfl | rfl | rfl | rfl
  · exact ⟨exampleRow (exampleColumn 121 3), rowOk_exampleRow hser, rfl⟩
  · refine ⟨⟨⟨[116], [114], true, some (exampleStamp 5), 0, none⟩, ∅⟩, ?_, rfl⟩
    refine ⟨rfl, fun _ => rfl, fun d hd => ?_, fun _ _ he => absurd he (by simp)⟩
    rw [← some.inj hd]
    exact serialized_exampleStamp 5
  · exact ⟨exampleRow echoedColumns, rowOk_exampleRow hser, rfl⟩
  · exact ⟨exampleRow (echoedColumns.set [122] ⟨.null, exampleStamp 12⟩), rowOk_exampleRow hser,
      rfl⟩

theorem addressed_echoOps : ∀ op ∈ echoOps, op.table = [116] ∧ op.rowId = [114] := by
  intro op hop
  rcases mem_echoOps hop with rfl | rfl | rfl | rfl <;> exact ⟨rfl, rfl⟩

theorem exists_of_isOk {ε α : Type} {x : Except ε α} (h : x.isOk = true) : ∃ a, x = .ok a := by
  cases x with
  | ok a => exact ⟨a, rfl⟩
  | error e => exact absurd h (by simp [Except.isOk, Except.toBool])

theorem exists_mergeAll_echoOps : ∃ tables, mergeAll 1 echoOps = .ok tables :=
  exists_of_isOk (by decide)

theorem becameTombstone_echoOps : BecameTombstone 1 [116] [114] (exampleStamp 5) [firstWrite] := by
  obtain ⟨tables, hmerge⟩ : ∃ tables,
      mergeAll 1 ([firstWrite] ++ [.delete [116] [114] (exampleStamp 5)]) = .ok tables :=
    exists_of_isOk (by decide)
  have hstamp : (mergeAll 1 ([firstWrite] ++ [.delete [116] [114] (exampleStamp 5)])).toOption.map
      (fun tables => (rowAt tables [116] [114]).map fun row => row._meta.deletedHlc) =
        some (some (some (exampleStamp 5))) := by
    decide
  rw [hmerge] at hstamp
  have hrow : (rowAt tables [116] [114]).map (fun row => row._meta.deletedHlc) =
      some (some (exampleStamp 5)) := some.inj hstamp
  obtain ⟨row, hrow, hd⟩ := map_eq_some_iff.mp hrow
  exact ⟨tables, row, hmerge, hrow, hd⟩

/-- **A deleted column comes back.**  Of whole-row upserts applied in the order of their
stamps, the second one that a peer sends without having seen the delete restores the
deleted column. -/
theorem deleted_column_comes_back :
    ¬ ∀ (v : ℕ) (table rowId d : Text) (before after : List Op),
      (∀ op ∈ before ++ .delete table rowId d :: after, op.Serialized ∧ WholeRow op ∧
        op.table = table ∧ op.rowId = rowId) →
      (∃ tables, mergeAll v (before ++ .delete table rowId d :: after) = .ok tables) →
      BecameTombstone v table rowId d before →
      DeletedStaysDeleted v table rowId d before after := by
  intro h
  have hstays := h 1 [116] [114] (exampleStamp 5) [firstWrite] echoingWrites
    (fun op hop => ⟨serialized_echoOps op hop, wholeRow_echoOps op hop, addressed_echoOps op hop⟩)
    exists_mergeAll_echoOps becameTombstone_echoOps
  obtain ⟨tables, hmerge⟩ := exists_mergeAll_echoOps
  have hshown := hstays echoingWrites (prefix_refl _) tables hmerge
  have hcolumn : (mergeAll 1 echoOps).toOption.map (fun tables =>
      ((rowAt tables [116] [114]).bind fun row => row.payload.get [121]).map ColumnEntry.hlc) =
        some (some (exampleStamp 3)) := by
    decide
  rw [hmerge] at hcolumn
  obtain ⟨e, he, hstamp⟩ := map_eq_some_iff.mp (some.inj hcolumn)
  obtain ⟨row, hrow, hcol⟩ := bind_eq_some_iff.mp he
  have hfalse := hshown row hrow [121] e hcol
  rw [hstamp] at hfalse
  exact absurd hfalse (by decide)

/-- The condition at these writes. -/
theorem echoOps_deleted_columns_stay_away_iff :
    DeletedStaysDeleted 1 [116] [114] (exampleStamp 5) [firstWrite] echoingWrites ↔
      NothingStale [116] [114] (exampleStamp 5) echoingWrites :=
  deleted_columns_stay_away_iff serialized_echoOps addressed_echoOps exists_mergeAll_echoOps
    becameTombstone_echoOps

end Interocitor
