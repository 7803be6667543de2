import Interocitor.Native.Merge

/-!
# Three implementations of one merge

Core, Python and Swift fold the same ops from empty tables.  Python follows core op by op
(`applyOp_core`); Swift is compared with Python here.  Its dictionaries know keys up to canonical
equivalence, its loop over the columns has its own order, its clock comparison its own order of
device ids and its values their own equality, so the comparison is by lookups, and it holds where
the names, stamps and values that meet in a step are shared.

* `SameTables`: the same rows, with the same flags, tombstones and entries.
* `Alike`: what one step needs of the tables before it and of its op.
* `applyOp_swift`: the step; `agree_of_alike`: the run.
-/

namespace Interocitor.Wire

open CodeUnits OrderedRecord HybridClock Native Decimals List Option

/-! ## The same tables -/

/-- A row of Swift is the row of Python. -/
structure SameRow (py : Python.Row) (sw : Swift.Row) : Prop where
  table : sw.table = py.table
  rowId : sw.rowId = py.rowId
  deleted : sw.deleted = py.deleted
  deletedHlc : sw.deletedHlc = py.deletedHlc
  schemaVersion : sw.schemaVersion = py.schemaVersion
  columns : ∀ c, find c sw.columns = py.payload.get c
  nodup : (sw.columns.map Prod.fst).Nodup

/-- The rows of a table are the same. -/
def SameRows (py : Record Text Python.Row) (sw : List (Text × Swift.Row)) : Prop :=
  ∀ r, Option.Rel SameRow (py.get r) (find r sw)

/-- The tables are the same. -/
def SameTables (py : Python.Tables) (sw : Swift.Tables) : Prop :=
  ∀ t, Option.Rel SameRows (py.get t) (find t sw)

/-! ## Dictionaries with told-apart keys -/

section Dictionaries

variable {norm : Text → Text} {P : Text → Prop} (hP : ToldApart norm P)
include hP

theorem assign_eq_put {V : Type} {k : Text} (hk : P k) (v : V) {l : List (Text × V)}
    (hl : ∀ j ∈ l.map Prod.fst, P j) : Swift.assign norm k v l = put k v l := by
  induction l with
  | nil => rfl
  | cons p l ih =>
    rw [map_cons, forall_mem_cons] at hl
    rw [Swift.assign, put, ih hl.2]
    by_cases hp : p.1 = k
    · rw [if_pos hp, if_pos (by rw [hp]), hp]
    · rw [if_neg hp, if_neg fun h => hp (hP _ _ hl.1 hk h)]

theorem dictionary_eq {entries : List (Text × Entry)} (hnodup : (entries.map Prod.fst).Nodup)
    (hl : ∀ j ∈ entries.map Prod.fst, P j) : Swift.dictionary norm entries = entries := by
  have hfresh : ∀ (k : Text) (v : Entry) (l : List (Text × Entry)), k ∉ l.map Prod.fst →
      put k v l = l ++ [(k, v)] := by
    intro k v l
    induction l with
    | nil => intro _; rfl
    | cons p l ih =>
      intro hk
      rw [map_cons, mem_cons, not_or] at hk
      rw [put, if_neg fun h => hk.1 h.symm, ih hk.2, cons_append]
  have hfold : ∀ rest front : List (Text × Entry), (front ++ rest).map Prod.fst =
      entries.map Prod.fst → rest.foldl (fun d p => Swift.assign norm p.1 p.2 d) front =
      front ++ rest := by
    intro rest
    induction rest with
    | nil => intro front _; rw [foldl_nil, append_nil]
    | cons p rest ih =>
      intro front hfront
      have hkeys : ∀ j ∈ (front ++ p :: rest).map Prod.fst, P j := by
        rw [hfront]
        exact hl
      have hfirst : p.1 ∉ front.map Prod.fst := by
        have hnd : ((front ++ p :: rest).map Prod.fst).Nodup := by
          rw [hfront]
          exact hnodup
        rw [map_append, map_cons, nodup_append] at hnd
        exact fun h => hnd.2.2 _ h _ mem_cons_self rfl
      have hassign : Swift.assign norm p.1 p.2 front = front ++ [p] := by
        rw [assign_eq_put hP (hkeys p.1 (by simp)) p.2 fun j hj => hkeys j (by
          rw [map_append, mem_append]
          exact Or.inl hj), hfresh p.1 p.2 front hfirst]
      rw [foldl_cons, hassign, ih (front ++ [p]) (by rw [← hfront, append_assoc]; rfl),
        append_assoc]
      rfl
  exact hfold entries [] rfl

end Dictionaries

/-! ## Comparisons and merges -/

/-- Two stamps that Swift reads back, with device ids it orders as core does. -/
structure StampsAlike (U : Unicode) (a b : Text) : Prop where
  left : U.attaches (stampOf a).node = false
  right : U.attaches (stampOf b).node = false
  ordered : Native.Swift.OrderedAlike U (stampOf a).node (stampOf b).node

variable {U : Unicode}

theorem compare_swift {a b : Text} (ha : Canonical a) (hb : Canonical b)
    (h : StampsAlike U a b) :
    ∃ z, Python.compare a b = .ok z ∧ (0 < Native.Swift.hlcCompareStr U a b ↔ 0 < z) ∧
      (Native.Swift.hlcCompareStr U a b < 0 ↔ z < 0) := by
  obtain ⟨s, hs, rfl⟩ := ha
  obtain ⟨t, ht, rfl⟩ := hb
  obtain ⟨hl, hr, ho⟩ := h
  rw [stampOf_stampText] at hl hr ho
  rw [stampOf_stampText] at ho
  obtain ⟨hpos, hneg⟩ := Native.Swift.hlcCompareStr_stampText ⟨hs, hl⟩ ⟨ht, hr⟩ ho
  refine ⟨Native.Python.hlcCompare s t, ?_, ?_, ?_⟩
  · rw [Python.compare, Native.Python.hlcCompareStr_stampText hs ht]
  · rw [hpos, Native.Python.hlcCompare_pos_iff]
  · rw [hneg, Native.Python.hlcCompare_neg_iff]

/-- Values under one stamp that the three tell apart alike. -/
def ValuesShared (U : Unicode) (v w : Value) : Prop :=
  ∃ P : Text → Prop, ToldApart U.norm P ∧ v.Within P ∧ w.Within P

variable {P : Text → Prop}

theorem wireValueEqual_comm {v w : Value} (hv : v.Within P) (hw : w.Within P) :
    Python.wireValueEqual v w = Python.wireValueEqual w v := by
  rw [Bool.eq_iff_iff]
  exact ⟨wireValueEqual_symm v w hv hw, wireValueEqual_symm w v hw hv⟩

/-- An entry of an op and the entry that is there: the same outcome in Python and in Swift. -/
def MergesAlike (U : Unicode) (table rowId field : Text) (existing : Option Entry)
    (entry : Entry) : Prop :=
  (∃ o, Python.mergeColumn existing entry table rowId field = .ok o ∧
    Swift.mergeColumn U existing entry = .ok o) ∨
  ∃ e e', Python.mergeColumn existing entry table rowId field = .error e ∧
    Swift.mergeColumn U existing entry = .error e'

/-- **One column, in Python and in Swift**: the same entry to store, or a conflict in both. -/
theorem mergeColumn_swift {existing : Option Entry} {entry : Entry} (table rowId field : Text)
    (hold : ∀ old, existing = some old → Canonical old.hlc) (hnew : Canonical entry.hlc)
    (hstamps : ∀ old, existing = some old → StampsAlike U entry.hlc old.hlc)
    (hvalues : ∀ old, existing = some old → old.hlc = entry.hlc →
      ValuesShared U old.value entry.value) :
    MergesAlike U table rowId field existing entry := by
  unfold MergesAlike
  cases existing with
  | none => exact Or.inl ⟨some entry, rfl, rfl⟩
  | some old =>
    have ho := hold old rfl
    obtain ⟨z, hz, hpos, hneg⟩ := compare_swift hnew ho (hstamps old rfl)
    obtain ⟨z', hz', hcorePos, hcoreNeg, -⟩ := compare_core hnew ho
    obtain rfl : z = z' := Except.ok.inj (hz.symm.trans hz')
    simp only [Python.mergeColumn, Swift.mergeColumn, if_neg ho.serialized.ne_nil, hz, hpos, hneg]
    show (∃ o, (if 0 < z then _ else _) = _ ∧ _) ∨ ∃ e e', (if 0 < z then _ else _) = _ ∧ _
    by_cases hp : 0 < z
    · exact Or.inl ⟨some entry, if_pos hp, if_pos hp⟩
    by_cases hn : z < 0
    · exact Or.inl ⟨none, by rw [if_neg hp, if_pos hn], by rw [if_neg hp, if_pos hn]⟩
    rw [if_neg hp, if_neg hp, if_neg hn, if_neg hn]
    have heq : old.hlc = entry.hlc := by
      have hnp : ¬ stampOf old.hlc < stampOf entry.hlc := by
        rw [← hnew.serialized.isPos_compare ho.serialized, hcorePos, decide_eq_true_eq]
        exact hp
      have hnn : ¬ stampOf entry.hlc < stampOf old.hlc := by
        rw [← hnew.serialized.isNeg_compare ho.serialized, hcoreNeg, decide_eq_true_eq]
        exact hn
      exact (ho.serialized.stampOf_inj hnew.serialized).mp
        (le_antisymm (not_lt.mp hnn) (not_lt.mp hnp))
    obtain ⟨P, hP, hv, hw⟩ := hvalues old rfl heq
    rw [equal_eq hP entry.value old.value hw hv, wireValueEqual_comm hw hv]
    by_cases hequal : Python.wireValueEqual old.value entry.value = true
    · exact Or.inl ⟨none, if_pos hequal, if_pos hequal⟩
    · exact Or.inr ⟨_, _, if_neg hequal, if_neg hequal⟩

/-! ## The loop over the columns -/

/-- `mergeColumn`, as an update at a name. -/
def Python.pick (table rowId field : Text) (old : Option Entry) (new : Entry) :
    Except Python.MergeError (Option Entry) :=
  Python.mergeColumn old new table rowId field

@[inherit_doc Python.pick]
def Swift.pick (U : Unicode) (_field : Text) (old : Option Entry) (new : Entry) :
    Except Swift.MergeError (Option Entry) :=
  Swift.mergeColumn U old new

theorem applyColumns_eq_updateAll (table rowId : Text) (cols : List (Text × Entry))
    (payload : Record Text Entry) (changed : Bool) :
    (Python.applyColumns table rowId cols payload changed).map (fun out => out.1.entries) =
      updateAll (Python.pick table rowId) cols payload.entries := by
  induction cols generalizing payload changed with
  | nil => rfl
  | cons p cols ih =>
    obtain ⟨col, entry⟩ := p
    rw [Python.applyColumns, updateAll]
    have hpick : Python.pick table rowId col (find col payload.entries) entry =
        Python.mergeColumn (payload.get col) entry table rowId col := rfl
    rw [hpick]
    rcases Python.mergeColumn (payload.get col) entry table rowId col with e | o
    · rfl
    · cases o with
      | none => exact ih payload changed
      | some winner => exact ih (payload.set col winner) true

variable {table rowId : Text} {cols : List (Text × Entry)}

theorem payload_of_unchanged {payload payload' : Record Text Entry} {changed : Bool}
    (h : Python.applyColumns table rowId cols payload changed = .ok (payload', false)) :
    payload' = payload ∧ changed = false := by
  induction cols generalizing payload changed with
  | nil =>
    have hpair := Except.ok.inj h
    exact ⟨(congrArg Prod.fst hpair).symm, congrArg Prod.snd hpair⟩
  | cons p cols ih =>
    obtain ⟨col, entry⟩ := p
    rw [Python.applyColumns] at h
    change (Python.mergeColumn (payload.get col) entry table rowId col).bind _ = _ at h
    rcases hm : Python.mergeColumn (payload.get col) entry table rowId col with e | o
    · rw [hm] at h
      exact absurd h (by simp [Except.bind])
    · rw [hm] at h
      cases o with
      | none => exact ih h
      | some winner => exact absurd (ih h).2 (by decide)

/-- Swift's loop makes its updates one after the other, where the names are told apart. -/
theorem swiftColumns_eq_updateAll (hP : ToldApart U.norm P) {columns : List (Text × Entry)}
    (hcols : ∀ j ∈ cols.map Prod.fst, P j) (hcolumns : ∀ j ∈ columns.map Prod.fst, P j) :
    Swift.applyColumns U cols columns =
      updateAll (Swift.pick U) cols columns := by
  induction cols generalizing columns with
  | nil => rfl
  | cons p cols ih =>
    obtain ⟨col, entry⟩ := p
    rw [map_cons, forall_mem_cons] at hcols
    rw [Swift.applyColumns, updateAll, lookup_eq_find hP hcols.1 hcolumns]
    have hpick : Swift.pick U col (find col columns) entry =
        Swift.mergeColumn U (find col columns) entry := rfl
    rw [hpick]
    rcases Swift.mergeColumn U (find col columns) entry with e | o
    · rfl
    · cases o with
      | none => exact ih hcols.2 hcolumns
      | some winner =>
        show Swift.applyColumns U cols (Swift.assign U.norm col winner columns) =
          updateAll _ cols (put col winner columns)
        rw [assign_eq_put hP hcols.1 winner hcolumns]
        refine ih hcols.2 fun j hj => ?_
        rcases mem_map_fst_put.mp hj with rfl | hj
        · exact hcols.1
        · exact hcolumns j hj

variable {payload : Record Text Entry}

/-- **The loops agree**, in whatever order Swift visits the columns: the same entries at every
name, or a conflict in both. -/
theorem applyColumns_swift (table rowId : Text) (hP : ToldApart U.norm P)
    {cols' : List (Text × Entry)} (hperm : cols'.Perm cols) (hnodup : (cols.map Prod.fst).Nodup)
    (hcols : ∀ j ∈ cols.map Prod.fst, P j) {columns : List (Text × Entry)}
    (hsame : ∀ c, find c columns = payload.get c) (hcolumns : ∀ j ∈ columns.map Prod.fst, P j)
    (hkeys : (columns.map Prod.fst).Nodup) (changed : Bool)
    (hmerge : ∀ p ∈ cols, MergesAlike U table rowId p.1 (payload.get p.1) p.2) :
    (∃ out columns', Python.applyColumns table rowId cols payload changed = .ok out ∧
      Swift.applyColumns U cols' columns = .ok columns' ∧
      (∀ c, find c columns' = out.1.get c) ∧ (columns'.map Prod.fst).Nodup) ∨
    (∃ e e', Python.applyColumns table rowId cols payload changed = .error e ∧
      Swift.applyColumns U cols' columns = .error e') := by
  have hnodup' : (cols'.map Prod.fst).Nodup := (hperm.map Prod.fst).nodup_iff.mpr hnodup
  have hpython := applyColumns_eq_updateAll table rowId cols payload changed
  have hswift := swiftColumns_eq_updateAll hP
    (fun j hj => hcols j ((hperm.map Prod.fst).mem_iff.mp hj)) hcolumns
  by_cases hok : ∀ p ∈ cols, ∃ o,
      Python.pick table rowId p.1 (find p.1 payload.entries) p.2 = .ok o
  · left
    -- every column goes through on both sides, so the order does not matter
    have hok' : ∀ p ∈ cols', ∃ o, Swift.pick U p.1 (find p.1 columns) p.2 = .ok o := by
      intro p hp
      rw [hsame]
      obtain ⟨o, -, ho⟩ | ⟨e, -, he, -⟩ := hmerge p (hperm.mem_iff.mp hp)
      · exact ⟨o, ho⟩
      · obtain ⟨o, ho⟩ := hok p (hperm.mem_iff.mp hp)
        exact absurd (ho.symm.trans he) (by simp)
    obtain ⟨l, hl, hfind, -⟩ := updateAll_ok hnodup hok
    obtain ⟨l', hl', hfind', hkeys'⟩ := updateAll_ok hnodup' hok'
    rw [hl] at hpython
    rw [hl'] at hswift
    rcases hout : Python.applyColumns table rowId cols payload changed with e | out
    · rw [hout] at hpython
      exact absurd hpython (by simp [Except.map])
    · rw [hout] at hpython
      have hentries : out.1.entries = l := Except.ok.inj hpython
      refine ⟨out, l', rfl, hswift, fun c => ?_, hkeys' hkeys⟩
      rw [Record.get, hentries, hfind', hfind, updated, updated, find_perm hnodup' hperm, hsame]
      rcases hc : find c cols with _ | new
      · rfl
      · obtain ⟨o, ho, ho'⟩ | ⟨e, -, he, -⟩ := hmerge _ (mem_of_find hc)
        · have hpy : Python.pick table rowId c (find c payload.entries) new = .ok o := ho
          have hsw : Swift.pick U c (payload.get c) new = .ok o := ho'
          simp only [hpy, hsw]
          cases o <;> rfl
        · obtain ⟨o, ho⟩ := hok _ (mem_of_find hc)
          exact absurd (ho.symm.trans he) (by simp)
  · right
    push Not at hok
    obtain ⟨p, hp, hfail⟩ := hok
    obtain ⟨o, ho, -⟩ | ⟨e, e', he, he'⟩ := hmerge p hp
    · exact absurd ho (hfail o)
    have hpy : Python.pick table rowId p.1 (find p.1 payload.entries) p.2 = .error e := he
    have hsw : Swift.pick U p.1 (find p.1 columns) p.2 = .error e' := by
      rw [hsame]
      exact he'
    obtain ⟨f, hf⟩ := updateAll_error hnodup hp hpy
    obtain ⟨f', hf'⟩ := updateAll_error hnodup' (hperm.mem_iff.mpr hp) hsw
    rw [hf] at hpython
    rw [hf'] at hswift
    rcases hout : Python.applyColumns table rowId cols payload changed with g | out
    · exact ⟨g, f', rfl, hswift⟩
    · rw [hout] at hpython
      exact absurd hpython (by simp [Except.map])

/-! ## One row -/

/-- The pairs of stamps that an op compares at a row. -/
inductive Compared (row : Python.Row) : Op → Text → Text → Prop where
  | column {table rowId c : Text} {columns : Record Text Entry} {old new : Entry} :
      row.payload.get c = some old → columns.get c = some new →
      Compared row (.upsert table rowId columns) new.hlc old.hlc
  | revival {table rowId c d : Text} {columns : Record Text Entry} {new : Entry} :
      row.deleted = true → row.deletedHlc = some d → columns.get c = some new →
      Compared row (.upsert table rowId columns) new.hlc d
  | tombstone {table rowId hlc d : Text} : row.deletedHlc = some d →
      Compared row (.delete table rowId hlc) hlc d
  | newer {table rowId hlc c : Text} {e : Entry} : row.payload.get c = some e →
      Compared row (.delete table rowId hlc) e.hlc hlc

/-- A row and an op that the three engines compare alike. -/
structure RowShared (U : Unicode) (row : Python.Row) (op : Op) : Prop where
  stamps : ∀ a b, Compared row op a b → StampsAlike U a b
  values : ∀ c old new, row.payload.get c = some old → op.columns.get c = some new →
    old.hlc = new.hlc → ValuesShared U old.value new.value

theorem truthy_of_canonical {o : Option Text} (h : ∀ d ∈ o, Canonical d) : truthy o = o := by
  cases o with
  | none => rfl
  | some d =>
    exact truthy_of_ne_nil (h d rfl).serialized.ne_nil

theorem newer_swift {a b : Text} (ha : Canonical a) (hb : Canonical b) (h : StampsAlike U a b) :
    ∃ z, Python.compare a b = .ok z ∧
      decide (0 < Native.Swift.hlcCompareStr U a b) = decide (0 < z) := by
  obtain ⟨z, hz, hpos, -⟩ := compare_swift ha hb h
  refine ⟨z, hz, ?_⟩
  simp only [hpos]

theorem stale_swift {a b : Text} (ha : Canonical a) (hb : Canonical b) (h : StampsAlike U a b) :
    ∃ z, Python.compare a b = .ok z ∧
      decide (Native.Swift.hlcCompareStr U a b ≤ 0) = decide (z ≤ 0) := by
  obtain ⟨z, hz, hpos, -⟩ := compare_swift ha hb h
  refine ⟨z, hz, ?_⟩
  simp only [← not_lt, hpos]

theorem any_columns {columns : List (Text × Entry)} (hsame : ∀ c, find c columns = payload.get c)
    (hkeys : (columns.map Prod.fst).Nodup) (f : Entry → Bool) :
    payload.values.any f = columns.any fun p => f p.2 := by
  rw [Bool.eq_iff_iff, List.any_eq_true, List.any_eq_true]
  constructor
  · rintro ⟨e, he, hf⟩
    obtain ⟨c, hc⟩ := Record.mem_values_iff.mp he
    exact ⟨(c, e), mem_of_find ((hsame c).trans hc), hf⟩
  · rintro ⟨⟨c, e⟩, he, hf⟩
    exact ⟨e, Record.mem_values_iff.mpr ⟨c, (hsame c).symm.trans (find_of_mem hkeys he)⟩, hf⟩

variable {existing : Option Python.Row} {existing' : Option Swift.Row}

/-- **A delete**: the same tombstone to store, or nothing in both. -/
theorem applyDelete_swift (hsame : Option.Rel SameRow existing existing')
    (hrow : ∀ row, existing = some row → row.Readable) (table rowId : Text) {hlc : Text}
    (hh : Canonical hlc) (v : ℕ)
    (hshared : ∀ row, existing = some row → RowShared U row (.delete table rowId hlc)) :
    ∃ o, Python.applyDelete existing table rowId hlc v = .ok o ∧
      Option.Rel SameRow o (Swift.applyDelete U existing' table rowId hlc v) := by
  cases hsame with
  | none =>
    refine ⟨_, rfl, .some ⟨rfl, rfl, rfl, rfl, rfl, fun c => rfl, nodup_nil⟩⟩
  | @some row row' hr =>
    have hread := hrow row rfl
    have hmeet := (hshared row rfl).stamps
    have hstale : Python.staleDelete row.deletedHlc hlc = .ok (row.deletedHlc.any fun d =>
        decide (Native.Swift.hlcCompareStr U hlc d ≤ 0)) := by
      rw [staleDelete_eq (g := fun a b => decide (Native.Swift.hlcCompareStr U a b ≤ 0))
        fun d hd => stale_swift hh (hread.deletedHlc d hd) (hmeet _ _ (.tombstone hd)),
        truthy_of_canonical hread.deletedHlc]
    have hnewer : Python.anyNewer hlc row.payload.values = .ok (row.payload.values.any fun e =>
        decide (0 < Native.Swift.hlcCompareStr U e.hlc hlc)) := by
      refine anyNewer_eq (g := fun a b => decide (0 < Native.Swift.hlcCompareStr U a b))
        (fun e he => ?_) fun e he => ?_
      · obtain ⟨c, hc⟩ := Record.mem_values_iff.mp he
        exact (hread.columns c e hc).serialized.ne_nil
      · obtain ⟨c, hc⟩ := Record.mem_values_iff.mp he
        exact newer_swift (hread.columns c e hc) hh (hmeet _ _ (.newer hc))
    simp only [Python.applyDelete, Swift.applyDelete, hstale, hnewer,
      any_columns hr.columns hr.nodup, hr.deletedHlc]
    cases row.deletedHlc.any fun d => decide (Native.Swift.hlcCompareStr U hlc d ≤ 0) with
    | true => exact ⟨none, rfl, .none⟩
    | false =>
      cases row'.columns.any fun p => decide (0 < Native.Swift.hlcCompareStr U p.2.hlc hlc) with
      | true => exact ⟨none, rfl, .none⟩
      | false =>
        exact ⟨_, rfl, .some ⟨hr.table, hr.rowId, rfl, rfl, hr.schemaVersion, fun c => rfl,
          nodup_nil⟩⟩

variable {shuffle : List (Text × Entry) → List (Text × Entry)}
  {columns : Record Text Entry} {row : Python.Row}

theorem mergesAlike_of_shared (hread : row.Readable)
    (hc : ∀ c e, columns.get c = some e → Canonical e.hlc)
    (hshared : RowShared U row (.upsert table rowId columns)) {p : Text × Entry}
    (hp : p ∈ columns.entries) : MergesAlike U table rowId p.1 (row.payload.get p.1) p.2 := by
  have hget := Record.mem_entries_iff.mp hp
  exact mergeColumn_swift table rowId p.1 (fun old ho => hread.columns p.1 old ho)
    (hc p.1 p.2 hget) (fun old ho => hshared.stamps _ _ (.column ho hget))
    fun old ho => hshared.values p.1 old p.2 ho hget

/-- **An upsert**: the same row afterwards, or a conflict in both. -/
theorem applyUpsert_swift (hsame : Option.Rel SameRow existing existing')
    (hrow : ∀ row, existing = some row → row.Readable) (table rowId : Text)
    (hc : ∀ c e, columns.get c = some e → Canonical e.hlc) (v : ℕ)
    (hshared : ∀ row, existing = some row → RowShared U row (.upsert table rowId columns))
    (hP : ToldApart U.norm P) (hcols : ∀ c ∈ columns.keys, P c)
    (hpayload : ∀ row, existing = some row → ∀ c ∈ row.payload.keys, P c)
    (hshuffle : ∀ l, (shuffle l).Perm l) :
    (∃ o o', Python.applyUpsert existing table rowId columns v = .ok o ∧
      Swift.applyUpsert U shuffle existing' table rowId columns v = .ok o' ∧
      Option.Rel SameRow (o.or existing) (o'.or existing')) ∨
    (∃ e e', Python.applyUpsert existing table rowId columns v = .error e ∧
      Swift.applyUpsert U shuffle existing' table rowId columns v = .error e') := by
  -- the row the op is applied to, on both sides
  obtain ⟨row, row', hrowdef, hrowdef', hr, hread, hmeet, hkeys⟩ : ∃ row row',
      existing.getD ⟨table, rowId, false, none, v, ∅⟩ = row ∧
      existing'.getD ⟨table, rowId, false, none, v, []⟩ = row' ∧ SameRow row row' ∧
      row.Readable ∧ RowShared U row (.upsert table rowId columns) ∧
      ∀ c ∈ row.payload.keys, P c := by
    cases hsame with
    | none =>
      refine ⟨_, _, rfl, rfl, ⟨rfl, rfl, rfl, rfl, rfl, fun c => rfl, nodup_nil⟩,
        ⟨fun d hd => absurd hd (by simp), fun c e he => absurd he (by simp)⟩, ⟨?_, ?_⟩, ?_⟩
      · intro a b h
        cases h with
        | column ho _ => exact absurd ho (by simp)
        | revival hd _ _ => exact absurd hd (by simp)
      · intro c old new ho
        exact absurd ho (by simp)
      · intro c hc
        exact absurd hc not_mem_nil
    | @some row row' hr =>
      exact ⟨row, row', rfl, rfl, hr, hrow row rfl, hshared row rfl, hpayload row rfl⟩
  have hdict : Swift.dictionary U.norm columns.entries = columns.entries :=
    dictionary_eq hP columns.nodup hcols
  have hfound : ∀ j ∈ row'.columns.map Prod.fst, P j := by
    intro j hj
    obtain ⟨⟨_, e⟩, hmem, rfl⟩ := mem_map.mp hj
    exact hkeys _ (Record.mem_keys_iff.mpr ⟨e, (hr.columns _).symm.trans
      (find_of_mem hr.nodup hmem)⟩)
  simp only [Python.applyUpsert, Swift.applyUpsert, hrowdef, hrowdef', hdict, hr.deleted,
    hr.deletedHlc, truthy_of_canonical hread.deletedHlc]
  rcases hd : (if row.deleted then row.deletedHlc else none) with _ | d
  · have hloop := applyColumns_swift table rowId hP (hshuffle columns.entries) columns.nodup hcols
      hr.columns hfound hr.nodup existing.isNone fun p hp => mergesAlike_of_shared hread hc hmeet hp
    obtain ⟨⟨payload, changed⟩, merged, hx, hy, hget, hnodup⟩ | ⟨e, e', hx, hy⟩ := hloop
    · left
      simp only [hx, hy]
      refine ⟨_, _, rfl, rfl, ?_⟩
      cases changed with
      | true =>
        exact .some ⟨hr.table, hr.rowId, rfl, rfl, hr.schemaVersion, hget, hnodup⟩
      | false =>
        -- nothing changed, so the row was there; Swift stores it again
        obtain ⟨hpay, hnone⟩ := payload_of_unchanged hx
        obtain rfl : existing = some row := by
          cases existing with
          | none => exact absurd hnone (by simp)
          | some r => exact congrArg some hrowdef
        refine .some ⟨hr.table, hr.rowId, rfl, rfl, hr.schemaVersion, ?_, hnodup⟩
        intro c
        rw [hget c, ← hpay]
    · right
      simp only [hx, hy]
      exact ⟨e, e', rfl, rfl⟩
  · obtain ⟨hdel, hdhlc⟩ : row.deleted = true ∧ row.deletedHlc = some d := by
      split_ifs at hd with hdel
      exact ⟨hdel, hd⟩
    obtain rfl : existing = some row := by
      cases existing with
      | none =>
        rw [← hrowdef] at hdel
        exact absurd hdel (by simp)
      | some r => exact congrArg some hrowdef
    have hnewer : Python.newerColumns d columns.entries = .ok (columns.entries.filter fun p =>
        decide (0 < Native.Swift.hlcCompareStr U p.2.hlc d)) := by
      refine newerColumns_eq (g := fun a b => decide (0 < Native.Swift.hlcCompareStr U a b))
        fun p hp => ?_
      have hget := Record.mem_entries_iff.mp hp
      exact newer_swift (hc p.1 p.2 hget) (hread.deletedHlc d hdhlc)
        (hmeet.stamps _ _ (.revival hdel hdhlc hget))
    simp only [hnewer, bind, Except.bind]
    set kept := columns.entries.filter fun p =>
      decide (0 < Native.Swift.hlcCompareStr U p.2.hlc d) with hkept
    have hsub : ∀ p ∈ kept, p ∈ columns.entries := fun p hp => mem_of_mem_filter hp
    by_cases hempty : kept.isEmpty = true
    · left
      exact ⟨none, none, if_pos hempty, if_pos hempty, hsame⟩
    · rw [if_neg hempty, if_neg hempty]
      have hblank : ∀ c, find c ([] : List (Text × Entry)) = (∅ : Record Text Entry).get c :=
        fun c => rfl
      have hloop := applyColumns_swift table rowId hP (hshuffle kept)
        (columns.nodup.sublist (filter_sublist.map Prod.fst))
        (fun j hj => by
          obtain ⟨p, hp, rfl⟩ := mem_map.mp hj
          exact hcols p.1 (mem_map.mpr ⟨p, hsub p hp, rfl⟩))
        hblank (fun j hj => absurd hj not_mem_nil) nodup_nil true fun p hp => Or.inl ⟨some p.2, rfl, rfl⟩
      obtain ⟨out, merged, hx, hy, hget, hnodup⟩ | ⟨e, e', hx, hy⟩ := hloop
      · left
        simp only [hx, hy]
        exact ⟨_, _, rfl, rfl, .some ⟨hr.table, hr.rowId, rfl, rfl, hr.schemaVersion, hget, hnodup⟩⟩
      · right
        simp only [hx, hy]
        exact ⟨e, e', rfl, rfl⟩

theorem rel_or {α β : Type} {R : α → β → Prop} {o a : Option α} {o' b : Option β}
    (ho : Option.Rel R o o') (h : Option.Rel R a b) : Option.Rel R (o.or a) (o'.or b) := by
  cases ho with
  | none => exact h
  | some hr => exact .some hr

variable {op : Op}

/-- **An op against its row**: the same row afterwards, or a conflict in both. -/
theorem applyToRow_swift (hsame : Option.Rel SameRow existing existing')
    (hrow : ∀ row, existing = some row → row.Readable) (hop : op.Canonical) (v : ℕ)
    (hshared : ∀ row, existing = some row → RowShared U row op) (hP : ToldApart U.norm P)
    (hcols : ∀ c ∈ op.columns.keys, P c)
    (hpayload : ∀ row, existing = some row → ∀ c ∈ row.payload.keys, P c)
    (hshuffle : ∀ l, (shuffle l).Perm l) :
    (∃ o o', Python.applyToRow existing op v = .ok o ∧
      Swift.applyToRow U shuffle existing' op v = .ok o' ∧
      Option.Rel SameRow (o.or existing) (o'.or existing')) ∨
    (∃ e e', Python.applyToRow existing op v = .error e ∧
      Swift.applyToRow U shuffle existing' op v = .error e') := by
  cases op with
  | delete table rowId hlc =>
    obtain ⟨o, ho, hrel⟩ := applyDelete_swift hsame hrow table rowId (hop hlc mem_cons_self) v
      hshared
    exact Or.inl ⟨o, _, ho, rfl, rel_or hrel hsame⟩
  | upsert table rowId columns =>
    refine applyUpsert_swift hsame hrow table rowId (fun c e he => ?_) v hshared hP hcols hpayload
      hshuffle
    exact hop e.hlc (mem_map.mpr ⟨e, Record.mem_values_iff.mpr ⟨c, he⟩, rfl⟩)

/-! ## One step -/

/-- Names that are no inherited ones.  Core keeps its tables and rows in plain objects, where an
inherited name is found before anything is stored under it; among the columns of a row, whose
entries are recognised by their stamps, only `__proto__` is in the way. -/
structure Op.Ordinary (op : Op) : Prop where
  table : op.table ∉ inheritedNames
  rowId : op.rowId ∉ inheritedNames
  columns : protoName ∉ op.columns.keys

/-- **What a step needs**: of the tables before it and of its op.  Names that meet in one
dictionary are told apart, stamps that are compared are ordered alike, values under one stamp
are shared, and Swift decodes the op. -/
structure Alike (U : Unicode) (py : Python.Tables) (op : Op) : Prop where
  tables : ToldApart U.norm fun t => t = op.table ∨ t ∈ py.keys
  rows : ToldApart U.norm fun r => r = op.rowId ∨ ∃ l, py.get op.table = some l ∧ r ∈ l.keys
  columns : ToldApart U.norm fun c => c ∈ op.columns.keys ∨
    ∃ row, Python.rowAt py op.table op.rowId = some row ∧ c ∈ row.payload.keys
  row : ∀ row, Python.rowAt py op.table op.rowId = some row → RowShared U row op
  ordinary : op.Ordinary
  inRange : ∀ e ∈ op.columns.values, e.value.InRange

theorem keys_of_rel {V W : Type} {R : V → W → Prop} {r : Record Text V} {l : List (Text × W)}
    (h : ∀ k, Option.Rel R (r.get k) (find k l)) {j : Text} (hj : j ∈ l.map Prod.fst) :
    j ∈ r.keys := by
  have hj' : find j l ≠ none := fun hnone => find_eq_none_iff.mp hnone hj
  have hrel := h j
  rcases hget : r.get j with _ | v
  · rw [hget] at hrel
    cases hfind : find j l with
    | none => exact absurd hfind hj'
    | some w =>
      rw [hfind] at hrel
      cases hrel
  · exact Record.mem_keys_iff.mpr ⟨v, hget⟩

theorem rel_set {V W : Type} {R : V → W → Prop} {r : Record Text V} {l : List (Text × W)}
    (h : ∀ k, Option.Rel R (r.get k) (find k l)) (k : Text) {v : V} {w : W} (hvw : R v w) :
    ∀ j, Option.Rel R ((r.set k v).get j) (find j (put k w l)) := by
  intro j
  rw [Record.get_set, find_put]
  by_cases hk : k = j
  · rw [if_pos hk, if_pos hk]
    exact .some hvw
  · rw [if_neg hk, if_neg hk]
    exact h j

theorem sameRows_store {rows : Record Text Python.Row} {rows' : List (Text × Swift.Row)}
    (h : SameRows rows rows') (rowId : Text) {o : Option Python.Row} {o' : Option Swift.Row}
    (ho : Option.Rel SameRow (o.or (rows.get rowId)) (o'.or (find rowId rows'))) :
    SameRows (o.elim rows fun row => rows.set rowId row)
      (o'.elim rows' fun row => put rowId row rows') := by
  intro r
  by_cases hr : rowId = r
  · subst hr
    cases o <;> cases o' <;>
      simpa only [elim_none, elim_some, none_or, some_or, find_put,
        Record.get_set, if_true] using ho
  · have hother := h r
    cases o <;> cases o' <;>
      simpa only [elim_none, elim_some, find_put, Record.get_set, if_neg hr] using hother

variable {py : Python.Tables}

/-- **One op, in Python and in Swift**: the same tables, or a conflict in both. -/
theorem applyOp_swift {sw : Swift.Tables} (hsame : SameTables py sw) (v : ℕ)
    (hrow : ∀ row, Python.rowAt py op.table op.rowId = some row → row.Readable) (hop : op.Canonical)
    (h : Alike U py op) (hshuffle : ∀ l, (shuffle l).Perm l) :
    (∃ py' sw', Python.applyOp py op v = .ok py' ∧ Swift.applyOp U shuffle sw op v = .ok sw' ∧
      SameTables py' sw') ∨
    (∃ e e', Python.applyOp py op v = .error e ∧ Swift.applyOp U shuffle sw op v = .error e') := by
  have hlookup : Swift.lookup U.norm op.table sw = find op.table sw :=
    lookup_eq_find h.tables (Or.inl rfl) fun j hj => Or.inr (keys_of_rel hsame hj)
  have hassign : ∀ rows, Swift.assign U.norm op.table rows sw = put op.table rows sw := fun rows =>
    assign_eq_put h.tables (Or.inl rfl) rows fun j hj => Or.inr (keys_of_rel hsame hj)
  -- the rows of the table, on both sides
  obtain ⟨rows, rows', hrows, hrows', hrel, hkeys⟩ : ∃ rows rows',
      (py.get op.table).getD ∅ = rows ∧ (find op.table sw).getD [] = rows' ∧ SameRows rows rows' ∧
      ∀ r ∈ rows.keys, ∃ l, py.get op.table = some l ∧ r ∈ l.keys := by
    have hrel := hsame op.table
    rcases hget : py.get op.table with _ | rows
    · rw [hget] at hrel
      rcases hfind : find op.table sw with _ | rows'
      · exact ⟨∅, [], rfl, rfl, fun r => .none, fun r hr => absurd hr not_mem_nil⟩
      · rw [hfind] at hrel
        cases hrel
    · rw [hget] at hrel
      rcases hfind : find op.table sw with _ | rows'
      · rw [hfind] at hrel
        cases hrel
      · rw [hfind] at hrel
        cases hrel with
        | some hrel => exact ⟨rows, rows', rfl, rfl, hrel, fun r hr => ⟨rows, rfl, hr⟩⟩
  have hat : Python.rowAt py op.table op.rowId = rows.get op.rowId := by
    rw [Python.rowAt, ← hrows]
    cases py.get op.table <;> rfl
  have hlookup' : Swift.lookup U.norm op.rowId rows' = find op.rowId rows' :=
    lookup_eq_find h.rows (Or.inl rfl) fun j hj => Or.inr (hkeys j (keys_of_rel hrel hj))
  have hassign' : ∀ row, Swift.assign U.norm op.rowId row rows' = put op.rowId row rows' :=
    fun row => assign_eq_put h.rows (Or.inl rfl) row fun j hj =>
      Or.inr (hkeys j (keys_of_rel hrel hj))
  have hstep := applyToRow_swift (hrel op.rowId) (fun row hr => hrow row (hat.trans hr)) hop v
    (fun row hr => h.row row (hat.trans hr)) h.columns (fun c hc => Or.inl hc)
    (fun row hr c hc => Or.inr ⟨row, hat.trans hr, hc⟩) hshuffle
  simp only [Python.applyOp, Swift.applyOp, hlookup, hrows, hrows', hlookup', hassign, hassign']
  obtain ⟨o, o', hx, hy, ho⟩ | ⟨e, e', hx, hy⟩ := hstep
  · left
    have hstore := sameRows_store hrel op.rowId ho
    refine ⟨py.set op.table (o.elim rows fun row => rows.set op.rowId row),
      put op.table (o'.elim rows' fun row => put op.rowId row rows') sw, ?_, ?_,
      rel_set hsame op.table hstore⟩
    · rw [hx]
      cases o <;> rfl
    · rw [hy]
      cases o' <;> rfl
  · right
    rw [hx, hy]
    exact ⟨e, e', rfl, rfl⟩

/-! ## Runs -/

/-- The stamps in the tables are canonical. -/
def Python.Tables.Readable (tables : Python.Tables) : Prop :=
  ∀ t r row, Python.rowAt tables t r = some row → row.Readable

theorem canonical_applyColumns {changed : Bool} {out : Record Text Entry × Bool}
    (h : Python.applyColumns table rowId cols payload changed = .ok out)
    (hp : ∀ c e, payload.get c = some e → Canonical e.hlc) (hc : ∀ p ∈ cols, Canonical p.2.hlc) :
    ∀ c e, out.1.get c = some e → Canonical e.hlc := by
  induction cols generalizing payload changed with
  | nil =>
    rw [← Except.ok.inj h]
    exact hp
  | cons p cols ih =>
    obtain ⟨col, entry⟩ := p
    rw [forall_mem_cons] at hc
    rw [Python.applyColumns] at h
    change (Python.mergeColumn (payload.get col) entry table rowId col).bind _ = _ at h
    rcases hm : Python.mergeColumn (payload.get col) entry table rowId col with e | o
    · rw [hm] at h
      exact absurd h (by simp [Except.bind])
    · rw [hm] at h
      cases o with
      | none => exact ih h hp hc.2
      | some winner =>
        obtain rfl := winner_eq hm
        refine ih h (fun c e he => ?_) hc.2
        rw [Record.get_set] at he
        split_ifs at he with hcc
        · rw [← some.inj he]
          exact hc.1
        · exact hp c e he

theorem newerColumns_sublist {d : Text} {kept : List (Text × Entry)}
    (h : Python.newerColumns d cols = .ok kept) : kept.Sublist cols := by
  induction cols generalizing kept with
  | nil =>
    rw [← Except.ok.inj h]
  | cons p cols ih =>
    simp only [Python.newerColumns, bind, Except.bind] at h
    rcases hz : Python.compare p.2.hlc d with e | z
    · rw [hz] at h
      exact absurd h (by simp)
    · rw [hz] at h
      rcases hrest : Python.newerColumns d cols with e | rest
      · rw [hrest] at h
        exact absurd h (by simp)
      · rw [hrest] at h
        rw [← Except.ok.inj h]
        split_ifs
        · exact (ih hrest).cons_cons p
        · exact (ih hrest).cons p

variable {v : ℕ}

theorem readable_applyUpsert (hrow : ∀ row, existing = some row → row.Readable)
    (hc : ∀ p ∈ columns.entries, Canonical p.2.hlc)
    (h : Python.applyUpsert existing table rowId columns v = .ok (some row)) : row.Readable := by
  have hread : (existing.getD ⟨table, rowId, false, none, v, ∅⟩).Readable := by
    cases existing with
    | none => exact ⟨fun d hd => absurd hd (by simp), fun c e he => absurd he (by simp)⟩
    | some row => exact hrow row rfl
  simp only [Python.applyUpsert] at h
  set base := existing.getD ⟨table, rowId, false, none, v, ∅⟩ with hbase
  rcases hd : (if base.deleted then truthy base.deletedHlc else none) with _ | d
  · rw [hd] at h
    simp only [bind, Except.bind] at h
    rcases hloop : Python.applyColumns table rowId columns.entries base.payload existing.isNone
      with e | out
    · rw [hloop] at h
      exact absurd h (by simp)
    · rw [hloop] at h
      have hsome := Except.ok.inj h
      split_ifs at hsome
      rw [← some.inj hsome]
      exact ⟨hread.deletedHlc, canonical_applyColumns hloop hread.columns hc⟩
  · rw [hd] at h
    simp only [bind, Except.bind] at h
    rcases hnewer : Python.newerColumns d columns.entries with e | kept
    · rw [hnewer] at h
      exact absurd h (by simp)
    · rw [hnewer] at h
      simp only at h
      split_ifs at h
      · exact absurd h (by simp)
      · rcases hloop : Python.applyColumns table rowId kept ∅ true with e | out
        · rw [hloop] at h
          exact absurd h (by simp)
        · rw [hloop] at h
          rw [← some.inj (Except.ok.inj h)]
          refine ⟨fun e he => absurd he (by simp), canonical_applyColumns hloop
            (fun c e he => absurd he (by simp)) fun p hp => hc p ?_⟩
          exact (newerColumns_sublist hnewer).subset hp

theorem readable_applyToRow (hrow : ∀ row, existing = some row → row.Readable) (hop : op.Canonical)
    (h : Python.applyToRow existing op v = .ok (some row)) : row.Readable := by
  cases op with
  | upsert table rowId columns =>
    refine readable_applyUpsert hrow (fun p hp => ?_) h
    exact hop p.2.hlc (mem_map.mpr ⟨p.2, mem_map.mpr ⟨p, hp, rfl⟩, rfl⟩)
  | delete table rowId hlc =>
    have hh : Canonical hlc := hop hlc mem_cons_self
    have htomb : ∀ d ∈ some hlc, Canonical d := by
      rintro d ⟨⟩
      exact hh
    cases existing with
    | none =>
      rw [← some.inj (Except.ok.inj h)]
      exact ⟨htomb, fun c e he => absurd he (by simp)⟩
    | some old =>
      simp only [Python.applyToRow, Python.applyDelete, bind, Except.bind] at h
      split at h
      · exact absurd h (by simp)
      · split_ifs at h
        · exact absurd h (by simp)
        · split at h
          · exact absurd h (by simp)
          · split_ifs at h
            · exact absurd h (by simp)
            · rw [← some.inj (Except.ok.inj h)]
              exact ⟨htomb, fun c e he => absurd he (by simp)⟩

theorem readable_applyOp {py' : Python.Tables} (hpy : py.Readable) (hop : op.Canonical)
    (h : Python.applyOp py op v = .ok py') : py'.Readable := by
  set rows := (py.get op.table).getD ∅ with hrows
  have hat : ∀ r, rows.get r = Python.rowAt py op.table r := by
    intro r
    rw [Python.rowAt, hrows]
    cases py.get op.table <;> rfl
  -- tables that differ from the old ones in that table only, where every row is readable
  have hset : ∀ stored : Record Text Python.Row, (∀ r row, stored.get r = some row → row.Readable) →
      Python.Tables.Readable (py.set op.table stored) := by
    intro stored hstored t r row hr
    rw [Python.rowAt, Record.get_set] at hr
    by_cases ht : op.table = t
    · rw [if_pos ht] at hr
      exact hstored r row hr
    · rw [if_neg ht] at hr
      exact hpy t r row hr
  have hold : ∀ r row, rows.get r = some row → row.Readable := fun r row hr =>
    hpy op.table r row ((hat r).symm.trans hr)
  simp only [Python.applyOp, bind, Except.bind, ← hrows] at h
  rcases hstep : Python.applyToRow (rows.get op.rowId) op v with e | o
  · rw [hstep] at h
    exact absurd h (by simp)
  · rw [hstep] at h
    cases o with
    | none =>
      rw [← Except.ok.inj h]
      exact hset rows hold
    | some row =>
      have hread := readable_applyToRow (fun row hr => hold op.rowId row hr) hop hstep
      rw [← Except.ok.inj h]
      refine hset _ fun r row' hr => ?_
      rw [Record.get_set] at hr
      split_ifs at hr
      · rw [← some.inj hr]
        exact hread
      · exact hold r row' hr

/-- **The outcome of a run in the three engines**: at every op all go on or all fail with a
conflict, whatever order Swift visits the columns in, and at the end the tables are the same. -/
def SameOutcome (U : Unicode) (v : ℕ) :
    List Op → Interocitor.Tables → Python.Tables → Swift.Tables → Prop
  | [], ts, py, sw => ts = py.toCore ∧ SameTables py sw
  | op :: ops, ts, py, sw => ∀ shuffle : List (Text × Entry) → List (Text × Entry),
    (∀ l, (shuffle l).Perm l) →
      match applyOp ts op.toCore v none, Python.applyOp py op v,
        Swift.applyOp U shuffle sw op v with
      | .ok out, .ok py', .ok sw' => SameOutcome U v ops out.2 py' sw'
      | .error (.conflictingValues ..), .error (.conflictingValues ..), .error _ => True
      | _, _, _ => False

/-- A run whose steps all meet the condition. -/
def AlikeRun (U : Unicode) (v : ℕ) : List Op → Python.Tables → Prop
  | [], _ => True
  | op :: ops, py => Alike U py op ∧
    ∀ py', Python.applyOp py op v = .ok py' → AlikeRun U v ops py'

theorem rowAlike_of_shared {row : Option Python.Row} (h : ∀ r, row = some r → RowShared U r op) :
    RowAlike row op := by
  intro r hr c old new hold hnew hhlc
  obtain ⟨P, -, hv, hw⟩ := (h r hr).values c old new hold hnew hhlc
  exact wireValueEqual_eq old.value new.value hv hw

theorem sameOutcome_of_same {ops : List Op} (hops : ∀ op ∈ ops, op.Canonical) {sw : Swift.Tables}
    (hpy : py.Readable) (hsame : SameTables py sw) (h : AlikeRun U v ops py) :
    SameOutcome U v ops py.toCore py sw := by
  induction ops generalizing py sw with
  | nil => exact ⟨rfl, hsame⟩
  | cons op ops ih =>
    rw [forall_mem_cons] at hops
    rw [AlikeRun] at h
    intro shuffle hshuffle
    have hcore := applyOp_core v (fun row hr => hpy _ _ row hr) hops.1 (rowAlike_of_shared h.1.row)
    have hswift := applyOp_swift hsame v (fun row hr => hpy _ _ row hr) hops.1 h.1 hshuffle
    obtain ⟨py', hx, hy⟩ | ⟨hlc, t, r, c, hx, hy⟩ := hcore.cases
    · obtain ⟨out, hout, hts⟩ : ∃ out, applyOp py.toCore op.toCore v none = .ok out ∧
          out.2 = py'.toCore := by
        rcases hcoreOp : applyOp py.toCore op.toCore v none with e | out
        · rw [hcoreOp] at hy
          exact absurd hy (by simp [Except.map])
        · rw [hcoreOp] at hy
          exact ⟨out, rfl, Except.ok.inj hy⟩
      obtain ⟨py₂, sw', hx', hsw, hsame'⟩ | ⟨e, e', hx', -⟩ := hswift
      · obtain rfl : py' = py₂ := Except.ok.inj (hx.symm.trans hx')
        rw [hout, hx, hsw]
        show SameOutcome U v ops out.2 py' sw'
        rw [hts]
        exact ih hops.2 (readable_applyOp hpy hops.1 hx) hsame' (h.2 py' hx)
      · exact absurd (hx.symm.trans hx') (by simp)
    · obtain ⟨py₂, sw', hx', -⟩ | ⟨e, e', -, hsw⟩ := hswift
      · exact absurd (hx.symm.trans hx') (by simp)
      · have hcoreOp : applyOp py.toCore op.toCore v none =
            .error (.conflictingValues hlc t r c) := by
          rcases hcoreOp : applyOp py.toCore op.toCore v none with e | out
          · rw [hcoreOp] at hy
            exact congrArg Except.error (Except.error.inj hy)
          · rw [hcoreOp] at hy
            exact absurd hy (by simp [Except.map])
        rw [hcoreOp, hx, hsw]
        trivial

/-- **The three implementations merge alike** in every run whose steps all meet the condition:
all fail with a conflict at the same op, or all end with the same rows, flags, tombstones and
entries. -/
theorem implementations_merge_alike (U : Unicode) (v : ℕ) (ops : List Op)
    (hops : ∀ op ∈ ops, op.Canonical) (h : AlikeRun U v ops ∅) : SameOutcome U v ops ∅ ∅ [] := by
  refine sameOutcome_of_same hops (fun t r row hr => ?_) (fun t => .none) h
  exact absurd hr (by simp [Python.rowAt])

/-! ## Runs at fixed inputs -/

/-- Unicode as it is on ASCII texts. -/
def plainUnicode : Unicode where
  norm := id
  less s t := decide (s < t)
  attaches _ := false
  digit _ _ _ := rfl

/-- The first stamp of device `a`. -/
def firstHlc : Text := stampText ⟨1, 0, [97]⟩

/-- `{ "c": … }` under the first stamp, at row `r` of table `t`. -/
def firstUpsert (l : Literal) : Op :=
  .upsert [116] [114] ⟨[([99], ⟨.number l, firstHlc⟩)], nodup_singleton _⟩

theorem canonical_firstHlc : Canonical firstHlc :=
  ⟨⟨1, 0, [97]⟩, ⟨by decide, by decide, by decide⟩, rfl⟩

theorem canonical_firstUpsert (l : Literal) : (firstUpsert l).Canonical := by
  intro s hs
  obtain rfl : s = firstHlc := mem_singleton.mp hs
  exact canonical_firstHlc

/-- An op that is delivered twice. -/
theorem redelivery_merges_alike :
    SameOutcome plainUnicode 1 [firstUpsert (.ofInt 1), firstUpsert (.ofInt 1)] ∅ ∅ [] := by
  have hapart : ∀ P, ToldApart plainUnicode.norm P := fun P s t _ _ h => h
  have hstamps : ∀ a b, StampsAlike plainUnicode a b := fun a b =>
    ⟨rfl, rfl, decide_eq_true_iff, decide_eq_true_iff⟩
  have hordinary : (firstUpsert (.ofInt 1)).Ordinary := ⟨by decide, by decide, by decide⟩
  have halike : ∀ py, (∀ row, Python.rowAt py [116] [114] = some row →
      ∀ c e, row.payload.get c = some e → e.value = .number (.ofInt 1)) →
      Alike plainUnicode py (firstUpsert (.ofInt 1)) := by
    intro py hvalues
    refine ⟨hapart _, hapart _, hapart _, fun row hr => ⟨fun a b _ => hstamps a b, ?_⟩, hordinary,
      fun e he => ?_⟩
    swap
    · rw [mem_singleton.mp he]
      exact ⟨_, Literal.double_ofInt (by norm_num)⟩
    intro c old new hold hnew _
    have hnum : ∀ P, (Value.number (.ofInt 1)).Within P := fun P => faithful_ofInt (by norm_num)
    have hnew' : new.value = .number (.ofInt 1) := by
      have hmem := Record.mem_entries_iff.mpr hnew
      exact congrArg (fun p => p.2.value) (mem_singleton.mp hmem)
    refine ⟨fun _ => True, hapart _, ?_, ?_⟩
    · rw [hvalues row hr c old hold]
      exact hnum _
    · rw [hnew']
      exact hnum _
  refine implementations_merge_alike plainUnicode 1 _ ?_ ⟨halike ∅ ?_, fun py hpy => ⟨halike py ?_,
    fun _ _ => trivial⟩⟩
  · simp [canonical_firstUpsert]
  · intro row hr
    exact absurd hr (by simp [Python.rowAt])
  · intro row hr c e he
    rw [← Except.ok.inj hpy] at hr
    rw [← some.inj hr] at he
    exact congrArg (fun p => p.2.value) (mem_singleton.mp (Record.mem_entries_iff.mpr he))

/-- `-0`. -/
def minusZero : Literal := ⟨true, 0, none, none⟩

/-- The tables of core after one upsert of `{ "c": x }` under the first stamp. -/
def firstTables (v : ℕ) (x : JsValue) : Interocitor.Tables :=
  (∅ : Interocitor.Tables).set [116] ((∅ : Record Text Interocitor.Row).set [114]
    ⟨⟨[116], [114], false, none, v, none⟩, (∅ : Record Text ColumnEntry).set [99] ⟨x, firstHlc⟩⟩)

/-- The two zeros under one stamp are a conflict in core. -/
theorem conflict_firstTables (v : ℕ) :
    applyOp (firstTables v (.number (jsNumber (.ofInt 0)))) (firstUpsert minusZero).toCore v none =
      .error (.conflictingValues firstHlc [116] [114] [99]) := by
  have hcompare : hlcCompareStr firstHlc firstHlc = some 0 := by decide +kernel
  have hne : firstHlc ≠ [] := by decide +kernel
  have hzero : jsNumber (.ofInt 0) = .finite 0 := by decide +kernel
  have hminus : jsNumber minusZero = .negZero := by decide +kernel
  have hop : (firstUpsert minusZero).toCore = .upsert [116] [114]
      ⟨[([99], ⟨.number (jsNumber minusZero), firstHlc⟩)], nodup_singleton _⟩ := rfl
  simp [hop, hzero, hminus, firstTables, applyOp, applyToRow, applyUpsert, applyColumns,
    mergeColumn, resolveStrategy, hcompare, hne, isPos, isNeg, columnValuesEqual,
    Record.get_set_self, Interocitor.Op.table, Interocitor.Op.rowId]

/-- Two ops under one stamp, one with `0` and one with `-0`: core alone finds a conflict. -/
theorem minus_zero_merged_apart : ∃ ops : List Op, (∀ op ∈ ops, op.Canonical) ∧
    ∀ (U : Unicode) (v : ℕ), ¬ SameOutcome U v ops ∅ ∅ [] := by
  refine ⟨[firstUpsert (.ofInt 0), firstUpsert minusZero], ?_, fun U v h => ?_⟩
  · simp [canonical_firstUpsert]
  · have hconflict := conflict_firstTables v
    -- Python takes the two zeros for one number and keeps the entry
    have hkept : ∃ py sw, (Python.applyOp ∅ (firstUpsert (.ofInt 0)) v = .ok py ∧
        Swift.applyOp U id [] (firstUpsert (.ofInt 0)) v = .ok sw) ∧
        ∃ py', Python.applyOp py (firstUpsert minusZero) v = .ok py' :=
      ⟨_, _, ⟨rfl, rfl⟩, _, rfl⟩
    obtain ⟨py, sw, ⟨hpy, hsw⟩, py', hpy'⟩ := hkept
    have hfirst : applyOp ∅ (firstUpsert (.ofInt 0)).toCore v none =
        .ok (some _, firstTables v (.number (jsNumber (.ofInt 0)))) := rfl
    have hstep := h id (fun l => List.Perm.refl l)
    rw [hfirst, hpy, hsw] at hstep
    have hnext := hstep id (fun l => List.Perm.refl l)
    simp only [hconflict, hpy'] at hnext

end Interocitor.Wire
