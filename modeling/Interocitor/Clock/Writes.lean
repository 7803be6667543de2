import Interocitor.Clock.Inbox

/-!
# The clock when a local write is stamped

A write first takes over the stored clock if that one is ahead of the engine's, then
ticks, and stores the row together with a clock record.  The record is not the stamp
of the write: it is the stamp of the batch that the write joins, and a batch carries
the latest stamp of the rows in it, compared as texts.

* `wp_putNow` and `wp_deleteNow`: the stamp of a write is later than both clocks, the
  engine's clock is the stamp, and the stored clock is not behind it --- as long as the
  write puts its stamp into the row, which a `put` without columns does not.

Texts order like stamps only while these have their documented widths; `HasRoom` says
that the next tick still does.
-/

namespace Interocitor

open CodeUnits OrderedRecord Interaction HybridClock Eng
open Proc (wp_bind wp_get wp_modify wp_mono)

/-! ## The clock record of a batch -/

theorem fits_stampText {s : Stamp Text} (h : Narrow s) : Fits (stampText s) := ⟨s, rfl, h⟩

theorem Fits.lt_iff {a b : Text} (ha : Fits a) (hb : Fits b) : a < b ↔ stampOf a < stampOf b := by
  obtain ⟨s, rfl, hs⟩ := ha
  obtain ⟨t, rfl, ht⟩ := hb
  rw [stampOf_stampText, stampOf_stampText, stampText_lt_iff hs ht]

/-- The stored batches have stamps that fit. -/
def FitBatch (store : LocalStore) : Prop := ∀ p, store.pendingBatch = some p → Fits p.hlc

/-- **A batch is stamped no earlier than the change it takes in.** -/
theorem hlc_joinBatch {store : LocalStore} (h : FitBatch store) (change : ChangeEntry)
    (hc : Fits change.hlc) :
    Fits (LocalStore.joinBatch store.pendingBatch change).hlc ∧
      stampOf change.hlc ≤ stampOf (LocalStore.joinBatch store.pendingBatch change).hlc := by
  cases hp : store.pendingBatch with
  | none => exact ⟨hc, le_refl _⟩
  | some p =>
    have hp' : Fits p.hlc := h p hp
    simp only [LocalStore.joinBatch]
    split_ifs with hlt
    · exact ⟨hc, le_refl _⟩
    · exact ⟨hp', not_lt.mp fun hst => hlt ((hp'.lt_iff hc).mpr hst)⟩

/-! ## Storing a row -/

theorem LocalStore.HasStamp.of_rows {s s' : LocalStore} (h : s.rows = s'.rows) {t : Text}
    (ht : s.HasStamp t) : s'.HasStamp t := by
  obtain ⟨key, row, hget, hmem⟩ := ht
  exact ⟨key, row, h ▸ hget, hmem⟩

variable {row : Row}

theorem hasStamp_putRow {store : LocalStore} {t : Text} (h : (store.putRow row).HasStamp t) :
    store.HasStamp t ∨ t ∈ row.stamps := by
  have hrows : (store.putRows [row]).HasStamp t := h
  rcases hasStamp_putRows hrows with hold | ⟨row', hrow', hmem⟩
  · exact .inl hold
  · exact .inr (List.mem_singleton.mp hrow' ▸ hmem)

theorem rowToSyncOp_isSome (h : ∀ t ∈ row.stamps, Serialized t) {t : Text} (ht : t ∈ row.stamps)
    (hlive : row._meta.deleted = false → row._meta.deletedHlc = none) :
    ∃ op, rowToSyncOp row = some op := by
  have hpublished : getRowHlc row ≠ [] := (h _ (getRowHlc_spec h ht).1).ne_nil
  cases hd : row._meta.deleted with
  | true =>
    have hne : row._meta.deletedHlc.getD (getRowHlc row) ≠ [] := by
      cases hh : row._meta.deletedHlc with
      | none => exact hpublished
      | some d => exact (h d (mem_stamps_row.mpr (.inl hh))).ne_nil
    exact ⟨_, by rw [rowToSyncOp, if_pos hd]; exact if_neg hne⟩
  | false =>
    rcases mem_stamps_row.mp ht with hdel | ⟨col, entry, hget, rfl, hstamp⟩
    · exact absurd ((hlive hd).symm.trans hdel) (by simp)
    · have hkeep : (row.payload.filter fun _ e => decide (e.hlc ≠ [])).get col = some entry := by
        rw [Record.get_filter, hget]
        simp [hstamp]
      have hne : (row.payload.filter fun _ e => decide (e.hlc ≠ [])).entries ≠ [] := fun hnil =>
        absurd (Record.entries_eq_nil_iff.mp hnil col) (by rw [hkeep]; simp)
      exact ⟨_, by rw [rowToSyncOp, if_neg (by simp [hd])]; exact if_neg hne⟩

/-- The device after a row was stored. -/
structure RowStored (d : Device) (row : Row) (d' : Device) : Prop where
  config : d'.config = d.config
  clock : d'.hlc = d.hlc
  rows : ∀ t, d'.store.HasStamp t → d.store.HasStamp t ∨ t ∈ row.stamps
  batch : FitBatch d'.store
  saved : d'.store.metadata.hlc = d.store.metadata.hlc ∨
    ∃ t, d'.store.metadata.hlc = some t ∧ Fits t
  -- a stamp that the row publishes is not ahead of the stored clock
  covers : (row._meta.deleted = false → row._meta.deletedHlc = none) → ∀ t ∈ row.stamps,
    ∃ t', d'.store.metadata.hlc = some t' ∧ Fits t' ∧ stampOf t ≤ stampOf t'

theorem RowStored.promoted {d d' : Device} (h : RowStored d row d') :
    RowStored d row d'.promoted := by
  have hp := flushed_promoted d'
  refine ⟨hp.config.trans h.config, hp.clock.trans h.clock, fun t ht => ?_, fun p hp' => ?_, ?_, ?_⟩
  · exact h.rows t (ht.of_rows hp.rows)
  · exact absurd (hp.pending.symm.trans hp') (by simp)
  · rw [hp.saved]
    exact h.saved
  · rw [hp.saved]
    exact h.covers

theorem wp_storeMutation {d : Device} {w : Inbox} (hbatch : FitBatch d.store)
    (hrow : ∀ t ∈ row.stamps, Fits t) :
    (storeMutation row).wp Inbox.env (fun _ d' _ => RowStored d row d') (fun _ _ _ => False)
      d w := by
  have hser : ∀ t ∈ row.stamps, Serialized t := fun t ht => (hrow t ht).serialized
  rw [storeMutation]
  split
  · rename_i op hlc hop htruthy
    obtain ⟨hhlc, hne⟩ : getRowHlc row = hlc ∧ hlc ≠ [] := by
      simpa [truthy] using htruthy
    have hmem : getRowHlc row ∈ row.stamps := (getRowHlc_eq row).resolve_left (hhlc ▸ hne)
    rw [commitLocalMutation, wp_bind, wp_generateId]
    rintro w₁ rfl uuid w₂ hans
    refine ⟨trivial, ?_⟩
    obtain rfl : w₂ = w := hans
    rw [wp_bind, wp_now]
    rintro w₃ rfl ts w₄ ⟨-, rfl⟩
    refine ⟨trivial, ?_⟩
    rw [wp_bind, wp_modify, wp_bind, wp_get, Proc.wp_when]
    have hchange : Fits hlc := hhlc ▸ hrow _ hmem
    obtain ⟨hfit, hle⟩ := hlc_joinBatch hbatch ⟨_, ts, d.config.deviceId, hlc, [op]⟩ hchange
    refine (fun hstored : RowStored d row _ => ⟨fun _ => hstored.promoted, fun _ => hstored⟩) ?_
    refine ⟨rfl, rfl, fun t ht => hasStamp_putRow ht, ?_, .inr ⟨_, rfl, hfit⟩, fun _ t ht => ?_⟩
    · intro p hp
      obtain rfl := Option.some.inj hp
      exact hfit
    · refine ⟨_, rfl, hfit, ?_⟩
      exact ((getRowHlc_spec hser ht).2.trans_eq (congrArg stampOf hhlc)).trans hle
  · rename_i hnot
    rw [wp_modifyStore]
    refine ⟨rfl, rfl, fun t ht => hasStamp_putRow ht, hbatch, .inl rfl, fun hlive t ht => ?_⟩
    -- a row with a stamp is always published
    obtain ⟨op, hop⟩ := rowToSyncOp_isSome hser ht hlive
    have hne : getRowHlc row ≠ [] := (hser _ (getRowHlc_spec hser ht).1).ne_nil
    exact absurd (by simp [truthy, hne]) (hnot op (getRowHlc row) hop)

/-! ## Stamping a write -/

/-- A device between two calls: its clock is `c`, and what it stores can be compared. -/
structure Ready (d : Device) (c : Stamp Text) : Prop where
  clock : d.hlc = .ofStamp c
  node : c.node = d.config.deviceId
  saved : ∀ t, d.store.metadata.hlc = some t → Serialized t
  batch : FitBatch d.store
  fits : FitRows d.store

/-- The next tick of a clock still fits. -/
def TickFits (t : Text) : Prop := (stampOf t).ts < 10 ^ 15 ∧ (stampOf t).counter + 1 < 16 ^ 4

/-- The next tick of the engine's clock and of the stored one still fits. -/
def HasRoom (d : Device) : Prop :=
  TickFits (hlcSerialize d.hlc) ∧ ∀ t, d.store.metadata.hlc = some t → TickFits t

/-- The stored clock is not ahead of the engine's. -/
def NotBehind (d : Device) : Prop :=
  ∀ t, d.store.metadata.hlc = some t → isNonPos (hlcCompareStr t (hlcSerialize d.hlc)) = true

theorem Ready.notBehind_iff {d : Device} {c : Stamp Text} (h : Ready d c) :
    NotBehind d ↔ ∀ t, d.store.metadata.hlc = some t → stampOf t ≤ c := by
  have htext : hlcSerialize d.hlc = stampText c := congrArg hlcSerialize h.clock
  constructor
  · intro hn t ht
    have hcmp := hn t ht
    rw [htext, isNonPos_compare (h.saved t ht) ⟨c, rfl⟩, stampOf_stampText] at hcmp
    exact hcmp
  · intro hn t ht
    rw [htext, isNonPos_compare (h.saved t ht) ⟨c, rfl⟩, stampOf_stampText]
    exact hn t ht

/-- The stored clock has not moved back. -/
def SavedForward (store store' : LocalStore) : Prop :=
  ∀ t, store.metadata.hlc = some t → SavedPast (stampOf t) store'

theorem SavedForward.savedPast {store store' : LocalStore} (h : SavedForward store store')
    {st : Stamp Text} (hst : SavedPast st store) : SavedPast st store' := by
  obtain ⟨t, ht, hle⟩ := hst
  obtain ⟨t', ht', hle'⟩ := h t ht
  exact ⟨t', ht', hle.trans hle'⟩

theorem SavedForward.of_eq {store store' : LocalStore}
    (h : store'.metadata.hlc = store.metadata.hlc) : SavedForward store store' :=
  fun t ht => ⟨t, h.trans ht, le_refl _⟩

theorem SavedForward.of_notBehind {d : Device} {c c' : Stamp Text} {store' : LocalStore}
    (h : Ready d c) (hn : NotBehind d) (hle : c.time ≤ c'.time)
    (hsaved : store'.metadata.hlc = some (stampText c')) : SavedForward d.store store' := by
  intro t ht
  have hbehind : (stampOf t).time ≤ c.time := Stamp.time_le_of_le (h.notBehind_iff.mp hn t ht)
  exact ⟨_, hsaved, by rw [stampOf_stampText]; exact hbehind.trans hle⟩

section Write

variable {d : Device} {c : Stamp Text} {w : Inbox}

/-- A write starts from the later of the two clocks. -/
structure Refreshed (d : Device) (c c₁ : Stamp Text) : Prop where
  node : c₁.node = d.config.deviceId
  forward : c.time ≤ c₁.time
  saved : ∀ t, d.store.metadata.hlc = some t → (stampOf t).time ≤ c₁.time
  room : HasRoom d → c₁.ts < 10 ^ 15 ∧ c₁.counter + 1 < 16 ^ 4

theorem wp_refreshHlcFromLocal (h : Ready d c) {Q : Unit → Device → Inbox → Prop}
    {X : Failure → Device → Inbox → Prop}
    (hQ : ∀ c₁ : Stamp Text, Refreshed d c c₁ → Q () { d with hlc := .ofStamp c₁ } w) :
    refreshHlcFromLocal.wp Inbox.env Q X d w := by
  have htext : hlcSerialize d.hlc = stampText c := congrArg hlcSerialize h.clock
  have hstay : (∀ t, d.store.metadata.hlc = some t → (stampOf t).time ≤ c.time) → Q () d w := by
    intro hle
    have hq := hQ c ⟨h.node, le_refl _, hle, fun hroom => by
      have hfit := hroom.1
      rw [htext, TickFits, stampOf_stampText] at hfit
      exact hfit⟩
    rw [← h.clock] at hq
    exact hq
  rw [refreshHlcFromLocal, wp_modify]
  cases hsaved : d.store.metadata.hlc with
  | none => exact hstay fun t ht => absurd (hsaved.symm.trans ht) (by simp)
  | some saved =>
    have hser : Serialized saved := h.saved saved hsaved
    have honly : ∀ t, d.store.metadata.hlc = some t → t = saved := fun t ht =>
      Option.some.inj (ht.symm.trans hsaved)
    dsimp only
    split_ifs with hcmp
    · rw [htext, isNonPos_compare hser ⟨c, rfl⟩, stampOf_stampText] at hcmp
      exact hstay fun t ht => honly t ht ▸ Stamp.time_le_of_le hcmp
    · rw [htext, isNonPos_compare hser ⟨c, rfl⟩, stampOf_stampText, not_le] at hcmp
      have hforward : c.time ≤ (stampOf saved).time := Stamp.time_le_of_le hcmp.le
      rw [hser.hlcParse_eq]
      exact hQ ⟨(stampOf saved).ts, (stampOf saved).counter, d.config.deviceId⟩
        ⟨rfl, hforward, fun t ht => honly t ht ▸ le_refl _, fun hroom => hroom.2 saved hsaved⟩

variable {c₁ : Stamp Text}

theorem narrow_tick {wall : ℕ} (hwall : wall < 10 ^ 15)
    (h : c₁.ts < 10 ^ 15 ∧ c₁.counter + 1 < 16 ^ 4) : Narrow (c₁.tick wall) := by
  rw [Stamp.tick]
  split_ifs
  · exact ⟨hwall, by show 0 < 16 ^ 4; omega⟩
  · exact h

/-- The device after a write that was stamped `s`. -/
structure Written (d : Device) (c s : Stamp Text) (d' : Device) : Prop where
  config : d'.config = d.config
  later : c.time < s.time
  laterThanSaved : ∀ t, d.store.metadata.hlc = some t → (stampOf t).time < s.time
  rows : ∀ t, d'.store.HasStamp t → d.store.HasStamp t ∨ t = stampText s
  ready : Ready d' s

/-- Storing a row in which only the new tick `s` is new. -/
theorem RowStored.written {wall : ℕ} {row : Row} {d' : Device} (h : Ready d c)
    (hr : Refreshed d c c₁) (hfit : Narrow (c₁.tick wall))
    (hrow : ∀ t ∈ row.stamps, d.store.HasStamp t ∨ t = stampText (c₁.tick wall))
    (hs : RowStored { d with hlc := .ofStamp (c₁.tick wall) } row d') :
    Written d c (c₁.tick wall) d' := by
  have htick := Stamp.time_lt_tick wall c₁
  have hrows : ∀ t, d'.store.HasStamp t → d.store.HasStamp t ∨ t = stampText (c₁.tick wall) := by
    intro t ht
    rcases hs.rows t ht with hold | hnew
    · exact .inl hold
    · exact hrow t hnew
  refine ⟨hs.config, hr.forward.trans_lt htick, fun t ht => (hr.saved t ht).trans_lt htick, hrows,
    hs.clock, ?_, fun t ht => ?_, hs.batch, fun t ht => ?_⟩
  · rw [Stamp.node_tick, hr.node]
    exact congrArg Config.deviceId hs.config.symm
  · rcases hs.saved with hsame | ⟨t', ht', hfits⟩
    · exact h.saved t (hsame.symm.trans ht)
    · obtain rfl := Option.some.inj (ht'.symm.trans ht)
      exact hfits.serialized
  · rcases hrows t ht with hold | rfl
    · exact h.fits t hold
    · exact fits_stampText hfit

theorem RowStored.savedPast {s : Stamp Text} {row : Row} {d₁ d' : Device}
    (h : RowStored d₁ row d') (hlive : row._meta.deleted = false → row._meta.deletedHlc = none)
    (hmem : stampText s ∈ row.stamps) : SavedPast s d'.store := by
  obtain ⟨t, ht, -, hle⟩ := h.covers hlive _ hmem
  rw [stampOf_stampText] at hle
  exact ⟨t, ht, Stamp.time_le_of_le hle⟩

/-- `undefined` is stored as `null`. -/
def storedValue : JsValue → JsValue
  | .undefined => .null
  | v => v

/-- What a put writes to a column: the last value given for it. -/
def written (col : Text) : List (Text × JsValue) → Option JsValue
  | [] => none
  | p :: columns => (written col columns).or (if p.1 = col then some (storedValue p.2) else none)

theorem get_putColumns_eq (payload : Record Text ColumnEntry) (columns : List (Text × JsValue))
    (stamp col : Text) :
    (putColumns payload columns stamp).get col =
      ((written col (storedColumns columns)).map fun v => ⟨v, stamp⟩).or (payload.get col) := by
  rw [putColumns]
  generalize storedColumns columns = columns
  induction columns generalizing payload with
  | nil => rfl
  | cons p columns ih =>
    rw [List.foldl_cons, ih, written, Record.get_set]
    cases written col columns with
    | some v => rfl
    | none =>
      by_cases hp : p.1 = col
      · rw [if_pos hp, if_pos hp]
        rfl
      · rw [if_neg hp, if_neg hp]
        rfl

variable {columns : List (Text × JsValue)}

theorem written_eq_none_iff {col : Text} :
    written col columns = none ↔ col ∉ columns.map Prod.fst := by
  induction columns with
  | nil => exact ⟨fun _ => List.not_mem_nil, fun _ => rfl⟩
  | cons p columns ih =>
    rw [written, Option.or_eq_none_iff, ih, List.map_cons, List.mem_cons, not_or, and_comm,
      ite_eq_right_iff]
    refine and_congr_left fun _ => ⟨fun h hp => ?_, fun h hp => absurd hp.symm h⟩
    exact absurd (h hp.symm) (by simp)

theorem exists_stamp_putColumns {payload : Record Text ColumnEntry} {stamp : Text}
    (h : storedColumns columns ≠ [] ∨ ∃ col entry, payload.get col = some entry ∧ entry.hlc =
      stamp) :
    ∃ col entry, (putColumns payload columns stamp).get col = some entry ∧ entry.hlc = stamp := by
  rw [putColumns]
  generalize storedColumns columns = columns at h ⊢
  induction columns generalizing payload with
  | nil => exact h.resolve_left fun hne => hne rfl
  | cons p columns ih => exact ih (.inr ⟨p.1, _, Record.get_set_self _ _ _, rfl⟩)

theorem stamps_putRowOf_get {table rowId stamp t : Text}
    (ht : t ∈ (putRowOf d table rowId columns stamp).stamps) :
    t = stamp ∨ ∃ row, d.store.getRow table rowId = some row ∧ t ∈ row.stamps := by
  rcases mem_stamps_row.mp ht with hdel | ⟨col, entry, hget, rfl, hne⟩
  · exact absurd hdel (by simp [putRowOf])
  · rw [putRowOf, get_putColumns_eq] at hget
    cases hw : written col (storedColumns columns) with
    | some v =>
      rw [hw] at hget
      exact .inl (congrArg ColumnEntry.hlc (Option.some.inj hget)).symm
    | none =>
      rw [hw, Option.map_none, Option.none_or] at hget
      cases hrow : d.store.getRow table rowId with
      | none =>
        rw [hrow] at hget
        exact absurd hget (by simp [rowForPut])
      | some row =>
        rw [hrow] at hget
        simp only [rowForPut] at hget
        split_ifs at hget
        · exact absurd hget (by simp)
        · exact .inr ⟨row, rfl, mem_stamps_row.mpr (.inr ⟨col, entry, hget, rfl, hne⟩)⟩

theorem stamps_putRowOf {table rowId stamp t : Text}
    (ht : t ∈ (putRowOf d table rowId columns stamp).stamps) : d.store.HasStamp t ∨ t = stamp := by
  rcases stamps_putRowOf_get ht with hstamp | ⟨row, hrow, hmem⟩
  · exact .inr hstamp
  · exact .inl ⟨_, row, hrow, hmem⟩

theorem stamp_mem_putRowOf {table rowId stamp : Text} (h : storedColumns columns ≠ [])
    (hne : stamp ≠ []) : stamp ∈ (putRowOf d table rowId columns stamp).stamps := by
  obtain ⟨col, entry, hget, heq⟩ := exists_stamp_putColumns (.inl h)
  exact mem_stamps_row.mpr (.inr ⟨col, entry, hget, heq, heq ▸ hne⟩)

theorem stamps_tombstoneOf (row : Row) (deviceId stamp : Text) :
    (tombstoneOf row deviceId stamp).stamps = [stamp] := rfl

/-- **What a `put` does to the clocks.** -/
theorem wp_putNow (h : Ready d c) (hroom : HasRoom d) (table rowId : Text)
    (columns : List (Text × JsValue)) :
    (putNow table rowId columns).wp Inbox.env
      (fun stamp d' _ => ∃ s, stamp = stampText s ∧ Written d c s d' ∧
        (storedColumns columns ≠ [] → SavedPast s d'.store)) (fun _ _ _ => False) d w := by
  rw [putNow, wp_bind]
  refine wp_refreshHlcFromLocal h fun c₁ hr => ?_
  rw [wp_bind, wp_now]
  rintro w₁ rfl wall w₂ ⟨hwall, rfl⟩
  refine ⟨trivial, ?_⟩
  rw [wp_bind, wp_modify, wp_bind, wp_get]
  dsimp only
  rw [hlcNow_ofStamp, wp_bind]
  have hfit : Narrow (c₁.tick wall) := narrow_tick hwall (hr.room hroom)
  have hrow : ∀ t ∈ (putRowOf { d with hlc := .ofStamp (c₁.tick wall) } table rowId columns
      (stampText (c₁.tick wall))).stamps,
      d.store.HasStamp t ∨ t = stampText (c₁.tick wall) := fun t ht => stamps_putRowOf ht
  refine wp_mono (wp_storeMutation (d := { d with hlc := .ofStamp (c₁.tick wall) }) h.batch
    fun t ht => ?_) ?_ fun _ _ _ hx => hx
  · rcases hrow t ht with hold | rfl
    · exact h.fits t hold
    · exact fits_stampText hfit
  · intro _ d' w' hs
    refine ⟨_, rfl, hs.written h hr hfit hrow, fun hne => ?_⟩
    exact hs.savedPast (fun _ => rfl) (stamp_mem_putRowOf hne (Serialized.ne_nil ⟨_, rfl⟩))

/-- The end of a `delete`: nothing was there to delete, or the tombstone is stamped. -/
def Deleted (d : Device) (c : Stamp Text) (d' : Device) : Option Text → Prop
  | none => ∃ c₁, Refreshed d c c₁ ∧ d' = { d with hlc := .ofStamp c₁ }
  | some stamp => ∃ s, stamp = stampText s ∧ Written d c s d' ∧ SavedPast s d'.store

/-- **What a `delete` does to the clocks.** -/
theorem wp_deleteNow (h : Ready d c) (hroom : HasRoom d) (table rowId : Text) :
    (deleteNow table rowId).wp Inbox.env
      (fun r d' _ => Deleted d c d' r) (fun _ _ _ => False) d w := by
  rw [deleteNow, wp_bind]
  refine wp_refreshHlcFromLocal h fun c₁ hr => ?_
  have hnothing : Deleted d c { d with hlc := .ofStamp c₁ } none := ⟨c₁, hr, rfl⟩
  rw [wp_bind, wp_get]
  split
  · exact hnothing
  · rename_i current hcurrent
    split_ifs
    · exact hnothing
    · rw [wp_bind, wp_now]
      rintro w₁ rfl wall w₂ ⟨hwall, rfl⟩
      refine ⟨trivial, ?_⟩
      rw [wp_bind, wp_modify, wp_bind, wp_get]
      dsimp only
      rw [hlcNow_ofStamp, wp_bind]
      have hfit : Narrow (c₁.tick wall) := narrow_tick hwall (hr.room hroom)
      have hrow : ∀ t ∈ (tombstoneOf current d.config.deviceId (stampText (c₁.tick wall))).stamps,
          t = stampText (c₁.tick wall) := fun t ht => List.mem_singleton.mp ht
      refine wp_mono (wp_storeMutation (d := { d with hlc := .ofStamp (c₁.tick wall) }) h.batch
        fun t ht => ?_) ?_ fun _ _ _ hx => hx
      · exact hrow t ht ▸ fits_stampText hfit
      · intro _ d' w' hs
        refine ⟨_, rfl, hs.written h hr hfit fun t ht => .inr (hrow t ht), ?_⟩
        exact hs.savedPast (fun hlive => absurd hlive (by simp [tombstoneOf]))
          (List.mem_singleton.mpr rfl)

/-- A stamp that is later than both clocks. -/
def Later (d : Device) (c : Stamp Text) (stamp : Text) : Prop :=
  ∃ s : Stamp Text, stamp = stampText s ∧ c.time < s.time ∧
    ∀ t, d.store.metadata.hlc = some t → (stampOf t).time < s.time

theorem Refreshed.later_tick (h : Refreshed d c c₁) (wall : ℕ) :
    Later d c (stampText (c₁.tick wall)) := by
  have htick := Stamp.time_lt_tick wall c₁
  exact ⟨_, rfl, h.forward.trans_lt htick, fun t ht => (h.saved t ht).trans_lt htick⟩

theorem wp_putNow_later (h : Ready d c) (table rowId : Text) (columns : List (Text × JsValue)) :
    (putNow table rowId columns).wp Inbox.env (fun stamp _ _ => Later d c stamp)
      (fun _ _ _ => True) d w := by
  rw [putNow, wp_bind]
  refine wp_refreshHlcFromLocal h fun c₁ hr => ?_
  rw [wp_bind, wp_now]
  rintro w₁ rfl wall w₂ -
  refine ⟨trivial, ?_⟩
  rw [wp_bind, wp_modify, wp_bind, wp_get]
  dsimp only
  rw [hlcNow_ofStamp, wp_bind]
  exact wp_mono (Proc.wp_trivial (fun _ _ => trivial) _)
    (fun _ _ _ _ => hr.later_tick wall) fun _ _ _ hx => hx

theorem wp_deleteNow_later (h : Ready d c) (table rowId : Text) :
    (deleteNow table rowId).wp Inbox.env (fun r _ _ => ∀ stamp, r = some stamp → Later d c stamp)
      (fun _ _ _ => True) d w := by
  rw [deleteNow, wp_bind]
  refine wp_refreshHlcFromLocal h fun c₁ hr => ?_
  rw [wp_bind, wp_get]
  split
  · exact fun stamp hstamp => absurd hstamp (by simp)
  · split_ifs
    · exact fun stamp hstamp => absurd hstamp (by simp)
    · rw [wp_bind, wp_now]
      rintro w₁ rfl wall w₂ -
      refine ⟨trivial, ?_⟩
      rw [wp_bind, wp_modify, wp_bind, wp_get]
      dsimp only
      rw [hlcNow_ofStamp, wp_bind]
      refine wp_mono (Proc.wp_trivial (fun _ _ => trivial) _) ?_ fun _ _ _ hx => hx
      intro _ _ _ _ stamp hstamp
      exact Option.some.inj hstamp ▸ hr.later_tick wall

end Write

end Interocitor
