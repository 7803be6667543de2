import Interocitor.Clock.Monotone

/-!
# Whether a local write outranks what it replaces

A write is adopted everywhere if its stamp is later than every stamp in the row that it
replaces.  The clock sees to that by moving past the stamp of every change that comes
in, but only up to five minutes beyond the wall clock: a change from a device whose
clock is far ahead is merged with its stamp as it is, and a local write on top of it
gets an earlier one.

One engine writes, pulls, replaces its local state and is restarted, in any order,
against the remote of `Clock.Inbox`.  That remote lists the stamps of changes that were
too far ahead of the wall clock when they were merged (and those of a file that is
stamped earlier than what is in it).

* `write_outranks_row`: in every settled run the next write on a row outranks every stamp
  in the row that is not listed, and the last-writer-wins merge adopts it.
* `write_below_a_fast_clock`: after one pull of a change that is 16 minutes ahead, a write
  that does not.

A run is settled if a pull or a replacement that fails has not touched the rows, none of
them moves the stored clock back, and the engine is restarted only when the stored clock
has caught up with its own.
-/

namespace Interocitor

open CodeUnits OrderedRecord Interaction HybridClock Eng

/-! ## Runs of one engine -/

/-- An engine and its remote. -/
structure Session where
  device : Device
  inbox : Inbox

namespace Session

/-- A new engine over an empty store. -/
def opened (config : Config) (wall : ℕ) : Session := ⟨openEngine config wall .empty, ⟨none, []⟩⟩

/-- The calls on an engine. -/
inductive Event where
  | put (table rowId : Text) (columns : List (Text × JsValue))
  | delete (table rowId : Text)
  | pull
  | rehydrate
  | restart (wall : ℕ)

/-- The call a session makes: how it ended, and the session afterwards. -/
def Calls {α : Type} (s : Session) (m : Eng α) (r : Except Failure α) (s' : Session) : Prop :=
  Prog.Run Inbox.env (m s.device) s.inbox r s'.device s'.inbox

/-- One call; the flag says whether it ended normally. -/
inductive Step : Session → Event → Bool → Session → Prop
  | put {s s' : Session} {table rowId : Text} {columns : List (Text × JsValue)}
      {r : Except Failure Text} (h : s.Calls (putNow table rowId columns) r s') :
      Step s (.put table rowId columns) r.isOk s'
  | delete {s s' : Session} {table rowId : Text} {r : Except Failure (Option Text)}
      (h : s.Calls (deleteNow table rowId) r s') : Step s (.delete table rowId) r.isOk s'
  | pull {s s' : Session} {r : Except Failure Unit} (h : s.Calls pullNow r s') :
      Step s .pull r.isOk s'
  | rehydrate {s s' : Session} {r : Except Failure Unit} (h : s.Calls flushAndRehydrateNow r s') :
      Step s .rehydrate r.isOk s'
  | restart {s : Session} {wall : ℕ} :
      Step s (.restart wall) true ⟨openEngine s.device.config wall s.device.store, s.inbox⟩

/-- The runs of which every step is as `ok` demands. -/
inductive Reached (ok : Session → Event → Bool → Session → Prop) : Session → Prop
  | opened {config : Config} {wall : ℕ} (h : StampKeeping config.schema) :
      Reached ok (opened config wall)
  | step {s s' : Session} {e : Event} {ended : Bool} (h : Reached ok s) (hs : Step s e ended s')
      (hok : ok s e ended s') : Reached ok s'

/-- The stored clock is not behind the engine's, or there is nothing to be behind of. -/
def Restartable (d : Device) : Prop :=
  (∃ t, d.store.metadata.hlc = some t ∧ isNonPos (hlcCompareStr (hlcSerialize d.hlc) t) = true) ∨
    ∀ t, ¬d.store.HasStamp t

/-- What a step of a settled run looks like. -/
def Settled (s : Session) : Event → Bool → Session → Prop
  | .put _ _ _, _, _ => HasRoom s.device
  | .delete _ _, _, _ => HasRoom s.device
  | .restart _, _, _ => Restartable s.device
  | _, ended, s' =>
    SavedForward s.device.store s'.device.store ∧
      (ended = true ∨ s'.device.store.rows = s.device.store.rows)

/-! ## The clocks cover the rows -/

/-- **The invariant of settled runs:** what is not listed is covered by the engine's clock
or by the stored one. -/
def Clocked (s : Session) : Prop :=
  StampKeeping s.device.config.schema ∧ ∃ c, Ready s.device c ∧
    ∀ t, s.device.store.HasStamp t → t ∈ s.inbox.unclocked ∨ (stampOf t).time ≤ c.time ∨
      SavedPast (stampOf t) s.device.store

theorem clocked_opened {config : Config} {wall : ℕ} (h : StampKeeping config.schema) :
    Clocked (opened config wall) := by
  have hrows : ∀ t, ¬LocalStore.empty.HasStamp t := by
    rintro t ⟨key, row, hget, -⟩
    exact absurd hget (by simp [LocalStore.empty])
  refine ⟨h, ⟨wall, 0, config.deviceId⟩, ⟨rfl, rfl, fun t ht => ?_, fun p hp => ?_, fun t ht => ?_⟩,
    fun t ht => ?_⟩
  · exact absurd (show none = some t from ht) (by simp)
  · exact absurd (show none = some p from hp) (by simp)
  · exact absurd ht (hrows t)
  · exact absurd ht (hrows t)

section Steps

variable {s s' : Session} {c : Stamp Text}

theorem covered_of_clocked
    (h : ∀ t, s.device.store.HasStamp t → t ∈ s.inbox.unclocked ∨ (stampOf t).time ≤ c.time ∨
      SavedPast (stampOf t) s.device.store) :
    Covered (fun t => SavedPast (stampOf t) s.device.store) c s.device.store s.inbox := by
  intro t ht
  rcases h t ht with hl | hle | hsaved
  · exact .inr (.inl hl)
  · exact .inr (.inr hle)
  · exact .inl hsaved

/-- A stamped write leaves the engine's clock past every row. -/
theorem clocked_written {st : Stamp Text} (hschema : StampKeeping s.device.config.schema)
    (hrows : ∀ t, s.device.store.HasStamp t → t ∈ s.inbox.unclocked ∨ (stampOf t).time ≤ c.time ∨
      SavedPast (stampOf t) s.device.store) (hw : Written s.device c st s'.device)
    (hgrow : s.inbox.unclocked ⊆ s'.inbox.unclocked) : Clocked s' := by
  refine ⟨by rw [hw.config]; exact hschema, st, hw.ready, fun t ht => ?_⟩
  rcases hw.rows t ht with hold | rfl
  · rcases hrows t hold with hl | hle | ⟨t', ht', hle⟩
    · exact .inl (hgrow hl)
    · exact .inr (.inl (hle.trans hw.later.le))
    · exact .inr (.inl (hle.trans (hw.laterThanSaved t' ht').le))
  · rw [stampOf_stampText]
    exact .inr (.inl (le_refl _))

theorem clocked_put {table rowId : Text} {columns : List (Text × JsValue)}
    {r : Except Failure Text} (h : Clocked s) (hcall : s.Calls (putNow table rowId columns) r s')
    (hroom : HasRoom s.device) : Clocked s' := by
  obtain ⟨hschema, c, hready, hrows⟩ := h
  have hspec := Inbox.wp_grows (w := s.inbox) (wp_putNow hready hroom table rowId columns)
  cases r with
  | error e => exact (Proc.wp_run_error hspec hcall).1.elim
  | ok stamp =>
    obtain ⟨⟨st, -, hw, -⟩, hgrow⟩ := Proc.wp_run_ok hspec hcall
    exact clocked_written hschema hrows hw hgrow

theorem clocked_delete {table rowId : Text} {r : Except Failure (Option Text)} (h : Clocked s)
    (hcall : s.Calls (deleteNow table rowId) r s') (hroom : HasRoom s.device) : Clocked s' := by
  obtain ⟨hschema, c, hready, hrows⟩ := h
  have hspec := Inbox.wp_grows (w := s.inbox) (wp_deleteNow hready hroom table rowId)
  cases r with
  | error e => exact (Proc.wp_run_error hspec hcall).1.elim
  | ok stamp =>
    obtain ⟨hdeleted, hgrow⟩ := Proc.wp_run_ok hspec hcall
    cases stamp with
    | some stamp =>
      obtain ⟨st, -, hw, -⟩ := hdeleted
      exact clocked_written hschema hrows hw hgrow
    | none =>
      obtain ⟨c₁, hr, hdevice⟩ := hdeleted
      rw [Clocked, hdevice]
      refine ⟨hschema, c₁, ⟨rfl, hr.node, hready.saved, hready.batch, hready.fits⟩, fun t ht => ?_⟩
      rcases hrows t ht with hl | hle | hsaved
      · exact .inl (hgrow hl)
      · exact .inr (.inl (hle.trans hr.forward))
      · exact .inr (.inr hsaved)

/-- A call that failed and left the rows alone, with both clocks not moved back. -/
theorem clocked_of_rows_eq {c' : Stamp Text} (hschema : StampKeeping s'.device.config.schema)
    (hrows : ∀ t, s.device.store.HasStamp t → t ∈ s.inbox.unclocked ∨ (stampOf t).time ≤ c.time ∨
      SavedPast (stampOf t) s.device.store) (hready : Ready s'.device c') (hle : c.time ≤ c'.time)
    (hsaved : SavedForward s.device.store s'.device.store)
    (hsame : s'.device.store.rows = s.device.store.rows)
    (hgrow : s.inbox.unclocked ⊆ s'.inbox.unclocked) : Clocked s' := by
  refine ⟨hschema, c', hready, fun t ht => ?_⟩
  rcases hrows t (ht.of_rows hsame) with hl | hle' | hpast
  · exact .inl (hgrow hl)
  · exact .inr (.inl (hle'.trans hle))
  · exact .inr (.inr (hsaved.savedPast hpast))

theorem ready_of_clockMoved {d d' : Device} {c' : Stamp Text} (h : Ready d c)
    (hm : ClockMoved d c d' c') : Ready d' c' := by
  refine ⟨hm.clock, ?_, fun t ht => ?_, fun p hp => h.batch p (hm.pending.symm.trans hp), hm.fits⟩
  · rw [hm.node, h.node, hm.config]
  · rcases hm.saved with ⟨hsame, -⟩ | hsome
    · exact h.saved t (hsame.symm.trans ht)
    · exact ⟨c', Option.some.inj (hsome.symm.trans ht)⟩

theorem clocked_pull {r : Except Failure Unit} (h : Clocked s) (hcall : s.Calls pullNow r s')
    (hsaved : SavedForward s.device.store s'.device.store)
    (hended : r.isOk = true ∨ s'.device.store.rows = s.device.store.rows) : Clocked s' := by
  obtain ⟨hschema, c, hready, hrows⟩ := h
  have hspec := Inbox.wp_grows
    (wp_pullNow hschema hready.clock hready.fits (covered_of_clocked hrows))
  cases r with
  | ok u =>
    obtain ⟨⟨c', hp⟩, -⟩ := Proc.wp_run_ok hspec hcall
    refine ⟨by rw [hp.moved.config]; exact hschema, c', ready_of_clockMoved hready hp.moved,
      fun t ht => ?_⟩
    rcases hp.covered t ht with hpast | hl | hle
    · exact .inr (.inr (hsaved.savedPast hpast))
    · exact .inl hl
    · exact .inr (.inl hle)
  | error e =>
    obtain ⟨⟨c', hm⟩, hgrow⟩ := Proc.wp_run_error hspec hcall
    have hsame := hended.resolve_left (by simp [Except.isOk, Except.toBool])
    refine clocked_of_rows_eq ?_ hrows (ready_of_clockMoved hready hm) hm.forward hsaved hsame hgrow
    rw [hm.config]
    exact hschema

theorem ready_of_rehydrated {d d' : Device} {h : Stamp Text} (hd : Ready d c)
    (hr : Rehydrated d c d') (hclock : d'.hlc = .ofStamp h) : Ready d' h := by
  obtain ⟨h', hclock', hnode'⟩ := hr.clock
  obtain rfl : h = h' := Hlc.ofStamp_injective (hclock.symm.trans hclock')
  refine ⟨hclock, ?_, fun t ht => ?_, fun p hp => ?_, hr.fits⟩
  · rw [hnode', hd.node, hr.config]
  · rcases hr.saved with hsame | hnone | ⟨c', hsome, -⟩
    · exact hd.saved t (hsame.symm.trans ht)
    · exact absurd (hnone.symm.trans ht) (by simp)
    · exact ⟨c', Option.some.inj (hsome.symm.trans ht)⟩
  · exact absurd (hr.pending.symm.trans hp) (by simp)

theorem clocked_rehydrate {r : Except Failure Unit} (h : Clocked s)
    (hcall : s.Calls flushAndRehydrateNow r s')
    (hsaved : SavedForward s.device.store s'.device.store)
    (hended : r.isOk = true ∨ s'.device.store.rows = s.device.store.rows) : Clocked s' := by
  obtain ⟨hschema, c, hready, hrows⟩ := h
  have hspec := Inbox.wp_grows (wp_flushAndRehydrateNow hschema hready.clock hready.node hready.fits
    (covered_of_clocked hrows))
  have hreplaced : Rehydrated s.device c s'.device →
      RehydratedRows (fun t => SavedPast (stampOf t) s.device.store) s'.device s'.inbox →
      Clocked s' := by
    rintro hr ⟨h, hclock, hcov⟩
    refine ⟨by rw [hr.config]; exact hschema, h, ready_of_rehydrated hready hr hclock,
      fun t ht => ?_⟩
    rcases hcov t ht with hpast | hl | hle | hpast
    · exact .inr (.inr (hsaved.savedPast hpast))
    · exact .inl hl
    · exact .inr (.inl hle)
    · exact .inr (.inr hpast)
  cases r with
  | ok u =>
    obtain ⟨⟨hr, hrehydrated⟩, -⟩ := Proc.wp_run_ok hspec hcall
    exact hreplaced hr hrehydrated
  | error e =>
    obtain ⟨⟨hr, hrehydrated | ⟨h, hclock, hle⟩⟩, hgrow⟩ := Proc.wp_run_error hspec hcall
    · exact hreplaced hr hrehydrated
    · have hsame := hended.resolve_left (by simp [Except.isOk, Except.toBool])
      refine clocked_of_rows_eq ?_ hrows (ready_of_rehydrated hready hr hclock) hle hsaved hsame hgrow
      rw [hr.config]
      exact hschema

theorem clocked_restart {wall : ℕ} (h : Clocked s) (hrestart : Restartable s.device) :
    Clocked ⟨openEngine s.device.config wall s.device.store, s.inbox⟩ := by
  obtain ⟨hschema, c, hready, hrows⟩ := h
  have hopened : ∀ c' : Stamp Text,
      (openEngine s.device.config wall s.device.store).hlc = .ofStamp c' →
      c'.node = s.device.config.deviceId →
      (∀ t, s.device.store.HasStamp t → t ∈ s.inbox.unclocked ∨ (stampOf t).time ≤ c'.time ∨
        SavedPast (stampOf t) s.device.store) →
      Clocked ⟨openEngine s.device.config wall s.device.store, s.inbox⟩ := fun c' hclock hnode hcov =>
    ⟨hschema, c', ⟨hclock, hnode, hready.saved, hready.batch, hready.fits⟩, hcov⟩
  cases hsaved : s.device.store.metadata.hlc with
  | none =>
    have hempty : ∀ t, ¬s.device.store.HasStamp t := hrestart.resolve_left fun ⟨t, ht, _⟩ =>
      absurd (hsaved.symm.trans ht) (by simp)
    refine hopened ⟨wall, 0, s.device.config.deviceId⟩ ?_ rfl fun t ht => absurd ht (hempty t)
    simp only [openEngine, hsaved]
    rfl
  | some t =>
    have hser : Serialized t := hready.saved t hsaved
    refine hopened ⟨(stampOf t).ts, (stampOf t).counter, s.device.config.deviceId⟩ ?_ rfl
      fun t' ht' => ?_
    · have htruthy : truthy (some t) = some t := by simp [truthy, hser.ne_nil]
      simp only [openEngine, hsaved, htruthy, hser.hlcParse_eq]
      rfl
    · rcases hrows t' ht' with hl | hle | hpast
      · exact .inl hl
      · rcases hrestart with ⟨t₀, ht₀, hcmp⟩ | hempty
        · obtain rfl := Option.some.inj (hsaved.symm.trans ht₀)
          have htext : hlcSerialize s.device.hlc = stampText c := congrArg hlcSerialize hready.clock
          rw [htext, isNonPos_compare ⟨c, rfl⟩ hser, stampOf_stampText] at hcmp
          have hcaught : c.time ≤ (stampOf t).time := Stamp.time_le_of_le hcmp
          exact .inr (.inl (hle.trans hcaught))
        · exact absurd ht' (hempty t')
      · exact .inr (.inr hpast)

theorem clocked_step {e : Event} {ended : Bool} (h : Clocked s) (hs : Step s e ended s')
    (hsettled : Settled s e ended s') : Clocked s' := by
  cases hs with
  | put hcall => exact clocked_put h hcall hsettled
  | delete hcall => exact clocked_delete h hcall hsettled
  | pull hcall => exact clocked_pull h hcall hsettled.1 hsettled.2
  | rehydrate hcall => exact clocked_rehydrate h hcall hsettled.1 hsettled.2
  | restart => exact clocked_restart h hsettled

theorem clocked_of_reached (h : Reached Settled s) : Clocked s := by
  induction h with
  | opened hschema => exact clocked_opened hschema
  | step _ hs hok ih => exact clocked_step ih hs hok

end Steps

end Session

/-! ## The next write -/

/-- A stamp outranks a row, except for some stamps: it is later than the others, so the
last-writer-wins merge takes a column with it, or a delete, in place of what is there. -/
structure Outranks (except : List Text) (stamp : Text) (row : Row) : Prop where
  later : ∀ t ∈ row.stamps, t ∉ except → isPos (hlcCompareStr stamp t) = true
  column : ∀ col old, row.payload.get col = some old → old.hlc ∉ except → ∀ value table rowId,
    mergeColumn (some old) ⟨value, stamp⟩ .lww table rowId col = .ok (some ⟨value, stamp⟩)
  delete : (∀ t ∈ row.stamps, t ∉ except) → ∀ table rowId v,
    applyDelete (some row) table rowId stamp v =
      some ⟨{ row._meta with deleted := true, deletedHlc := some stamp }, ∅⟩

theorem outranks_of_later {except : List Text} {st : Stamp Text} {row : Row}
    (hrow : ∀ t ∈ row.stamps, Serialized t)
    (h : ∀ t ∈ row.stamps, t ∉ except → (stampOf t).time < st.time) :
    Outranks except (stampText st) row := by
  have hlt : ∀ t ∈ row.stamps, t ∉ except → stampOf t < stampOf (stampText st) := by
    intro t ht hnot
    rw [stampOf_stampText]
    exact Stamp.lt_of_time_lt (h t ht hnot)
  refine ⟨fun t ht hnot => ?_, fun col old hget hnot value table rowId => ?_,
    fun hnone table rowId v => ?_⟩
  · exact (Serialized.isPos_compare ⟨st, rfl⟩ (hrow t ht)).mpr (hlt t ht hnot)
  · by_cases hne : old.hlc = []
    · simp only [mergeColumn, if_pos hne]
    have hmem : old.hlc ∈ row.stamps := mem_stamps_row.mpr (.inr ⟨col, old, hget, rfl, hne⟩)
    have hold := hlt old.hlc hmem hnot
    rw [mergeColumn_lww table rowId col (hrow _ hmem) ⟨st, rfl⟩
      fun heq => absurd (heq ▸ hold) (lt_irrefl _), if_pos hold]
  · have hdeleted : ((truthy row._meta.deletedHlc).any fun t =>
        isNonPos (hlcCompareStr (stampText st) t)) = false := by
      cases hd : truthy row._meta.deletedHlc with
      | none => rfl
      | some t =>
        have hmem : t ∈ row.stamps :=
          mem_stamps_row.mpr (.inl (Option.filter_eq_some_iff.mp hd).1)
        have hnot : ¬stampOf (stampText st) ≤ stampOf t := not_le.mpr (hlt t hmem (hnone t hmem))
        rw [← isNonPos_compare ⟨st, rfl⟩ (hrow t hmem)] at hnot
        exact Bool.not_eq_true _ ▸ hnot
    have hcolumns : (row.payload.values.any fun e =>
        decide (e.hlc ≠ []) && isPos (hlcCompareStr e.hlc (stampText st))) = false := by
      refine List.any_eq_false.mpr fun e he => ?_
      rw [Bool.and_eq_true, decide_eq_true_eq]
      rintro ⟨hne, hpos⟩
      obtain ⟨col, hget⟩ := Record.mem_values_iff.mp he
      have hmem : e.hlc ∈ row.stamps := mem_stamps_row.mpr (.inr ⟨col, e, hget, rfl, hne⟩)
      rw [(hrow _ hmem).isPos_compare ⟨st, rfl⟩] at hpos
      exact lt_asymm (hlt e.hlc hmem (hnone e.hlc hmem)) hpos
    simp only [applyDelete, hdeleted, hcolumns, Bool.false_eq_true, if_false]

/-- **In a settled run the next write outranks the row it replaces**, except for the
stamps that are listed. -/
theorem write_outranks_row {s : Session} (h : Session.Reached Session.Settled s) :
    (∀ table rowId columns stamp d' w' row,
      Prog.Run Inbox.env (putNow table rowId columns s.device) s.inbox (.ok stamp) d' w' →
      s.device.store.getRow table rowId = some row →
      Outranks s.inbox.unclocked stamp row) ∧
    ∀ table rowId stamp d' w' row,
      Prog.Run Inbox.env (deleteNow table rowId s.device) s.inbox (.ok (some stamp)) d' w' →
      s.device.store.getRow table rowId = some row →
      Outranks s.inbox.unclocked stamp row := by
  obtain ⟨-, c, hready, hrows⟩ := Session.clocked_of_reached h
  have houtranks : ∀ {table rowId stamp : Text} {row : Row}, Later s.device c stamp →
      s.device.store.getRow table rowId = some row → Outranks s.inbox.unclocked stamp row := by
    rintro table rowId stamp row ⟨st, rfl, hclock, hsaved⟩ hrow
    have hhas : ∀ t ∈ row.stamps, s.device.store.HasStamp t := fun t ht => ⟨_, row, hrow, ht⟩
    refine outranks_of_later (fun t ht => (hready.fits t (hhas t ht)).serialized)
      fun t ht hnot => ?_
    rcases hrows t (hhas t ht) with hl | hle | ⟨t', ht', hle⟩
    · exact absurd hl hnot
    · exact hle.trans_lt hclock
    · exact hle.trans_lt (hsaved t' ht')
  refine ⟨fun table rowId columns stamp d' w' row hrun hrow => ?_,
    fun table rowId stamp d' w' row hrun hrow => ?_⟩
  · have hlater := Proc.wp_run_ok (wp_putNow_later hready table rowId columns) hrun
    exact houtranks hlater hrow
  · have hlater := Proc.wp_run_ok (wp_deleteNow_later hready table rowId) hrun
    exact houtranks (hlater stamp rfl) hrow

/-! ## A change from a fast clock -/

/-- A call against a remote that answers by a function. -/
def Session.exec {α : Type} (s : Session) (reply : Inbox → (c : Call) → Reply c × Inbox)
    (m : Eng α) : Except Failure α × Session :=
  let out := (m s.device).exec reply s.inbox
  (out.1, ⟨out.2.1, out.2.2⟩)

theorem Session.calls_exec {α : Type} (s : Session)
    {reply : Inbox → (c : Call) → Reply c × Inbox}
    (h : ∀ (w : Inbox) c, w.Answer c (reply w c).1 (reply w c).2) (m : Eng α) :
    s.Calls m (s.exec reply m).1 (s.exec reply m).2 :=
  Prog.run_exec (fun _ => rfl) h (m s.device) s.inbox

/-- A remote that holds one change. -/
def Inbox.oneChange (meshId : Text) (entry : ChangeEntry) (wall : ℕ) (w : Inbox) :
    (c : Call) → Reply c × Inbox
  | .readFile path =>
    if path = .change (changeFileName entry) then
      (.ok (.change meshId entry), ⟨some entry, w.unclocked ++ above entry.hlc entry.stamps⟩)
    else (.error (.failed .missing), w)
  | .listChanges => (.ok [changeFileName entry], w)
  | c => w.emptyRemote wall c

theorem Inbox.answer_oneChange (meshId : Text) {entry : ChangeEntry} {wall : ℕ}
    (hentry : Fits entry.hlc ∧ ∀ t ∈ entry.stamps, Fits t) (hwall : wall < 10 ^ 15) (w : Inbox)
    (c : Call) :
    w.Answer c (oneChange meshId entry wall w c).1 (oneChange meshId entry wall w c).2 := by
  cases c with
  | readFile path =>
    by_cases hpath : path = .change (changeFileName entry)
    · simp only [oneChange, if_pos hpath]
      exact ⟨hentry, rfl⟩
    · simp only [oneChange, if_neg hpath]
      exact rfl
  | now => exact ⟨hwall, rfl⟩
  | _ => exact rfl

/-- A change of one row, stamped `st`. -/
def changeAt (st : Stamp Text) : ChangeEntry where
  id := changeKind ++ [underscore, 49]
  ts := st.ts
  device := st.node
  hlc := stampText st
  ops := [.upsert [116] [49] (Record.set ∅ [120] ⟨.null, stampText st⟩)]

/-- The row that comes with it. -/
def rowAtStamp (st : Stamp Text) : Row :=
  ⟨⟨[116], [49], false, none, 1, none⟩, Record.set ∅ [120] ⟨.null, stampText st⟩⟩

/-- The mesh id that a first bootstrap makes up. -/
def bootstrappedMesh : Text := meshKind ++ [underscore]

/-- The pull of that change by an engine of `"a"`, its wall clock at one second. -/
def pullOfChange (st : Stamp Text) : Except Failure Unit × Session :=
  (Session.opened configOfA 1000).exec (Inbox.oneChange bootstrappedMesh (changeAt st) 1000) pullNow

/-- The engine after it. -/
def afterChange (st : Stamp Text) : Session := (pullOfChange st).2

/-- A write on the row after it. -/
def putAfterChange (st : Stamp Text) : Except Failure Text × Session :=
  (afterChange st).exec (Inbox.emptyRemote 1000) (putNow [116] [49] [([120], .null)])

theorem fits_changeAt {st : Stamp Text} (h : Narrow st) :
    Fits (changeAt st).hlc ∧ ∀ t ∈ (changeAt st).stamps, Fits t := by
  refine ⟨fits_stampText h, fun t ht => ?_⟩
  obtain rfl : t = stampText st := List.mem_singleton.mp ht
  exact fits_stampText h

theorem calls_pullOfChange (st : Stamp Text) (h : Narrow st) :
    (Session.opened configOfA 1000).Calls pullNow (pullOfChange st).1 (afterChange st) :=
  Session.calls_exec _
    (Inbox.answer_oneChange bootstrappedMesh (fits_changeAt h) (by omega : 1000 < 10 ^ 15)) pullNow

theorem calls_putAfterChange (st : Stamp Text) :
    (afterChange st).Calls (putNow [116] [49] [([120], .null)]) (putAfterChange st).1
      (putAfterChange st).2 :=
  Session.calls_exec _ (Inbox.answer_emptyRemote (by omega : 1000 < 10 ^ 15)) _

/-- A stamp of half a second, by the device `"b"`. -/
def earlierStamp : Stamp Text := ⟨500, 0, [98]⟩

/-- A stamp of 1000 seconds. -/
def aheadStamp : Stamp Text := ⟨1000000, 0, [98]⟩

/-- A write outranks a change that was stamped earlier. -/
theorem write_outranks_earlier_change :
    Session.Reached Session.Settled (afterChange earlierStamp) ∧
      (afterChange earlierStamp).device.store.getRow [116] [49] = some (rowAtStamp earlierStamp) ∧
      stampText earlierStamp ∉ (afterChange earlierStamp).inbox.unclocked ∧
      ∃ stamp d' w', Prog.Run Inbox.env
          (putNow [116] [49] [([120], .null)] (afterChange earlierStamp).device)
          (afterChange earlierStamp).inbox (.ok stamp) d' w' ∧
        Outranks (afterChange earlierStamp).inbox.unclocked stamp (rowAtStamp earlierStamp) := by
  have hopened : Session.Reached Session.Settled (.opened configOfA 1000) := .opened stampKeeping_none
  have hreached : Session.Reached Session.Settled (afterChange earlierStamp) := by
    refine hopened.step (.pull (calls_pullOfChange _ ⟨by decide, by decide⟩))
      ⟨fun t ht => ?_, .inl rfl⟩
    exact absurd (show none = some t from ht) (by simp)
  have hstamp : (putAfterChange earlierStamp).1 = .ok (stampText ⟨1000, 2, [97]⟩) := rfl
  have hput := calls_putAfterChange earlierStamp
  rw [hstamp] at hput
  have hrow : (afterChange earlierStamp).device.store.getRow [116] [49] =
      some (rowAtStamp earlierStamp) := rfl
  refine ⟨hreached, hrow, ?_, _, _, _, hput,
    (write_outranks_row hreached).1 _ _ _ _ _ _ _ hput hrow⟩
  have hnone : (afterChange earlierStamp).inbox.unclocked = [] := rfl
  rw [hnone]
  exact List.not_mem_nil

/-- **A write below a fast clock.**  The clock follows the change only to five minutes
beyond the wall clock, and the next write on the row has an earlier stamp than the row. -/
theorem write_below_a_fast_clock :
    Session.Reached (fun _ _ _ _ => True) (afterChange aheadStamp) ∧
      (afterChange aheadStamp).device.store.getRow [116] [49] = some (rowAtStamp aheadStamp) ∧
      stampText aheadStamp ∈ (rowAtStamp aheadStamp).stamps ∧
      ∃ d' w', Prog.Run Inbox.env
          (putNow [116] [49] [([120], .null)] (afterChange aheadStamp).device)
          (afterChange aheadStamp).inbox (.ok (stampText ⟨301000, 2, [97]⟩)) d' w' ∧
        ¬isPos (hlcCompareStr (stampText ⟨301000, 2, [97]⟩) (stampText aheadStamp)) = true := by
  have hopened : Session.Reached (fun _ _ _ _ => True) (.opened configOfA 1000) :=
    .opened stampKeeping_none
  have hpull := calls_pullOfChange aheadStamp ⟨by decide, by decide⟩
  have hstamp : (putAfterChange aheadStamp).1 = .ok (stampText ⟨301000, 2, [97]⟩) := rfl
  have hput := calls_putAfterChange aheadStamp
  rw [hstamp] at hput
  refine ⟨hopened.step (.pull hpull) trivial, rfl, List.mem_cons_self, _, _, hput, ?_⟩
  rw [isPos_hlcCompareStr]
  decide

end Interocitor
