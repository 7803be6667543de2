import Interocitor.Clock.Stamps
import Interocitor.Core.Frame

/-!
# The clock while changes come in

An engine moves its clock past the stamp of every change it merges --- except that a
stamp more than five minutes ahead of the wall clock counts only up to there.  A row
can therefore hold a stamp that the clock has not reached.  So can a row of a snapshot,
and a change whose entry is stamped earlier than one of its columns.

Here the remote answers anything, as long as the stamps in its files are serialized
stamps of the documented width.  The world of this file, `Inbox`, only keeps book: it
lists the stamps that reached the engine while its clock did not.

* `wp_pullNow`: after a pull the clock has not moved back, the stored clock is the
  engine's or is as it was, and if the pull ended normally then every stamp that it
  brought into the rows is below the clock or listed.
* `wp_rehydrateNow`: the same for the replacement by a snapshot.
-/

namespace Interocitor

open CodeUnits OrderedRecord Interaction HybridClock Eng
open Proc (wp_bind wp_mono wp_pure wp_get wp_modify Keeps)

/-! ## The world -/

/-- The change that was read last and has not met a clock reading yet, and the stamps
that reached the engine without its clock moving past them. -/
structure Inbox where
  arriving : Option ChangeEntry
  unclocked : List Text

/-- A serialized stamp of the documented width. -/
def Fits (t : Text) : Prop := ∃ s : Stamp Text, stampText s = t ∧ Narrow s

theorem Fits.serialized {t : Text} (h : Fits t) : Serialized t := by
  obtain ⟨s, hs, -⟩ := h
  exact ⟨s, hs⟩

/-- The stamps that are later than a bound. -/
def above (bound : Text) (stamps : List Text) : List Text :=
  stamps.filter fun t => decide ((stampOf bound).time < (stampOf t).time)

/-- The stamps of an arriving change whose own stamp lies too far ahead of the wall
clock. -/
def farAhead (wall : ℕ) (arriving : Option ChangeEntry) : List Text :=
  match arriving with
  | some entry =>
    if wall + hlcMaxFutureSkewMs < (stampOf entry.hlc).ts then entry.stamps else []
  | none => []

namespace Inbox

/-- The answer to a read: stamps in files fit, and those later than the file's own
stamp are listed. -/
def ReadAnswer (w w' : Inbox) : Except NoAnswer Content → Prop
  | .ok (.change _ entry) =>
    (Fits entry.hlc ∧ ∀ t ∈ entry.stamps, Fits t) ∧
      w' = ⟨some entry, w.unclocked ++ above entry.hlc entry.stamps⟩
  | .ok (.snapshot _ snapshot) =>
    ((snapshot.hlc = [] ∨ Serialized snapshot.hlc) ∧ ∀ t ∈ snapshot.stamps, Fits t) ∧
      w' = ⟨w.arriving, w.unclocked ++ above snapshot.hlc snapshot.stamps⟩
  | _ => w' = w

/-- The remote answers anything else as it likes; a clock reading shows whether the
arriving change is too far ahead. -/
def Answer (w : Inbox) : (c : Call) → Reply c → Inbox → Prop
  | .readFile _, rep, w' => w.ReadAnswer w' rep
  | .now, wall, w' =>
    wall < 10 ^ 15 ∧ w' = ⟨none, w.unclocked ++ farAhead wall w.arriving⟩
  | _, _, w' => w' = w

/-- The environment of an engine whose files hold stamps that fit. -/
def env : Env Call Reply Inbox := ⟨Eq, Answer, fun _ _ => True⟩

theorem unclocked_subset {w w' : Inbox} {c : Call} {rep : Reply c} (h : w.Answer c rep w') :
    w.unclocked ⊆ w'.unclocked := by
  cases c with
  | readFile path =>
    cases rep with
    | error e =>
      obtain rfl : w' = w := h
      exact List.Subset.refl _
    | ok content =>
      cases content with
      | change meshId entry => exact h.2 ▸ List.subset_append_left _ _
      | snapshot meshId s => exact h.2 ▸ List.subset_append_left _ _
      | _ =>
        obtain rfl : w' = w := h
        exact List.Subset.refl _
  | now => exact h.2 ▸ List.subset_append_left _ _
  | _ =>
    obtain rfl : w' = w := h
    exact List.Subset.refl _

theorem wp_grows {α : Type} {m : Eng α} {Q : α → Device → Inbox → Prop}
    {X : Failure → Device → Inbox → Prop} {d : Device} {w : Inbox} (h : m.wp env Q X d w) :
    m.wp env (fun a d' w' => Q a d' w' ∧ w.unclocked ⊆ w'.unclocked)
      (fun e d' w' => X e d' w' ∧ w.unclocked ⊆ w'.unclocked) d w := by
  refine Proc.wp_related (G := fun w w' => w.unclocked ⊆ w'.unclocked)
    (fun _ => List.Subset.refl _) (fun _ _ _ => List.Subset.trans) ?_ ?_ h
  · rintro w _ rfl
    exact List.Subset.refl _
  · exact fun _ _ _ _ hans => unclocked_subset hans

/-- `I` survives when the list grows. -/
def Grows (I : Device → Inbox → Prop) : Prop :=
  ∀ d w w', I d w → w.unclocked ⊆ w'.unclocked → I d w'

theorem askKeeps {I : Device → Inbox → Prop} (h : Grows I) (c : Call) : Proc.AskKeeps env I c := by
  rintro d w w₁ rep w₂ hI rfl hans
  exact ⟨trivial, h d w w₂ hI (unclocked_subset hans)⟩

theorem quiet {I : Device → Inbox → Prop} (h : Grows I) : Quiet env I where
  now := askKeeps h _
  uuid := askKeeps h _
  isAuthenticated := askKeeps h _
  authenticate := askKeeps h _
  readFile _ := askKeeps h _
  listChanges := askKeeps h _
  listMainline := askKeeps h _
  ensureFolder _ := askKeeps h _

/-- A remote that holds nothing and takes every write, with clock readings `wall`. -/
def emptyRemote (wall : ℕ) (w : Inbox) : (c : Call) → Reply c × Inbox
  | .now => (wall, ⟨none, w.unclocked ++ farAhead wall w.arriving⟩)
  | .uuid => ([], w)
  | .isAuthenticated => (true, w)
  | .authenticate => (.ok (), w)
  | .readFile _ => (.error (.failed .missing), w)
  | .writeFile _ _ => (.ok (), w)
  | .deleteFile _ => (.ok (), w)
  | .listChanges => (.ok [], w)
  | .listMainline => (.ok [], w)
  | .ensureFolder _ => (.ok (), w)

theorem answer_emptyRemote {wall : ℕ} (hwall : wall < 10 ^ 15) (w : Inbox) (c : Call) :
    w.Answer c (emptyRemote wall w c).1 (emptyRemote wall w c).2 := by
  cases c with
  | now => exact ⟨hwall, rfl⟩
  | _ => exact rfl

end Inbox

/-! ## What a pull keeps -/

/-- All stamps in the rows fit. -/
def FitRows (store : LocalStore) : Prop := ∀ t, store.HasStamp t → Fits t

/-- Every stamp in the rows is an old one, or listed, or not later than the clock. -/
def Covered (old : Text → Prop) (c : Stamp Text) (store : LocalStore) (w : Inbox) : Prop :=
  ∀ t, store.HasStamp t → old t ∨ t ∈ w.unclocked ∨ (stampOf t).time ≤ c.time

variable {old : Text → Prop} {c c' : Stamp Text}

theorem Covered.mono {store : LocalStore} {w w' : Inbox} (h : Covered old c store w)
    (hc : c.time ≤ c'.time) (hw : w.unclocked ⊆ w'.unclocked) : Covered old c' store w' := by
  intro t ht
  rcases h t ht with ho | hl | hle
  · exact .inl ho
  · exact .inr (.inl (hw hl))
  · exact .inr (.inr (hle.trans hc))

/-- What stays as it is while a pull works. -/
structure Steady (d d' : Device) : Prop where
  config : d'.config = d.config
  pending : d'.store.pendingBatch = d.store.pendingBatch
  saved : d'.store.metadata.hlc = d.store.metadata.hlc
  clock : d'.hlc = d.hlc
  fits : FitRows d'.store

/-- The clock after a pull. -/
structure ClockMoved (d : Device) (c : Stamp Text) (d' : Device) (c' : Stamp Text) : Prop where
  config : d'.config = d.config
  pending : d'.store.pendingBatch = d.store.pendingBatch
  clock : d'.hlc = .ofStamp c'
  node : c'.node = c.node
  forward : c.time ≤ c'.time
  saved : d'.store.metadata.hlc = d.store.metadata.hlc ∧ c' = c ∨
    d'.store.metadata.hlc = some (stampText c')
  fits : FitRows d'.store

theorem Steady.clockMoved {d d' : Device} (h : Steady d d') (hc : d.hlc = .ofStamp c) :
    ClockMoved d c d' c :=
  ⟨h.config, h.pending, h.clock.trans hc, rfl, le_refl _, .inl ⟨h.saved, rfl⟩, h.fits⟩

/-- What a pull keeps of the rows while its clock stands at `c`. -/
def PullInv (d₀ : Device) (old : Text → Prop) (c : Stamp Text) (d : Device) (w : Inbox) : Prop :=
  Steady d₀ d ∧ Covered old c d.store w

/-- Until the files are listed a pull keeps the rows. -/
def Loading (d₀ : Device) (u : List Text) (d : Device) (w : Inbox) : Prop :=
  Steady d₀ d ∧ d.store.rows = d₀.store.rows ∧ u ⊆ w.unclocked

theorem grows_loading {d₀ : Device} {u : List Text} : Inbox.Grows (Loading d₀ u) :=
  fun _ _ _ h hw => ⟨h.1, h.2.1, List.Subset.trans h.2.2 hw⟩

theorem loadFrame_loading {d₀ : Device} {u : List Text} : LoadFrame Inbox.env (Loading d₀ u) where
  toQuiet := Inbox.quiet grows_loading
  bootstrap := .inr
    { toQuiet := Inbox.quiet grows_loading
      firstManifest := fun _ _ => Inbox.askKeeps grows_loading _
      firstPointer := Inbox.askKeeps grows_loading _ }
  session _ _ _ _ _ _ _ h := ⟨⟨h.1.config, h.1.pending, h.1.saved, h.1.clock, h.1.fits⟩, h.2⟩
  meshId _ _ _ _ h := ⟨⟨h.1.config, h.1.pending, h.1.saved, h.1.clock, h.1.fits⟩, h.2⟩
  manifest _ _ _ _ h := ⟨⟨h.1.config, h.1.pending, h.1.saved, h.1.clock, h.1.fits⟩, h.2⟩
  manifestCache _ _ _ h := ⟨⟨h.1.config, h.1.pending, h.1.saved, h.1.clock, h.1.fits⟩, h.2⟩

/-- A pull that ended normally: the clock covers what it brought in, and is stored unless
there was nothing to bring in. -/
structure Pulled (old : Text → Prop) (d : Device) (c : Stamp Text) (d' : Device) (c' : Stamp Text)
    (w' : Inbox) : Prop where
  moved : ClockMoved d c d' c'
  covered : Covered old c' d'.store w'
  recorded : d'.store.metadata.hlc = some (stampText c') ∨ d'.store.rows = d.store.rows

/-! ## Pulling -/

section Pull

variable {d₀ d : Device} {w : Inbox}

/-- A stamp of a merged change is listed, or the clock has moved past it. -/
theorem time_le_receive_of_mem {entry : ChangeEntry} {wall : ℕ} {w' : Inbox} {t : Text}
    (hw : w'.unclocked = w.unclocked ++ above entry.hlc entry.stamps ++ farAhead wall (some entry))
    (ht : t ∈ entry.stamps) :
    t ∈ w'.unclocked ∨
      (stampOf t).time ≤ (c.receive hlcMaxFutureSkewMs wall (stampOf entry.hlc)).time := by
  by_cases hfar : wall + hlcMaxFutureSkewMs < (stampOf entry.hlc).ts
  · refine .inl (hw ▸ List.mem_append_right _ ?_)
    rw [farAhead, if_pos hfar]
    exact ht
  · by_cases habove : (stampOf entry.hlc).time < (stampOf t).time
    · have hmem : t ∈ above entry.hlc entry.stamps :=
        List.mem_filter.mpr ⟨ht, decide_eq_true habove⟩
      exact .inl (hw ▸ List.mem_append_left _ (List.mem_append_right _ hmem))
    · have hpast := Stamp.remote_time_lt_receive (s := c) (not_lt.mp hfar)
      exact .inr ((not_lt.mp habove).trans hpast.le)

/-- Merging one change moves the clock past its stamps, or lists them. -/
theorem wp_pullFile (hs : StampKeeping d₀.config.schema) (h : PullInv d₀ old c d w)
    (manifest : Option Manifest) (name : Text) (ledger : ChangeObservationLedger) :
    (pullFile manifest name (.ofStamp c, ledger)).wp Inbox.env
      (fun p d' w' => ∃ c', p.1 = .ofStamp c' ∧ c'.node = c.node ∧ c.time ≤ c'.time ∧
        PullInv d₀ old c' d' w') (fun _ d' _ => Steady d₀ d') d w := by
  rw [pullFile, wp_bind, wp_readFile]
  rintro w₁ rfl rep w₂ hans
  refine ⟨trivial, ?_⟩
  cases rep with
  | error e => cases e <;> exact h.1
  | ok content =>
    change (_ >>= _ : Eng _).wp _ _ _ _ _
    rw [wp_bind]
    unfold decodeChangePayload
    split
    · rename_i meshId entry
      obtain ⟨⟨hentry, hstamps⟩, rfl⟩ := hans
      rw [wp_bind]
      refine wp_assertExpectedMeshId (fun _ => h.1) fun _ _ _ => ?_
      rw [wp_pure, wp_bind, wp_now]
      rintro w₃ rfl wall w₄ ⟨-, rfl⟩
      refine ⟨trivial, ?_⟩
      have hremote : hlcReceive wall (.ofStamp c) (hlcParse entry.hlc) =
          .ofStamp (c.receive hlcMaxFutureSkewMs wall (stampOf entry.hlc)) := by
        rw [hentry.serialized.hlcParse_eq, hlcReceive_ofStamp]
      rw [wp_bind, wp_get]
      split
      · exact ⟨h.1.config, h.1.pending, h.1.saved, h.1.clock, h.1.fits⟩
      · rename_i store hmerge
        have hkeeping : StampKeeping d.config.schema := h.1.config ▸ hs
        have hfrom : ∀ t, store.HasStamp t → d.store.HasStamp t ∨ t ∈ entry.stamps := fun t ht =>
          (mem_stamps_mergeEntry hkeeping hmerge ht :)
        obtain ⟨rows, hrows⟩ := exists_mergeEntry_eq hmerge
        have hsteady : Steady d₀ (d.withStore fun _ => store) := by
          refine ⟨h.1.config, ?_, ?_, h.1.clock, fun t ht => ?_⟩
          · exact (congrArg LocalStore.pendingBatch hrows).trans h.1.pending
          · exact (congrArg (fun s => s.metadata.hlc) hrows).trans h.1.saved
          · exact (hfrom t ht).elim (fun hold => h.1.fits t hold) (hstamps t)
        rw [wp_bind, wp_modifyStore]
        split
        · exact hsteady
        · refine ⟨_, hremote, rfl, (Stamp.time_lt_receive _ _ _ _).le, hsteady, fun t ht => ?_⟩
          rcases hfrom t ht with hold | hnew
          · have hsub : w.unclocked ⊆
                w.unclocked ++ above entry.hlc entry.stamps ++ farAhead wall (some entry) :=
              fun _ hu => List.mem_append_left _ (List.mem_append_left _ hu)
            have hle := (Stamp.time_lt_receive hlcMaxFutureSkewMs wall c (stampOf entry.hlc)).le
            have hall : Covered old (c.receive hlcMaxFutureSkewMs wall (stampOf entry.hlc))
                d.store ⟨none, _⟩ := h.2.mono hle hsub
            exact hall t hold
          · exact .inr (time_le_receive_of_mem rfl hnew)
    · exact h.1
    · exact h.1

theorem wp_pullFiles (hs : StampKeeping d₀.config.schema) (manifest : Option Manifest)
    (names : List Text) (h : PullInv d₀ old c d w) (ledger : ChangeObservationLedger) :
    (pullFiles manifest names (.ofStamp c, ledger)).wp Inbox.env
      (fun p d' w' => ∃ c', p.1 = .ofStamp c' ∧ c'.node = c.node ∧ c.time ≤ c'.time ∧
        PullInv d₀ old c' d' w') (fun _ d' _ => Steady d₀ d') d w := by
  induction names generalizing c d w ledger with
  | nil => exact ⟨c, rfl, rfl, le_refl _, h⟩
  | cons name names ih =>
    rw [pullFiles, wp_bind, wp_attempt]
    refine wp_mono (wp_pullFile hs h manifest name ledger) ?_ ?_
    · rintro ⟨hlc, ledger'⟩ d' w' ⟨c', rfl, hnode, hle, h'⟩
      refine wp_mono (ih h' ledger') ?_ fun _ _ _ hx => hx
      rintro p d'' w'' ⟨c'', hp, hnode', hle', h''⟩
      exact ⟨c'', hp, hnode'.trans hnode, hle.trans hle', h''⟩
    · intro failure d' w' hx
      cases failure with
      | stalled => exact hx
      | thrown e =>
        refine wp_poisoned (I := fun d' (_ : Inbox) => Steady d₀ d') ?_ hx e
        exact fun _ _ _ _ _ _ _ h => { h with }

theorem wp_pull (hs : StampKeeping d.config.schema) (hc : d.hlc = .ofStamp c)
    (hfits : FitRows d.store) (hcov : Covered old c d.store w) :
    (pull (do let _ ← doLoadOrCreateManifest false {})).wp Inbox.env
      (fun hlc d' w' => ∃ c', hlc = .ofStamp c' ∧ Pulled old d c { d' with hlc := hlc } c' w')
      (fun _ d' _ => Steady d d') d w := by
  have hstart : Loading d w.unclocked d w :=
    ⟨⟨rfl, rfl, rfl, rfl, hfits⟩, rfl, List.Subset.refl _⟩
  have hquiet : Quiet Inbox.env (Loading d w.unclocked) := Inbox.quiet grows_loading
  rw [pull, wp_bind, wp_get, wp_bind, wp_bind]
  refine (keeps_doLoadOrCreateManifest loadFrame_loading false {}).wp hstart ?_ fun _ _ _ hx => hx.1
  intro _ d₁ w₁ h₁
  rw [wp_pure, wp_bind, wp_metadata, wp_bind]
  refine (keeps_readHeadIfExists hquiet).wp h₁ ?_ fun _ _ _ hx => hx.1
  intro _ d₂ w₂ h₂
  rw [wp_bind]
  refine (keeps_listChangesIfExists hquiet).wp h₂ ?_ fun _ _ _ hx => hx.1
  intro listing d₃ w₃ h₃
  have hcov₃ : Covered old c d₃.store w₃ := by
    rintro t ⟨key, row, hget, ht⟩
    exact hcov.mono (le_refl _) h₃.2.2 t ⟨key, row, h₃.2.1 ▸ hget, ht⟩
  split
  · have hmoved := h₃.1.clockMoved hc
    exact ⟨c, hc, ⟨hmoved.config, hmoved.pending, hc, rfl, le_refl _, hmoved.saved, hmoved.fits⟩,
      hcov₃, .inr h₃.2.1⟩
  · rw [wp_bind, hc]
    refine wp_mono (wp_pullFiles hs d.manifest _ ⟨h₃.1, hcov₃⟩ _) ?_ fun _ _ _ hx => hx
    rintro ⟨hlc, ledger⟩ d₄ w₄ ⟨c', rfl, hnode, hle, h₄⟩
    rw [wp_bind, wp_setMeta, wp_pure]
    exact ⟨c', rfl, ⟨h₄.1.config, h₄.1.pending, rfl, hnode, hle, .inr rfl, h₄.1.fits⟩, h₄.2, .inl rfl⟩

/-- **What a pull does to the clock.** -/
theorem wp_pullNow (hs : StampKeeping d.config.schema) (hc : d.hlc = .ofStamp c)
    (hfits : FitRows d.store) (hcov : Covered old c d.store w) :
    pullNow.wp Inbox.env (fun _ d' w' => ∃ c', Pulled old d c d' c' w')
      (fun _ d' _ => ∃ c', ClockMoved d c d' c') d w := by
  have hgrows : ∀ c', Inbox.Grows fun d' w' => Pulled old d c d' c' w' :=
    fun c' _ _ _ h hw => ⟨h.moved, h.covered.mono (le_refl _) hw, h.recorded⟩
  have hsession : ∀ c', IgnoresSession fun d' (_ : Inbox) => ClockMoved d c d' c' :=
    fun c' _ _ _ _ _ _ _ h => { h with }
  have hhandler : ∀ {Q : Unit → Device → Inbox → Prop} (e : EngineError) (d' : Device) (w' : Inbox)
      (c' : Stamp Text), ClockMoved d c d' c' →
      (do handleRemoteAccessError e
          fail e : Eng Unit).wp Inbox.env Q (fun _ d' _ => ∃ c', ClockMoved d c d' c') d' w' := by
    intro Q e d' w' c' h
    rw [wp_bind]
    refine (keeps_handleRemoteAccessError (hsession c') e).wp h ?_ fun _ _ _ hx => ⟨c', hx⟩
    exact fun _ _ _ hx => ⟨c', hx⟩
  rw [pullNow, wp_bind]
  refine wp_requireAdapter_of ?_ fun _ => ⟨c, rfl, rfl, hc, rfl, le_refl _, .inl ⟨rfl, rfl⟩, hfits⟩
  rw [wp_attempt, wp_bind]
  refine wp_mono (wp_pull hs hc hfits hcov) ?_ ?_
  · rintro hlc d₁ w₁ ⟨c', rfl, hpulled⟩
    rw [wp_bind, wp_modify, wp_bind, wp_get]
    -- the rest records the time of the sync and the manifest that was seen
    have hrest : Keeps Inbox.env (fun d' w' => Pulled old d c d' c' w')
        (do Proc.when (d₁.connected = true) markSuccessfulRemoteSync
            acknowledgeManifest : Eng Unit) := by
      refine Proc.keeps_bind (Proc.keeps_when (keeps_markSuccessfulRemoteSync
        (Inbox.askKeeps (hgrows c') _) fun _ _ _ h => ?_)) fun _ =>
          keeps_acknowledgeManifest (Inbox.quiet (hgrows c')) fun _ _ => Inbox.askKeeps (hgrows c') _
      have hm := h.moved
      exact ⟨⟨hm.config, hm.pending, hm.clock, hm.node, hm.forward, hm.saved, hm.fits⟩, h.covered,
        h.recorded⟩
    refine hrest.wp hpulled (fun _ _ _ h => ⟨c', h⟩) fun failure d₂ w₂ h => ?_
    cases failure with
    | stalled => exact ⟨c', h.moved⟩
    | thrown e => exact hhandler e d₂ w₂ c' h.moved
  · intro failure d₁ w₁ hx
    cases failure with
    | stalled => exact ⟨c, hx.clockMoved hc⟩
    | thrown e => exact hhandler e d₁ w₁ c (hx.clockMoved hc)

end Pull

/-! ## Replacing the local state -/

section Rehydrate

variable {d₀ d : Device} {w : Inbox}

/-- What a flush keeps: the clock, the stored clock and the rows; the batch may move to
the outbox. -/
structure Flushed (d d' : Device) : Prop where
  config : d'.config = d.config
  pending : d'.store.pendingBatch = none
  saved : d'.store.metadata.hlc = d.store.metadata.hlc
  clock : d'.hlc = d.hlc
  rows : d'.store.rows = d.store.rows

theorem flushed_promoted (d : Device) : Flushed d d.promoted := by
  refine ⟨?_, pendingBatch_promoted d, ?_, ?_, ?_⟩ <;> rw [promoted_eq]

theorem flushFrame_flushed : FlushFrame Inbox.env fun d' (_ : Inbox) => Flushed d₀ d' where
  toQuiet := Inbox.quiet fun _ _ _ h _ => h
  bootstrap := .inr
    { toQuiet := Inbox.quiet (fun _ _ _ h _ => h)
      firstManifest := fun _ _ => Inbox.askKeeps (fun _ _ _ h _ => h) _
      firstPointer := Inbox.askKeeps (fun _ _ _ h _ => h) _ }
  changeFile _ _ _ _ _ _ := Inbox.askKeeps (fun _ _ _ h _ => h) _
  head _ := Inbox.askKeeps (fun _ _ _ h _ => h) _
  deviceRecords _ _ := Inbox.askKeeps (fun _ _ _ h _ => h) _
  session _ _ _ _ _ _ _ h := { h with }
  meshId _ _ _ _ h := { h with }
  manifest _ _ _ _ h := { h with }
  manifestCache _ _ _ h := { h with }
  observation _ _ _ _ _ h := { h with }
  acknowledge _ _ _ h := { h with }
  syncTimes _ _ _ h := { h with }
  quarantine _ _ _ _ _ h := { h with }
  promoted d _ h := by
    have hp := flushed_promoted d
    exact ⟨hp.config.trans h.config, hp.pending, hp.saved.trans h.saved, hp.clock.trans h.clock,
      hp.rows.trans h.rows⟩

/-- The stored clock after a replacement: as it was, cleared, or not before `c`. -/
def SavedFrom (d : Device) (c : Stamp Text) (d' : Device) : Prop :=
  d'.store.metadata.hlc = d.store.metadata.hlc ∨ d'.store.metadata.hlc = none ∨
    ∃ c', d'.store.metadata.hlc = some (stampText c') ∧ c.time ≤ c'.time

/-- The device after a replacement, however it ended. -/
structure Rehydrated (d : Device) (c : Stamp Text) (d' : Device) : Prop where
  config : d'.config = d.config
  pending : d'.store.pendingBatch = none
  clock : ∃ h : Stamp Text, d'.hlc = .ofStamp h ∧ h.node = c.node
  saved : SavedFrom d c d'
  fits : FitRows d'.store

theorem ClockMoved.rehydrated {d' : Device} (h : ClockMoved d c d' c')
    (hpending : d.store.pendingBatch = none) : Rehydrated d c d' := by
  refine ⟨h.config, h.pending.trans hpending, ⟨c', h.clock, h.node⟩, ?_, h.fits⟩
  rcases h.saved with hsame | hsome
  · exact .inl hsame.1
  · exact .inr (.inr ⟨c', hsome, h.forward⟩)

/-- The store has just been replaced: `h` is the clock of the snapshot. -/
structure Restored (d : Device) (h : Stamp Text) (d' : Device) (w' : Inbox) : Prop where
  config : d'.config = d.config
  pending : d'.store.pendingBatch = none
  saved : d'.store.metadata.hlc = none
  clock : d'.hlc = d.hlc
  fits : FitRows d'.store
  covered : Covered (fun _ => False) h d'.store w'

/-- Nothing has been replaced yet, or the store has just been replaced. -/
def RestoreInv (d₀ : Device) (d : Device) : Prop :=
  d.config = d₀.config ∧ d.store.pendingBatch = none ∧ d.hlc = d₀.hlc ∧ FitRows d.store ∧
    (d.store.metadata.hlc = d₀.store.metadata.hlc ∨ d.store.metadata.hlc = none)

theorem fits_replacedStore {preserved : PreservedMeta} {snapshot : Snapshot}
    (h : ∀ t ∈ snapshot.stamps, Fits t) : FitRows (replacedStore preserved snapshot) :=
  fun t ht => h t (mem_stamps_replacedStore ht)

theorem covered_replacedStore {preserved : PreservedMeta} {snapshot : Snapshot} {h : Stamp Text}
    {w' : Inbox} (hle : (stampOf snapshot.hlc).time ≤ h.time)
    (hw : above snapshot.hlc snapshot.stamps ⊆ w'.unclocked) :
    Covered (fun _ => False) h (replacedStore preserved snapshot) w' := by
  intro t ht
  have hmem := mem_stamps_replacedStore ht
  by_cases habove : (stampOf snapshot.hlc).time < (stampOf t).time
  · exact .inr (.inl (hw (List.mem_filter.mpr ⟨hmem, decide_eq_true habove⟩)))
  · exact .inr (.inr ((not_lt.mp habove).trans hle))

theorem wp_restoreSnapshot (hnode : c.node = d₀.config.deviceId)
    (h : RestoreInv d₀ d) (manifest : Option Manifest) (preserved : PreservedMeta)
    (path : ObjectPath) :
    (restoreSnapshot manifest preserved (.ofStamp c) path).wp Inbox.env
      (fun hlc d' w' => ∃ h, hlc = .ofStamp h ∧ h.node = c.node ∧ Restored d₀ h d' w')
      (fun _ d' _ => RestoreInv d₀ d') d w := by
  rw [restoreSnapshot, wp_bind, wp_readFile]
  rintro w₁ rfl rep w₂ hans
  refine ⟨trivial, ?_⟩
  cases rep with
  | error e => cases e <;> exact h
  | ok content =>
    change (_ >>= _ : Eng _).wp _ _ _ _ _
    rw [wp_bind]
    unfold decodeSnapshotPayload
    split
    · rename_i meshId snapshot
      obtain ⟨⟨hclock, hstamps⟩, rfl⟩ := hans
      rw [wp_bind]
      refine wp_assertExpectedMeshId (fun _ => h) fun _ _ _ => ?_
      have hsaved : (replacedStore preserved snapshot).metadata.hlc = none :=
        congrArg Metadata.hlc (metadata_replacedStore preserved snapshot)
      have hpending := pendingBatch_replacedStore preserved snapshot
      have hfits : FitRows (replacedStore preserved snapshot) := fits_replacedStore hstamps
      rw [wp_pure, wp_bind, wp_get, wp_bind, wp_modifyStore]
      split
      · exact ⟨h.1, hpending, h.2.2.1, hfits, .inr hsaved⟩
      · rw [wp_bind, wp_setMeta, wp_pure]
        have hcov : ∀ h' : Stamp Text, (stampOf snapshot.hlc).time ≤ h'.time →
            Covered (fun _ => False) h' (replacedStore preserved snapshot)
              ⟨w.arriving, w.unclocked ++ above snapshot.hlc snapshot.stamps⟩ := fun h' hle =>
          covered_replacedStore hle (List.subset_append_right _ _)
        by_cases hempty : snapshot.hlc = []
        · have hzero : (stampOf snapshot.hlc).time ≤ c.time := by
            have hnil : stampOf [] = ⟨0, 0, []⟩ := by decide
            rw [hempty, hnil, Stamp.time_le_iff]
            show 0 < c.ts ∨ 0 = c.ts ∧ 0 ≤ c.counter
            omega
          rw [if_pos hempty]
          exact ⟨c, rfl, rfl, h.1, hpending, hsaved, h.2.2.1, hfits, hcov c hzero⟩
        · have hser := hclock.resolve_left hempty
          rw [if_neg hempty, hser.hlcParse_eq]
          refine ⟨⟨(stampOf snapshot.hlc).ts, (stampOf snapshot.hlc).counter, c.node⟩, ?_, rfl, h.1,
            hpending, hsaved, h.2.2.1, hfits, hcov _ (le_refl _)⟩
          have hdevice : d.config.deviceId = c.node := by rw [h.1, hnode]
          exact congrArg (Hlc.mk _ _) hdevice
    · exact h
    · exact h

theorem loadFrame_restoreInv : LoadFrame Inbox.env fun d' (_ : Inbox) => RestoreInv d₀ d' where
  toQuiet := Inbox.quiet fun _ _ _ h _ => h
  bootstrap := .inr
    { toQuiet := Inbox.quiet (fun _ _ _ h _ => h)
      firstManifest := fun _ _ => Inbox.askKeeps (fun _ _ _ h _ => h) _
      firstPointer := Inbox.askKeeps (fun _ _ _ h _ => h) _ }
  session _ _ _ _ _ _ _ h := h
  meshId _ _ _ _ h := h
  manifest _ _ _ _ h := h
  manifestCache _ _ _ h := h

theorem wp_restoreWithRetry (hnode : c.node = d₀.config.deviceId)
    (h : RestoreInv d₀ d) (manifest : Option Manifest) (preserved : PreservedMeta)
    (path : ObjectPath) :
    (restoreWithRetry manifest preserved (.ofStamp c) path (do
        let _ ← doLoadOrCreateManifest true {}
        pure (← Proc.get).manifest)).wp Inbox.env
      (fun hlc d' w' => ∃ h, hlc = .ofStamp h ∧ h.node = c.node ∧ Restored d₀ h d' w')
      (fun _ d' _ => RestoreInv d₀ d') d w := by
  have hpoison : ∀ {α : Type} {Q : α → Device → Inbox → Prop} {d : Device} {w : Inbox}
      (e : EngineError), RestoreInv d₀ d →
      (do fail (← poisonRemote e) : Eng α).wp Inbox.env Q (fun _ d' _ => RestoreInv d₀ d') d w :=
    fun e h => wp_poisoned (I := fun d' (_ : Inbox) => RestoreInv d₀ d')
      (fun _ _ _ _ _ _ _ h => h) h e
  rw [restoreWithRetry, wp_attempt, wp_attempt]
  refine wp_mono (wp_restoreSnapshot hnode h manifest preserved path)
    (fun _ _ _ hq => hq) fun failure d₁ w₁ h₁ => ?_
  cases failure with
  | stalled => exact h₁
  | thrown e =>
    dsimp only
    rw [wp_bind]
    refine (keeps_reloadManifest loadFrame_restoreInv).wp h₁ ?_ fun failure d₂ w₂ h₂ => ?_
    · intro refreshed d₂ w₂ h₂
      split
      · rw [wp_fail]
        exact hpoison e h₂
      · split
        · rw [wp_fail]
          exact hpoison e h₂
        · refine wp_mono (wp_restoreSnapshot hnode h₂ manifest preserved _)
            (fun _ _ _ hq => hq) fun failure d₃ w₃ h₃ => ?_
          cases failure with
          | stalled => exact h₃
          | thrown e => exact hpoison e h₃
    · cases failure with
      | stalled => exact h₂
      | thrown e => exact hpoison e h₂

/-- The stored clock is not behind a stamp. -/
def SavedPast (st : Stamp Text) (store : LocalStore) : Prop :=
  ∃ t, store.metadata.hlc = some t ∧ st.time ≤ (stampOf t).time

/-- The rows after a replacement: the engine's clock or the stored one covers what is
not listed. -/
def RehydratedRows (old : Text → Prop) (d' : Device) (w' : Inbox) : Prop :=
  ∃ h : Stamp Text, d'.hlc = .ofStamp h ∧ ∀ t, d'.store.HasStamp t →
    old t ∨ t ∈ w'.unclocked ∨ (stampOf t).time ≤ h.time ∨ SavedPast (stampOf t) d'.store

/-- A replacement that did not end normally: it had covered the rows before that, or has
not moved the clock back. -/
def Interrupted (old : Text → Prop) (c : Stamp Text) (d' : Device) (w' : Inbox) : Prop :=
  RehydratedRows old d' w' ∨ ∃ h : Stamp Text, d'.hlc = .ofStamp h ∧ c.time ≤ h.time

/-- The pull at the end of a replacement covers the rows by its clock, which is stored, or
has not changed them; then the clock `h` of the snapshot still covers them. -/
theorem Pulled.rehydratedRows {d₁ d₂ : Device} {h : Stamp Text} {w' : Inbox}
    (hp : Pulled (fun t => old t ∨ (stampOf t).time ≤ h.time) d₁ c d₂ c' w')
    (hstay : ∀ t, d₁.store.HasStamp t → old t ∨ t ∈ w'.unclocked ∨ (stampOf t).time ≤ h.time) :
    RehydratedRows old { d₂ with hlc := .ofStamp h } w' := by
  refine ⟨h, rfl, fun t ht => ?_⟩
  rcases hp.recorded with hsaved | hrows
  · rcases hp.covered t ht with (hold | hle) | hl | hle
    · exact .inl hold
    · exact .inr (.inr (.inl hle))
    · exact .inr (.inl hl)
    · exact .inr (.inr (.inr ⟨_, hsaved, by rw [stampOf_stampText]; exact hle⟩))
  · obtain ⟨key, row, hget, hmem⟩ := ht
    exact (hstay t ⟨key, row, hrows ▸ hget, hmem⟩).imp_right fun hx => hx.imp_right .inl

/-- **What a replacement does to the clock.** -/
theorem wp_rehydrateNow (hs : StampKeeping d.config.schema) (hc : d.hlc = .ofStamp c)
    (hnode : c.node = d.config.deviceId) (hfits : FitRows d.store)
    (hpending : d.store.pendingBatch = none) (hcov : Covered old c d.store w)
    (preserved : PreservedMeta) :
    (rehydrateNow preserved).wp Inbox.env
      (fun _ d' w' => Rehydrated d c d' ∧ RehydratedRows old d' w')
      (fun _ d' w' => Rehydrated d c d' ∧ Interrupted old c d' w') d w := by
  have hforward : ∀ {d' : Device} {w' : Inbox} {c' : Stamp Text}, d'.hlc = .ofStamp c' →
      c.time ≤ c'.time → Interrupted old c d' w' := fun hclock hle => .inr ⟨_, hclock, hle⟩
  have hstay : Rehydrated d c d := ⟨rfl, hpending, ⟨c, hc, rfl⟩, .inl rfl, hfits⟩
  have hgrows : Inbox.Grows fun d' w' => Rehydrated d c d' ∧ RehydratedRows old d' w' := by
    rintro d' w' w'' ⟨hr, h, hclock, hrows⟩ hw
    refine ⟨hr, h, hclock, fun t ht => ?_⟩
    exact (hrows t ht).imp_right fun hx => hx.imp_left fun hl => hw hl
  have hack : Keeps Inbox.env
      (fun d' w' => Rehydrated d c d' ∧ RehydratedRows old d' w') acknowledgeManifest :=
    keeps_acknowledgeManifest (Inbox.quiet hgrows) fun _ _ => Inbox.askKeeps hgrows _
  rw [rehydrateNow, wp_bind]
  refine wp_requireAdapter_of ?_ fun _ => ⟨hstay, hforward hc (le_refl _)⟩
  rw [wp_bind, rehydrate, wp_bind, wp_get]
  split
  · -- without a snapshot a rehydrate is a pull, and the clock is set back to `c`
    rw [wp_bind]
    have hcov' : Covered (fun t => old t ∨ (stampOf t).time ≤ c.time) c d.store w :=
      fun t ht => (hcov t ht).imp_left .inl
    refine wp_mono (Inbox.wp_grows (wp_pullNow hs hc hfits hcov')) ?_ ?_
    · rintro _ d₁ w₁ ⟨⟨c', hpulled⟩, hw⟩
      rw [wp_pure, wp_bind, wp_modify]
      have hr := hpulled.moved.rehydrated hpending
      have hrows := hpulled.rehydratedRows (hcov.mono (le_refl _) hw)
      rw [hc]
      exact hack.wp ⟨{ hr with clock := ⟨c, rfl, rfl⟩ }, hrows⟩
        (fun _ _ _ h => h) fun _ _ _ h => ⟨h.1, .inl h.2⟩
    · rintro _ d₁ w₁ ⟨⟨c', hmoved⟩, -⟩
      exact ⟨hmoved.rehydrated hpending, hforward hmoved.clock hmoved.forward⟩
  · rename_i path hpath
    have hinv : RestoreInv d d := ⟨rfl, hpending, rfl, hfits, .inl rfl⟩
    rw [wp_bind, hc]
    refine wp_mono (wp_restoreWithRetry hnode hinv d.manifest preserved path) ?_ ?_
    · rintro hlc d₁ w₁ ⟨h, rfl, hnode', hres⟩
      -- the pull starts from the clock that the engine had, with nothing stored
      have hrestored : ∀ {w₂ : Inbox}, w₁.unclocked ⊆ w₂.unclocked → ∀ t, d₁.store.HasStamp t →
          old t ∨ t ∈ w₂.unclocked ∨ (stampOf t).time ≤ h.time := by
        intro w₂ hw t ht
        rcases hres.covered t ht with hf | hl | hle
        · exact hf.elim
        · exact .inr (.inl (hw hl))
        · exact .inr (.inr hle)
      have hcov' : Covered (fun t => old t ∨ (stampOf t).time ≤ h.time) c d₁.store w₁ := by
        intro t ht
        rcases hrestored (List.Subset.refl _) t ht with hold | hl | hle
        · exact .inl (.inl hold)
        · exact .inr (.inl hl)
        · exact .inl (.inr hle)
      have hclock₁ : d₁.hlc = .ofStamp c := hres.clock.trans hc
      have hkeeping : StampKeeping d₁.config.schema := hres.config ▸ hs
      have hafter : ∀ {d₂ : Device} {c' : Stamp Text}, ClockMoved d₁ c d₂ c' →
          ∀ d₃ : Device, d₃.config = d₂.config → d₃.store = d₂.store →
          (∃ h' : Stamp Text, d₃.hlc = .ofStamp h' ∧ h'.node = c.node) → Rehydrated d c d₃ := by
        intro d₂ c' hmoved d₃ hconfig hstore hclock
        refine ⟨hconfig.trans (hmoved.config.trans hres.config), ?_, hclock, ?_, ?_⟩
        · rw [hstore, hmoved.pending, hres.pending]
        · rw [SavedFrom, hstore]
          rcases hmoved.saved with ⟨hsame, -⟩ | hsome
          · exact .inr (.inl (hsame.trans hres.saved))
          · exact .inr (.inr ⟨c', hsome, hmoved.forward⟩)
        · rw [hstore]
          exact hmoved.fits
      rw [wp_bind]
      refine wp_mono (Inbox.wp_grows (wp_pullNow hkeeping hclock₁ hres.fits hcov')) ?_ ?_
      · rintro _ d₂ w₂ ⟨⟨c', hpulled⟩, hw⟩
        rw [wp_pure, wp_bind, wp_modify]
        have hrows := hpulled.rehydratedRows (hrestored hw)
        exact hack.wp ⟨hafter hpulled.moved _ rfl rfl ⟨h, rfl, hnode'⟩, hrows⟩
          (fun _ _ _ h => h) fun _ _ _ h => ⟨h.1, .inl h.2⟩
      · rintro _ d₂ w₂ ⟨⟨c', hmoved⟩, -⟩
        exact ⟨hafter hmoved d₂ rfl rfl ⟨c', hmoved.clock, hmoved.node⟩,
          hforward hmoved.clock hmoved.forward⟩
    · rintro _ d₁ w₁ ⟨hconfig, hpend, hclock, hfit, hsaved⟩
      exact ⟨⟨hconfig, hpend, ⟨c, hclock.trans hc, rfl⟩,
        hsaved.elim .inl fun hn => .inr (.inl hn), hfit⟩, hforward (hclock.trans hc) (le_refl _)⟩

theorem Flushed.hasStamp_iff {d' : Device} (h : Flushed d d') (t : Text) :
    d'.store.HasStamp t ↔ d.store.HasStamp t := by
  rw [LocalStore.HasStamp, LocalStore.HasStamp, h.rows]

theorem Rehydrated.of_flushed {d₁ d' : Device} (h : Flushed d d₁) (hr : Rehydrated d₁ c d') :
    Rehydrated d c d' := by
  refine ⟨hr.config.trans h.config, hr.pending, hr.clock, ?_, hr.fits⟩
  have hsaved := hr.saved
  rw [SavedFrom, h.saved] at hsaved
  exact hsaved

/-- **What `flushAndRehydrateNow` does to the clock.** -/
theorem wp_flushAndRehydrateNow (hs : StampKeeping d.config.schema) (hc : d.hlc = .ofStamp c)
    (hnode : c.node =
      d.config.deviceId) (hfits : FitRows d.store) (hcov : Covered old c d.store w) :
    flushAndRehydrateNow.wp Inbox.env
      (fun _ d' w' => Rehydrated d c d' ∧ RehydratedRows old d' w')
      (fun _ d' w' => Rehydrated d c d' ∧ Interrupted old c d' w') d w := by
  rw [flushAndRehydrateNow, wp_bind, flushPendingBatch, wp_modify, wp_bind]
  have hflush := keeps_doFlush flushFrame_flushed d.promoted w (flushed_promoted d)
  refine wp_mono (Inbox.wp_grows hflush) ?_ ?_
  · rintro _ d₁ w₁ ⟨hflushed, hw⟩
    rw [wp_bind, preservedRetentionMeta, wp_bind, wp_metadata, wp_pure]
    have hkeeping : StampKeeping d₁.config.schema := hflushed.config ▸ hs
    have hnode₁ : c.node = d₁.config.deviceId := hflushed.config ▸ hnode
    have hfits₁ : FitRows d₁.store := fun t ht => hfits t ((hflushed.hasStamp_iff t).mp ht)
    have hcov₁ : Covered old c d₁.store w₁ := fun t ht =>
      hcov.mono (le_refl _) hw t ((hflushed.hasStamp_iff t).mp ht)
    exact wp_mono (wp_rehydrateNow hkeeping (hflushed.clock.trans hc) hnode₁ hfits₁
      hflushed.pending hcov₁ _) (fun _ _ _ hx => ⟨hx.1.of_flushed hflushed, hx.2⟩)
      fun _ _ _ hx => ⟨hx.1.of_flushed hflushed, hx.2⟩
  · rintro _ d₁ w₁ ⟨hflushed, -⟩
    have hclock : d₁.hlc = .ofStamp c := hflushed.clock.trans hc
    exact ⟨⟨hflushed.config, hflushed.pending, ⟨c, hclock, rfl⟩, .inl hflushed.saved,
      fun t ht => hfits t ((hflushed.hasStamp_iff t).mp ht)⟩, .inr ⟨c, hclock, le_refl _⟩⟩

end Rehydrate

end Interocitor
