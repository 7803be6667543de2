import Interocitor.Clock.Outranks
import Interocitor.Core.Lifecycle

/-!
# How far ahead of the wall clock an engine's clock can get

`hlcReceive` counts a remote stamp only up to five minutes beyond the wall clock, so that a peer
whose clock is far ahead cannot drag the local one along.  It is not the only writer of the
clock.  A local write stores the latest stamp *of the row it wrote*, and among the columns it left
alone there may be one of that peer; the next write takes over the stored clock.  And a
replacement takes the clock of the snapshot as it is.

Here the remote answers anything at all, with stamps that need not even be stamps.  The world is a
`Dial`: the largest wall clock reading so far, and the clocks of the snapshots that were handed
out in the call.

* `clock_within_skew`: in every run in which no put leaves a column alone that is stamped more
  than five minutes beyond the largest reading, and no snapshot that is handed out to a replacement
  has such a clock, the engine's clock, the stored one and every issued stamp stay within.
* `put_beside_a_fast_clock`: a run of a pull and a put in which the stored clock does not.
-/

namespace Interocitor

open CodeUnits OrderedRecord HybridClock Interaction Eng List Option
open Proc (wp_bind wp_mono wp_get Keeps wp_modify keeps_bind wp_pure wp_run_ends)

/-! ## The world -/

/-- The largest reading of the wall clock, and the clocks of the snapshots handed out. -/
structure Dial where
  reading : ℕ
  restored : List Text

namespace Dial

/-- A read hands out anything; the clock of a snapshot is noted. -/
def ReadAnswer (w w' : Dial) : Except NoAnswer Content → Prop
  | .ok (.snapshot _ snapshot) => w' = ⟨w.reading, snapshot.hlc :: w.restored⟩
  | _ => w' = w

/-- The answers: any at all. -/
def Answer (w : Dial) : (c : Call) → Reply c → Dial → Prop
  | .now, wall, w' => w' = ⟨max w.reading wall, w.restored⟩
  | .readFile _, rep, w' => w.ReadAnswer w' rep
  | _, _, w' => w' = w

/-- The environment of an engine that is told anything. -/
def env : Env Call Reply Dial := ⟨Eq, Answer, fun _ _ => True⟩

/-- Readings and notes only add up. -/
structure Grown (w w' : Dial) : Prop where
  reading : w.reading ≤ w'.reading
  restored : w.restored ⊆ w'.restored

theorem Grown.refl (w : Dial) : Grown w w := ⟨le_refl _, List.Subset.refl _⟩

theorem grown_of_answer {w w' : Dial} {c : Call} {rep : Reply c} (h : w.Answer c rep w') :
    Grown w w' := by
  cases c with
  | now =>
    obtain rfl := h
    exact ⟨le_max_left _ _, List.Subset.refl _⟩
  | readFile path =>
    change w.ReadAnswer w' rep at h
    unfold ReadAnswer at h
    split at h
    · rw [h]
      exact ⟨le_refl _, subset_cons_self _ _⟩
    · rw [h]
      exact .refl w
  | _ =>
    obtain rfl : w' = w := h
    exact .refl w'

theorem wp_grown {α : Type} {m : Eng α} {Q : α → Device → Dial → Prop}
    {X : Failure → Device → Dial → Prop} {d : Device} {w : Dial} (h : m.wp env Q X d w) :
    m.wp env (fun a d' w' => Q a d' w' ∧ Grown w w') (fun e d' w' => X e d' w' ∧ Grown w w') d w := by
  refine Proc.wp_related .refl ?_ ?_ ?_ h
  · exact fun _ _ _ h h' => ⟨h.reading.trans h'.reading, List.Subset.trans h.restored h'.restored⟩
  · rintro w _ rfl
    exact .refl w
  · exact fun _ _ _ _ hans => grown_of_answer hans

/-- A property of the world that was true before if it is true now. -/
def Lasting (P : Dial → Prop) : Prop := ∀ w w', Grown w w' → P w' → P w

/-- The readings stay below `R`. -/
def UpTo (R : ℕ) (w : Dial) : Prop := w.reading ≤ R

theorem lasting_upTo (R : ℕ) : Lasting (UpTo R) := fun _ _ h h' => h.reading.trans h'

end Dial

/-! ## Times within the skew -/

/-- A time that is at most five minutes beyond `R`; `NaN` is beyond nothing. -/
def NumWithin (R : ℕ) (n : Num) : Prop := ∀ t, n = some t → t ≤ R + hlcMaxFutureSkewMs

/-- A text whose time, if it has one, is within. -/
def TextWithin (R : ℕ) (s : Text) : Prop := NumWithin R (hlcParse s).ts

theorem NumWithin.mono {R R' : ℕ} {n : Num} (h : NumWithin R n) (hle : R ≤ R') :
    NumWithin R' n := fun t ht => (h t ht).trans (by omega)

theorem ts_hlcParse_hlcSerialize (hlc : Hlc) :
    (hlcParse (hlcSerialize hlc)).ts = some (hlc.ts.getD 0) := by
  have hdash : dash ∉ padStart 15 (digitUnit 0) (numText 10 hlc.ts) := by
    cases hlc.ts with
    | none => decide
    | some t => exact dash_notMem_padStart 15 t (by omega) (by omega)
  have htime : parseInt 10 (padStart 15 (digitUnit 0) (numText 10 hlc.ts)) =
      some (hlc.ts.getD 0) := by
    cases hlc.ts with
    | none => decide
    | some t => exact parseInt_padStart_numeral 15 t (by omega) (by omega)
  rw [hlcSerialize, hlcParse, idxOf?_dash hdash]
  dsimp only
  split <;> rw [take_left] <;> exact htime

variable {R : ℕ}

theorem textWithin_hlcSerialize {hlc : Hlc} (h : NumWithin R hlc.ts) :
    TextWithin R (hlcSerialize hlc) := by
  intro t ht
  rw [ts_hlcParse_hlcSerialize, some.injEq] at ht
  cases hts : hlc.ts with
  | none =>
    rw [hts] at ht
    change 0 = t at ht
    omega
  | some n =>
    rw [hts] at ht
    change n = t at ht
    exact h t (hts.trans (congrArg some ht))

theorem NumWithin.hlcNow {wall : ℕ} {clock : Hlc} (h : NumWithin R clock.ts) (hwall : wall ≤ R) :
    NumWithin R (hlcNow wall clock).ts := by
  rw [Interocitor.hlcNow]
  split_ifs
  · intro t ht
    obtain rfl : wall = t := some.inj ht
    omega
  · exact h

/-- **A received stamp counts only so far.** -/
theorem NumWithin.hlcReceive {wall : ℕ} {clock : Hlc} (h : NumWithin R clock.ts) (hwall : wall ≤ R)
    (remote : Hlc) : NumWithin R (hlcReceive wall clock remote).ts := by
  intro t ht
  cases hclock : clock.ts with
  | none =>
    simp [Interocitor.hlcReceive, hclock, numMax] at ht
  | some c =>
    have hc := h c hclock
    cases hremote : remote.ts with
    | none => simp [Interocitor.hlcReceive, hclock, hremote, numMax, numMin] at ht
    | some r =>
      simp only [Interocitor.hlcReceive, hclock, hremote, numMax, numMin, bind_some,
        map_some, some.injEq] at ht
      omega

/-! ## The invariant -/

/-- The clock, the stored clock and the stamp of the pending batch are within. -/
structure Within (R : ℕ) (d : Device) : Prop where
  clock : NumWithin R d.hlc.ts
  saved : ∀ t, d.store.metadata.hlc = some t → TextWithin R t
  pending : ∀ p, d.store.pendingBatch = some p → TextWithin R p.hlc

/-- Within, as long as the world has been as it should. -/
def WithinIf (R : ℕ) (P : Dial → Prop) (d : Device) (w : Dial) : Prop := P w → Within R d

section Frames

variable {R : ℕ} {P : Dial → Prop} (hP : Dial.Lasting P)
include hP

theorem askKeeps_within (c : Call) : Proc.AskKeeps Dial.env (WithinIf R P) c := by
  rintro d w w₁ rep w₂ hI rfl hans
  exact ⟨trivial, fun h => hI (hP w w₂ (Dial.grown_of_answer hans) h)⟩

theorem quiet_within : Quiet Dial.env (WithinIf R P) where
  now := askKeeps_within hP _
  uuid := askKeeps_within hP _
  isAuthenticated := askKeeps_within hP _
  authenticate := askKeeps_within hP _
  readFile _ := askKeeps_within hP _
  listChanges := askKeeps_within hP _
  listMainline := askKeeps_within hP _
  ensureFolder _ := askKeeps_within hP _

theorem flushFrame_within : FlushFrame Dial.env (WithinIf R P) where
  toQuiet := quiet_within hP
  bootstrap := .inr
    { toQuiet := quiet_within hP
      firstManifest := fun _ _ => askKeeps_within hP _
      firstPointer := askKeeps_within hP _ }
  changeFile _ _ _ _ _ _ := askKeeps_within hP _
  head _ := askKeeps_within hP _
  deviceRecords _ _ := askKeeps_within hP _
  session _ _ _ _ _ _ _ h hw := ⟨(h hw).clock, (h hw).saved, (h hw).pending⟩
  meshId _ _ _ _ h hw := ⟨(h hw).clock, (h hw).saved, (h hw).pending⟩
  manifest _ _ _ _ h hw := ⟨(h hw).clock, (h hw).saved, (h hw).pending⟩
  manifestCache _ _ _ h hw := ⟨(h hw).clock, (h hw).saved, (h hw).pending⟩
  observation _ _ _ _ _ h hw := ⟨(h hw).clock, (h hw).saved, (h hw).pending⟩
  acknowledge _ _ _ h hw := ⟨(h hw).clock, (h hw).saved, (h hw).pending⟩
  syncTimes _ _ _ h hw := ⟨(h hw).clock, (h hw).saved, (h hw).pending⟩
  quarantine _ _ _ _ _ h hw := ⟨(h hw).clock, (h hw).saved, (h hw).pending⟩
  promoted d _ h hw := by
    have hp := flushed_promoted d
    refine ⟨hp.clock ▸ (h hw).clock, fun t ht => (h hw).saved t (hp.saved.symm.trans ht), ?_⟩
    intro p hpending
    exact absurd (hp.pending.symm.trans hpending) (by simp)

/-! ## Pulling -/

variable (hR : ∀ w, P w → w.reading ≤ R)
include hR

variable {d : Device} {w : Dial} {hlc : Hlc}

theorem wp_pullFile_within (h : WithinIf R P d w) (manifest : Option Manifest) (name : Text)
    (hhlc : P w → NumWithin R hlc.ts) (ledger : ChangeObservationLedger) :
    (pullFile manifest name (hlc, ledger)).wp Dial.env
      (fun p d' w' => (P w' → NumWithin R p.1.ts) ∧ WithinIf R P d' w')
      (fun _ => WithinIf R P) d w := by
  have hmesh : IgnoresMeshId (fun d' w' => (P w' → NumWithin R hlc.ts) ∧ WithinIf R P d' w') :=
    fun _ _ _ _ hI => ⟨hI.1, fun hw => ⟨(hI.2 hw).clock, (hI.2 hw).saved, (hI.2 hw).pending⟩⟩
  rw [pullFile, wp_bind]
  have hread : Keeps Dial.env
      (fun d' w' => (P w' → NumWithin R hlc.ts) ∧ WithinIf R P d' w')
      (readFile (.change name) >>= decodeChangePayload manifest) := by
    refine keeps_bind (keeps_readFile ?_) fun content => ?_
    · rintro d w w₁ rep w₂ hI rfl hans
      have hgrown : Dial.Grown w w₂ := Dial.grown_of_answer
        (show w.Answer (.readFile (.change name)) rep w₂ from hans)
      exact ⟨trivial, fun hw => hI.1 (hP _ _ hgrown hw), fun hw => hI.2 (hP _ _ hgrown hw)⟩
    · unfold decodeChangePayload
      split
      · exact keeps_bind (keeps_assertExpectedMeshId hmesh _ _) fun _ => Proc.keeps_pure _
      · exact keeps_fail _
      · exact keeps_fail _
  have hboth := hread d w ⟨hhlc, h⟩
  rw [wp_bind] at hboth
  refine wp_mono hboth (fun content d₁ w₁ h₁ => ?_) fun _ _ _ hx => hx.2
  rw [wp_bind]
  refine wp_mono h₁ (fun entry d₂ w₂ h₂ => ?_) fun _ _ _ hx => hx.2
  rw [wp_bind, wp_now]
  rintro w₃ rfl wall w₄ rfl
  refine ⟨trivial, ?_⟩
  have hgrown : Dial.Grown w₂ ⟨max w₂.reading wall, w₂.restored⟩ :=
    ⟨le_max_left _ _, List.Subset.refl _⟩
  have hnext : P ⟨max w₂.reading wall, w₂.restored⟩ →
      NumWithin R (hlcReceive wall hlc (hlcParse entry.hlc)).ts := by
    intro hw
    exact (h₂.1 (hP _ _ hgrown hw)).hlcReceive ((le_max_right _ _).trans (hR _ hw)) _
  have hkept : ∀ store : LocalStore, store.pendingBatch = d₂.store.pendingBatch →
      store.metadata = d₂.store.metadata →
      WithinIf R P (d₂.withStore fun _ => store) ⟨max w₂.reading wall, w₂.restored⟩ := by
    intro store hpending hmeta hw
    have hwithin := h₂.2 (hP _ _ hgrown hw)
    refine ⟨hwithin.clock, fun t ht => ?_, fun p hp => hwithin.pending p (hpending.symm.trans hp)⟩
    exact hwithin.saved t ((congrArg Metadata.hlc hmeta).symm.trans ht)
  rw [wp_bind, wp_get]
  split
  · exact hkept d₂.store rfl rfl
  · rename_i store hmerge
    obtain ⟨rows, rfl⟩ := exists_mergeEntry_eq hmerge
    rw [wp_bind, wp_modifyStore]
    split
    · exact hkept _ rfl rfl
    · exact ⟨hnext, hkept _ rfl rfl⟩

theorem wp_pullFiles_within (manifest : Option Manifest) (names : List Text) (h : WithinIf R P d w)
    (hhlc : P w → NumWithin R hlc.ts) (ledger : ChangeObservationLedger) :
    (pullFiles manifest names (hlc, ledger)).wp Dial.env
      (fun p d' w' => (P w' → NumWithin R p.1.ts) ∧ WithinIf R P d' w')
      (fun _ => WithinIf R P) d w := by
  induction names generalizing hlc d w ledger with
  | nil => exact ⟨hhlc, h⟩
  | cons name names ih =>
    rw [pullFiles, wp_bind, wp_attempt]
    refine wp_mono (wp_pullFile_within hP hR h manifest name hhlc ledger) ?_ ?_
    · rintro ⟨hlc', ledger'⟩ d' w' ⟨hhlc', h'⟩
      exact ih h' hhlc' ledger'
    · intro failure d' w' hx
      cases failure with
      | stalled => exact hx
      | thrown e => exact wp_poisoned (flushFrame_within hP).session hx e

theorem wp_pull_within (h : WithinIf R P d w) :
    (pull (do let _ ← doLoadOrCreateManifest false {})).wp Dial.env
      (fun hlc d' w' => (P w' → NumWithin R hlc.ts) ∧ WithinIf R P d' w')
      (fun _ => WithinIf R P) d w := by
  -- until the files are listed the clock to start from is the one of `d`
  have hkeep : ∀ {α : Type} {m : Eng α}, Keeps Dial.env (WithinIf R P) m →
      ∀ {d₁ : Device} {w₁ : Dial}, (P w₁ → Within R d) → WithinIf R P d₁ w₁ →
      m.wp Dial.env (fun _ d' w' => (P w' → Within R d) ∧ WithinIf R P d' w')
        (fun _ => WithinIf R P) d₁ w₁ := by
    intro α m hm d₁ w₁ hd h₁
    refine wp_mono (Dial.wp_grown (hm d₁ w₁ h₁)) ?_ fun _ _ _ hx => hx.1
    exact fun _ d' w' hx => ⟨fun hw => hd (hP _ _ hx.2 hw), hx.1⟩
  rw [pull, wp_bind, wp_get, wp_bind, wp_bind]
  refine wp_mono (hkeep (keeps_doLoadOrCreateManifest (flushFrame_within hP).toLoadFrame
    false {}) h h) ?_ fun _ _ _ hx => hx
  rintro _ d₁ w₁ ⟨hd₁, h₁⟩
  rw [wp_pure, wp_bind, wp_metadata, wp_bind]
  refine wp_mono (hkeep (keeps_readHeadIfExists (quiet_within hP)) hd₁ h₁) ?_ fun _ _ _ hx => hx
  rintro _ d₂ w₂ ⟨hd₂, h₂⟩
  rw [wp_bind]
  refine wp_mono (hkeep (keeps_listChangesIfExists (quiet_within hP)) hd₂ h₂) ?_ fun _ _ _ hx => hx
  rintro listing d₃ w₃ ⟨hd₃, h₃⟩
  split
  · exact ⟨fun hw => (hd₃ hw).clock, h₃⟩
  · rw [wp_bind]
    refine wp_mono (wp_pullFiles_within hP hR _ _ h₃ (fun hw => (hd₃ hw).clock) _) ?_
      fun _ _ _ hx => hx
    rintro ⟨hlc, ledger⟩ d₄ w₄ ⟨hhlc, h₄⟩
    rw [wp_bind, wp_setMeta, wp_pure]
    refine ⟨hhlc, fun hw => ⟨(h₄ hw).clock, fun t ht => ?_, (h₄ hw).pending⟩⟩
    obtain rfl : hlcSerialize hlc = t := some.inj ht
    exact textWithin_hlcSerialize (hhlc hw)

/-- **A pull keeps the clock within.** -/
theorem keeps_pullNow_within : Keeps Dial.env (WithinIf R P) pullNow := by
  have hf : FlushFrame Dial.env (WithinIf R P) := flushFrame_within hP
  intro d w h
  rw [pullNow, wp_bind]
  refine wp_requireAdapter_of ?_ fun _ => h
  rw [wp_attempt, wp_bind]
  have hhandler : ∀ e : EngineError, Keeps Dial.env (WithinIf R P)
      (do handleRemoteAccessError e
          fail e : Eng Unit) := fun e =>
    keeps_bind (keeps_handleRemoteAccessError hf.session e) fun _ => keeps_fail _
  refine wp_mono (wp_pull_within hP hR h) ?_ fun failure d' w' hx => ?_
  · rintro hlc d₁ w₁ ⟨hhlc, h₁⟩
    rw [wp_bind, wp_modify, wp_bind, wp_get]
    have hrest : Keeps Dial.env (WithinIf R P)
        (do Proc.when (d₁.connected = true) markSuccessfulRemoteSync
            acknowledgeManifest : Eng Unit) :=
      keeps_bind (Proc.keeps_when (keeps_markSuccessfulRemoteSync hf.now hf.syncTimes))
        fun _ => keeps_acknowledgeManifest hf.toQuiet hf.deviceRecords
    refine hrest.wp (fun hw => ⟨hhlc hw, (h₁ hw).saved, (h₁ hw).pending⟩) (fun _ _ _ hx => hx)
      fun failure d' w' hx => ?_
    cases failure with
    | stalled => exact hx
    | thrown e => exact hhandler e d' w' hx
  · cases failure with
    | stalled => exact hx
    | thrown e => exact hhandler e d' w' hx

/-! ## Replacing the local state -/

variable (hS : ∀ w, P w → ∀ t ∈ w.restored, TextWithin R t)
include hS

omit hR in
theorem wp_restoreSnapshot_within (h : WithinIf R P d w) (manifest : Option Manifest)
    (preserved : PreservedMeta) (path : ObjectPath) (hhlc : P w → NumWithin R hlc.ts) :
    (restoreSnapshot manifest preserved hlc path).wp Dial.env
      (fun hlc' d' w' => (P w' → NumWithin R hlc'.ts) ∧ WithinIf R P d' w')
      (fun _ d' w' => (P w' → NumWithin R hlc.ts) ∧ WithinIf R P d' w') d w := by
  rw [restoreSnapshot, wp_bind, wp_readFile]
  rintro w₁ rfl rep w₂ hans
  refine ⟨trivial, ?_⟩
  have hgrown : Dial.Grown w w₂ := Dial.grown_of_answer
    (show w.Answer (.readFile path) rep w₂ from hans)
  have hkept : (P w₂ → NumWithin R hlc.ts) ∧ WithinIf R P d w₂ :=
    ⟨fun hw => hhlc (hP _ _ hgrown hw), fun hw => h (hP _ _ hgrown hw)⟩
  cases rep with
  | error e => cases e <;> exact hkept
  | ok content =>
    change (_ >>= _ : Eng _).wp _ _ _ _ _
    rw [wp_bind]
    unfold decodeSnapshotPayload
    split
    · rename_i meshId snapshot
      obtain rfl : w₂ = ⟨w.reading, snapshot.hlc :: w.restored⟩ := hans
      rw [wp_bind]
      refine wp_assertExpectedMeshId (fun _ => hkept) fun _ _ _ => ?_
      -- nothing is left of the stored clock
      have hcleared : ∀ d' : Device, d'.hlc = d.hlc → d'.store.metadata.hlc = none →
          d'.store.pendingBatch = none →
          WithinIf R P d' ⟨w.reading, snapshot.hlc :: w.restored⟩ := by
        intro d' hclock hsaved hpending hw
        refine ⟨hclock ▸ (hkept.2 hw).clock, fun t ht => ?_, fun p hp => ?_⟩
        · exact absurd (hsaved.symm.trans ht) (by simp)
        · exact absurd (hpending.symm.trans hp) (by simp)
      have hsaved : (replacedStore preserved snapshot).metadata.hlc = none :=
        congrArg Metadata.hlc (metadata_replacedStore preserved snapshot)
      have hpending := pendingBatch_replacedStore preserved snapshot
      rw [wp_pure, wp_bind, wp_get, wp_bind, wp_modifyStore]
      split
      · exact ⟨hkept.1, hcleared _ rfl hsaved hpending⟩
      · rw [wp_bind, wp_setMeta, wp_pure]
        refine ⟨fun hw => ?_, hcleared _ rfl hsaved hpending⟩
        split_ifs
        · exact hkept.1 hw
        · exact hS _ hw snapshot.hlc mem_cons_self
    · exact hkept
    · exact hkept

omit hR in
theorem wp_restoreWithRetry_within (h : WithinIf R P d w) (manifest : Option Manifest)
    (preserved : PreservedMeta) (path : ObjectPath) (hhlc : P w → NumWithin R hlc.ts) :
    (restoreWithRetry manifest preserved hlc path (do
        let _ ← doLoadOrCreateManifest true {}
        pure (← Proc.get).manifest)).wp Dial.env
      (fun hlc' d' w' => (P w' → NumWithin R hlc'.ts) ∧ WithinIf R P d' w')
      (fun _ => WithinIf R P) d w := by
  have hf : FlushFrame Dial.env (WithinIf R P) := flushFrame_within hP
  rw [restoreWithRetry, wp_attempt, wp_attempt]
  refine wp_mono (wp_restoreSnapshot_within hP hS h manifest preserved path hhlc)
    (fun _ _ _ hq => hq) fun failure d₁ w₁ h₁ => ?_
  cases failure with
  | stalled => exact h₁.2
  | thrown e =>
    dsimp only
    rw [wp_bind]
    refine wp_mono (Dial.wp_grown (keeps_reloadManifest hf.toLoadFrame d₁ w₁ h₁.2)) ?_
      fun failure d₂ w₂ h₂ => ?_
    · rintro refreshed d₂ w₂ ⟨h₂, hgrown⟩
      split
      · rw [wp_fail]
        exact wp_poisoned hf.session h₂ e
      · split
        · rw [wp_fail]
          exact wp_poisoned hf.session h₂ e
        · refine wp_mono (wp_restoreSnapshot_within hP hS h₂ manifest preserved _
            fun hw => h₁.1 (hP _ _ hgrown hw)) (fun _ _ _ hq => hq) fun failure d₃ w₃ h₃ => ?_
          cases failure with
          | stalled => exact h₃.2
          | thrown e => exact wp_poisoned hf.session h₃.2 e
    · cases failure with
      | stalled => exact h₂.1
      | thrown e => exact wp_poisoned hf.session h₂.1 e

/-- **A replacement keeps the clock within** if the snapshot's clock is. -/
theorem keeps_flushAndRehydrateNow_within : Keeps Dial.env (WithinIf R P) flushAndRehydrateNow := by
  have hf : FlushFrame Dial.env (WithinIf R P) := flushFrame_within hP
  refine keeps_bind (keeps_flushPendingBatch hf.promoted) fun _ => ?_
  refine keeps_bind (keeps_doFlush hf) fun _ => ?_
  intro d w h
  rw [wp_bind, wp_preservedRetentionMeta, rehydrateNow, wp_bind]
  refine wp_requireAdapter_of ?_ fun _ => h
  -- the clock to start from, and a pull that leaves it alone
  have hfinish : ∀ {hlc : Hlc} {d₁ : Device} {w₁ : Dial}, (P w₁ → NumWithin R hlc.ts) →
      WithinIf R P d₁ w₁ →
      (do pullNow
          Proc.modify fun d => { d with hlc := hlc }
          acknowledgeManifest : Eng Unit).wp Dial.env (fun _ => WithinIf R P)
        (fun _ => WithinIf R P) d₁ w₁ := by
    intro hlc d₁ w₁ hhlc h₁
    rw [wp_bind]
    refine wp_mono (Dial.wp_grown (keeps_pullNow_within hP hR d₁ w₁ h₁)) ?_ fun _ _ _ hx => hx.1
    rintro _ d₂ w₂ ⟨h₂, hgrown⟩
    rw [wp_bind, wp_modify]
    refine keeps_acknowledgeManifest hf.toQuiet hf.deviceRecords _ _ fun hw => ?_
    exact ⟨hhlc (hP _ _ hgrown hw), (h₂ hw).saved, (h₂ hw).pending⟩
  rw [wp_bind, rehydrate, wp_bind, wp_get]
  split
  · have hpull := hfinish (fun hw => (h hw).clock) h
    rw [wp_bind] at hpull ⊢
    exact wp_mono hpull (fun _ _ _ hx => hx) fun _ _ _ hx => hx
  · rw [wp_bind]
    refine wp_mono (wp_restoreWithRetry_within hP hS h _ _ _ fun hw => (h hw).clock) ?_
      fun _ _ _ hx => hx
    rintro hlc d₁ w₁ ⟨hhlc, h₁⟩
    have hpull := hfinish hhlc h₁
    rw [wp_bind] at hpull ⊢
    exact wp_mono hpull (fun _ _ _ hx => hx) fun _ _ _ hx => hx

end Frames

/-! ## Local writes -/

variable {columns : List (Text × JsValue)}

/-- A column after a put: written under the stamp, or left alone. -/
theorem get_putColumns {payload : Record Text ColumnEntry} {stamp col : Text} {entry : ColumnEntry}
    (h : (putColumns payload columns stamp).get col = some entry) :
    entry.hlc = stamp ∨
      payload.get col = some entry ∧ col ∉ (storedColumns columns).map Prod.fst := by
  rw [get_putColumns_eq] at h
  cases hw : written col (storedColumns columns) with
  | some v =>
    rw [hw] at h
    exact .inl (congrArg ColumnEntry.hlc (some.inj h)).symm
  | none =>
    rw [hw] at h
    exact .inr ⟨h, written_eq_none_iff.mp hw⟩

/-- The columns that a put leaves alone have stamps within. -/
def LeavesWithin (R : ℕ) (d : Device) (table rowId : Text) (columns : List (Text × JsValue)) :
    Prop :=
  ∀ row, d.store.getRow table rowId = some row → row._meta.deleted = false →
    ∀ col entry, row.payload.get col = some entry → col ∉ (storedColumns columns).map Prod.fst →
      TextWithin R entry.hlc

variable {d : Device}

theorem stamps_putRowOf_within {table rowId stamp : Text} (h : LeavesWithin R d table rowId columns)
    (hstamp : TextWithin R stamp) :
    ∀ t ∈ (putRowOf d table rowId columns stamp).stamps, TextWithin R t := by
  intro t ht
  rcases mem_stamps_row.mp ht with hdel | ⟨col, entry, hget, rfl, -⟩
  · exact absurd hdel (by simp [putRowOf])
  · rcases get_putColumns hget with rfl | ⟨hold, hcol⟩
    · exact hstamp
    · cases hrow : d.store.getRow table rowId with
      | none =>
        rw [hrow] at hold
        exact absurd hold (by simp [rowForPut])
      | some row =>
        rw [hrow] at hold
        simp only [rowForPut] at hold
        split_ifs at hold with hdel
        · exact absurd hold (by simp)
        · exact h row hrow (by simpa using hdel) col entry hold hcol

variable {w : Dial}

theorem wp_storeMutation_within {r : Row} (h : Dial.UpTo R w → Within R d)
    (hrow : Dial.UpTo R w → ∀ t ∈ r.stamps, TextWithin R t) :
    (storeMutation r).wp Dial.env (fun _ d' w' => Dial.UpTo R w' → Within R d')
      (fun _ d' w' => Dial.UpTo R w' → Within R d') d w := by
  rw [storeMutation]
  split
  · rename_i op hlc hop htruthy
    obtain ⟨hhlc, hne⟩ : getRowHlc r = hlc ∧ hlc ≠ [] := by
      simpa [truthy] using htruthy
    rw [commitLocalMutation, wp_bind, wp_generateId]
    rintro w₁ rfl uuid w₂ hans
    obtain rfl : w₂ = w := hans
    refine ⟨trivial, ?_⟩
    rw [wp_bind, wp_now]
    rintro w₃ rfl ts w₄ rfl
    refine ⟨trivial, ?_⟩
    rw [wp_bind, wp_modify, wp_bind, wp_get, Proc.wp_when]
    have hcommit : Dial.UpTo R ⟨max w₂.reading ts, w₂.restored⟩ →
        Within R { d with
          store := d.store.commitLocalMutation r
            ⟨changeKind ++ underscore :: uuid, ts, d.config.deviceId, hlc, [op]⟩
          pendingBatch := true } := by
      intro hw
      have hbefore : Dial.UpTo R w₂ := (le_max_left _ _).trans hw
      have hbatch : TextWithin R (LocalStore.joinBatch d.store.pendingBatch
          ⟨changeKind ++ underscore :: uuid, ts, d.config.deviceId, hlc, [op]⟩).hlc := by
        have hchange : TextWithin R hlc := by
          rcases getRowHlc_eq r with hnil | hmem
          · exact absurd (hhlc.symm.trans hnil) hne
          · exact hrow hbefore hlc (hhlc ▸ hmem)
        cases hp : d.store.pendingBatch with
        | none => exact hchange
        | some p =>
          simp only [LocalStore.joinBatch]
          split_ifs
          · exact hchange
          · exact (h hbefore).pending p hp
      refine ⟨(h hbefore).clock, fun t ht => ?_, fun p hp => ?_⟩
      · rw [← some.inj ht]
        exact hbatch
      · rw [← some.inj hp]
        exact hbatch
    refine ⟨fun _ hw => ?_, fun _ => hcommit⟩
    exact (flushFrame_within (Dial.lasting_upTo R)).promoted _ _ hcommit hw
  · rw [wp_modifyStore]
    exact fun hw => ⟨(h hw).clock, (h hw).saved, (h hw).pending⟩

/-- The engine's clock after `refreshHlcFromLocal`: its own or the stored one. -/
theorem wp_refreshHlcFromLocal_within (h : Dial.UpTo R w → Within R d)
    {Q : Unit → Device → Dial → Prop} {X : Failure → Device → Dial → Prop}
    (hQ : ∀ hlc : Hlc, (Dial.UpTo R w → NumWithin R hlc.ts) → Q () { d with hlc := hlc } w) :
    refreshHlcFromLocal.wp Dial.env Q X d w := by
  rw [refreshHlcFromLocal, wp_modify]
  cases hsaved : d.store.metadata.hlc with
  | none => exact hQ d.hlc fun hw => (h hw).clock
  | some saved =>
    dsimp only
    split_ifs
    · exact hQ d.hlc fun hw => (h hw).clock
    · exact hQ _ fun hw => (h hw).saved saved hsaved

/-- A row whose stamps are within as soon as the new stamp is, stored under it. -/
theorem wp_stamped_within (h : Dial.UpTo R w → Within R d) {hlc : Hlc}
    (hhlc : Dial.UpTo R w → NumWithin R hlc.ts) (wall : ℕ) {row : Row}
    (hrow : TextWithin R (hlcSerialize (hlcNow wall hlc)) → ∀ t ∈ row.stamps, TextWithin R t) :
    (storeMutation row).wp Dial.env
      (fun _ d' w' => Dial.UpTo R w' → Within R d' ∧ TextWithin R (hlcSerialize (hlcNow wall hlc)))
      (fun _ d' w' => Dial.UpTo R w' → Within R d') { d with hlc := hlcNow wall hlc }
      ⟨max w.reading wall, w.restored⟩ := by
  have hbefore : Dial.UpTo R ⟨max w.reading wall, w.restored⟩ → Dial.UpTo R w := fun hw =>
    (le_max_left _ _).trans hw
  have htick : Dial.UpTo R ⟨max w.reading wall, w.restored⟩ →
      NumWithin R (hlcNow wall hlc).ts := fun hw =>
    (hhlc (hbefore hw)).hlcNow ((le_max_right _ _).trans hw)
  have hstore := wp_storeMutation_within (R := R) (d := { d with hlc := hlcNow wall hlc })
    (w := ⟨max w.reading wall, w.restored⟩) (r := row)
    (fun hw => ⟨htick hw, (h (hbefore hw)).saved, (h (hbefore hw)).pending⟩)
    fun hw => hrow (textWithin_hlcSerialize (htick hw))
  refine wp_mono (Dial.wp_grown hstore) ?_ fun _ _ _ hx => hx.1
  rintro _ d' w' ⟨hd', hgrown⟩ hw
  exact ⟨hd' hw, textWithin_hlcSerialize (htick (hgrown.reading.trans hw))⟩

/-- **A put keeps the clock within**, and its stamp, if the columns it leaves alone are. -/
theorem wp_putNow_within (h : Dial.UpTo R w → Within R d) {table rowId : Text}
    (hleave : LeavesWithin R d table rowId columns) :
    (putNow table rowId columns).wp Dial.env
      (fun stamp d' w' => Dial.UpTo R w' → Within R d' ∧ TextWithin R stamp)
      (fun _ d' w' => Dial.UpTo R w' → Within R d') d w := by
  rw [putNow, wp_bind]
  refine wp_refreshHlcFromLocal_within h fun hlc hhlc => ?_
  rw [wp_bind, wp_now]
  rintro w₁ rfl wall w₂ rfl
  refine ⟨trivial, ?_⟩
  rw [wp_bind, wp_modify, wp_bind, wp_get, wp_bind]
  exact wp_stamped_within h hhlc wall (stamps_putRowOf_within hleave)

theorem wp_deleteNow_within (h : Dial.UpTo R w → Within R d) (table rowId : Text) :
    (deleteNow table rowId).wp Dial.env
      (fun stamp d' w' => Dial.UpTo R w' → Within R d' ∧ ∀ t ∈ stamp, TextWithin R t)
      (fun _ d' w' => Dial.UpTo R w' → Within R d') d w := by
  rw [deleteNow, wp_bind]
  refine wp_refreshHlcFromLocal_within h fun hlc hhlc => ?_
  have hstay : ∀ w' : Dial, (Dial.UpTo R w' → Dial.UpTo R w) → Dial.UpTo R w' →
      Within R { d with hlc := hlc } ∧ ∀ t ∈ (none : Option Text), TextWithin R t := fun w' hsub hw =>
    ⟨⟨hhlc (hsub hw), (h (hsub hw)).saved, (h (hsub hw)).pending⟩, fun t ht => absurd ht (by simp)⟩
  rw [wp_bind, wp_get]
  split
  · exact hstay w id
  · split
    · exact hstay w id
    · rename_i current _ _
      rw [wp_bind, wp_now]
      rintro w₁ rfl wall w₂ rfl
      refine ⟨trivial, ?_⟩
      rw [wp_bind, wp_modify, wp_bind, wp_get, wp_bind]
      refine wp_mono (wp_stamped_within h hhlc wall fun hstamp t ht => ?_) ?_ fun _ _ _ hx => hx
      · rw [stamps_tombstoneOf, mem_singleton] at ht
        rw [ht]
        exact hstamp
      · intro _ d' w' hd' hw
        exact ⟨(hd' hw).1, fun t ht => some.inj ht ▸ (hd' hw).2⟩

/-! ## Runs -/

/-- An engine, the readings of its wall clock, and the stamps it has issued. -/
structure Timeline where
  device : Device
  dial : Dial
  issued : List Text

namespace Timeline

/-- A new engine over an empty store. -/
def opened (config : Config) (wall : ℕ) : Timeline :=
  ⟨openEngine config wall .empty, ⟨wall, []⟩, []⟩

/-- A call: how it ended and the state afterwards.  The snapshots are noted call by call. -/
def Calls {α : Type} (s : Timeline) (m : Eng α) (r : Except Failure α) (d : Device) (w : Dial) :
    Prop :=
  Prog.Run Dial.env (m s.device) ⟨s.dial.reading, []⟩ r d w

/-- One call, normally ended or not. -/
inductive Step : Timeline → Session.Event → Timeline → Prop
  | put {s : Timeline} {d : Device} {w : Dial} {table rowId : Text}
      {columns : List (Text × JsValue)} {r : Except Failure Text}
      (h : s.Calls (putNow table rowId columns) r d w) :
      Step s (.put table rowId columns) ⟨d, w, s.issued ++ r.toOption.toList⟩
  | delete {s : Timeline} {d : Device} {w : Dial} {table rowId : Text}
      {r : Except Failure (Option Text)} (h : s.Calls (deleteNow table rowId) r d w) :
      Step s (.delete table rowId) ⟨d, w, s.issued ++ r.toOption.join.toList⟩
  | pull {s : Timeline} {d : Device} {w : Dial} {r : Except Failure Unit}
      (h : s.Calls pullNow r d w) : Step s .pull ⟨d, w, s.issued⟩
  | rehydrate {s : Timeline} {d : Device} {w : Dial} {r : Except Failure Unit}
      (h : s.Calls flushAndRehydrateNow r d w) : Step s .rehydrate ⟨d, w, s.issued⟩
  | restart {s : Timeline} {wall : ℕ} :
      Step s (.restart wall) ⟨openEngine s.device.config wall s.device.store,
        ⟨max s.dial.reading wall, []⟩, s.issued⟩

/-- The runs of which every step is as `ok` demands. -/
inductive Reached (ok : Timeline → Session.Event → Timeline → Prop) : Timeline → Prop
  | opened (config : Config) (wall : ℕ) : Reached ok (opened config wall)
  | step {s s' : Timeline} {e : Session.Event} (h : Reached ok s) (hs : Step s e s')
      (hok : ok s e s') : Reached ok s'

/-- What a step has to look like: a put leaves no column alone that is too far ahead, and a
replacement is handed no snapshot with such a clock. -/
def Unhurried (s : Timeline) : Session.Event → Timeline → Prop
  | .put table rowId columns, s' => LeavesWithin s'.dial.reading s.device table rowId columns
  | .rehydrate, s' => ∀ t ∈ s'.dial.restored, TextWithin s'.dial.reading t
  | _, _ => True

/-- The clock, the stored clock and the issued stamps are at most five minutes beyond the largest
reading. -/
structure InTime (s : Timeline) : Prop where
  clock : NumWithin s.dial.reading s.device.hlc.ts
  saved : ∀ t, s.device.store.metadata.hlc = some t → TextWithin s.dial.reading t
  issued : ∀ t ∈ s.issued, TextWithin s.dial.reading t

/-- The invariant: `InTime`, with the stamp of the pending batch. -/
def Kept (s : Timeline) : Prop :=
  Within s.dial.reading s.device ∧ ∀ t ∈ s.issued, TextWithin s.dial.reading t

theorem within_mono {R' : ℕ} (h : Within R d) (hle : R ≤ R') : Within R' d :=
  ⟨h.clock.mono hle, fun t ht => NumWithin.mono (h.saved t ht) hle, fun p hp =>
    NumWithin.mono (h.pending p hp) hle⟩

section Steps

variable {s : Timeline} {d : Device} {w : Dial}

theorem Kept.start (h : Kept s) (R : ℕ) :
    Dial.UpTo R ⟨s.dial.reading, []⟩ → Within R s.device := within_mono h.1

theorem Kept.issued (h : Kept s) (hgrown : s.dial.reading ≤ w.reading) :
    ∀ t ∈ s.issued, TextWithin w.reading t := fun t ht => NumWithin.mono (h.2 t ht) hgrown

theorem reading_le {α : Type} {m : Eng α} {r : Except Failure α} (h : s.Calls m r d w) :
    s.dial.reading ≤ w.reading := by
  have hgrown := Dial.wp_grown (Proc.wp_trivial (E := Dial.env) (fun _ _ => trivial) m
    (s := s.device) (w := ⟨s.dial.reading, []⟩))
  exact (wp_run_ends (P := fun _ w' => Dial.Grown ⟨s.dial.reading, []⟩ w')
    (wp_mono hgrown (fun _ _ _ hx => hx.2) fun _ _ _ hx => hx.2) h).reading

theorem kept_put {table rowId : Text} {r : Except Failure Text} (h : Kept s)
    (hcall : s.Calls (putNow table rowId columns) r d w)
    (hleave : LeavesWithin w.reading s.device table rowId columns) :
    Kept ⟨d, w, s.issued ++ r.toOption.toList⟩ := by
  have hput := wp_putNow_within (h.start w.reading) hleave
  have hissued := h.issued (reading_le hcall)
  cases r with
  | error e =>
    refine ⟨Proc.wp_run_error hput hcall (le_refl _), fun t ht => hissued t ?_⟩
    rcases mem_append.mp ht with hold | hnew
    · exact hold
    · exact absurd hnew not_mem_nil
  | ok stamp =>
    obtain ⟨hwithin, hstamp⟩ := Proc.wp_run_ok hput hcall (le_refl _)
    refine ⟨hwithin, fun t ht => ?_⟩
    rcases mem_append.mp ht with hold | hnew
    · exact hissued t hold
    · obtain rfl : t = stamp := mem_singleton.mp hnew
      exact hstamp

theorem kept_delete {table rowId : Text} {r : Except Failure (Option Text)} (h : Kept s)
    (hcall : s.Calls (deleteNow table rowId) r d w) :
    Kept ⟨d, w, s.issued ++ r.toOption.join.toList⟩ := by
  have hdelete := wp_deleteNow_within (h.start w.reading) table rowId
  have hissued := h.issued (reading_le hcall)
  cases r with
  | error e =>
    refine ⟨Proc.wp_run_error hdelete hcall (le_refl _), fun t ht => hissued t ?_⟩
    rcases mem_append.mp ht with hold | hnew
    · exact hold
    · exact absurd hnew not_mem_nil
  | ok stamp =>
    obtain ⟨hwithin, hstamp⟩ := Proc.wp_run_ok hdelete hcall (le_refl _)
    refine ⟨hwithin, fun t ht => ?_⟩
    rcases mem_append.mp ht with hold | hnew
    · exact hissued t hold
    · exact hstamp t (Option.mem_toList.mp hnew)

theorem kept_pull {r : Except Failure Unit} (h : Kept s) (hcall : s.Calls pullNow r d w) :
    Kept ⟨d, w, s.issued⟩ := by
  have hpull := keeps_pullNow_within (Dial.lasting_upTo w.reading) (fun _ hw => hw) _ _
    (h.start w.reading)
  exact ⟨wp_run_ends hpull hcall (le_refl _), h.issued (reading_le hcall)⟩

theorem kept_rehydrate {r : Except Failure Unit} (h : Kept s)
    (hcall : s.Calls flushAndRehydrateNow r d w)
    (hrestored : ∀ t ∈ w.restored, TextWithin w.reading t) : Kept ⟨d, w, s.issued⟩ := by
  have hlasting : Dial.Lasting fun w' => Dial.UpTo w.reading w' ∧
      ∀ t ∈ w'.restored, TextWithin w.reading t := fun w₁ w₂ hg hw =>
    ⟨hg.reading.trans hw.1, fun t ht => hw.2 t (hg.restored ht)⟩
  have hstart : WithinIf w.reading (fun w' => Dial.UpTo w.reading w' ∧
      ∀ t ∈ w'.restored, TextWithin w.reading t) s.device ⟨s.dial.reading, []⟩ := fun hw =>
    h.start w.reading hw.1
  have hre := keeps_flushAndRehydrateNow_within hlasting (fun _ hw => hw.1) (fun _ hw => hw.2) _ _
    hstart
  exact ⟨wp_run_ends hre hcall ⟨le_refl _, hrestored⟩, h.issued (reading_le hcall)⟩

theorem kept_restart (h : Kept s) (wall : ℕ) :
    Kept ⟨openEngine s.device.config wall s.device.store, ⟨max s.dial.reading wall, []⟩,
      s.issued⟩ := by
  have hle : s.dial.reading ≤ max s.dial.reading wall := le_max_left _ _
  have hwithin := within_mono h.1 hle
  refine ⟨⟨?_, hwithin.saved, hwithin.pending⟩, h.issued (w := ⟨_, []⟩) hle⟩
  show NumWithin _ (openEngine s.device.config wall s.device.store).hlc.ts
  simp only [openEngine]
  split
  · rename_i saved htruthy
    exact hwithin.saved saved (truthy_eq_some htruthy).1
  · intro t ht
    obtain rfl : wall = t := some.inj ht
    exact (le_max_right _ _).trans (Nat.le_add_right _ _)

end Steps

theorem kept_opened (config : Config) (wall : ℕ) : Kept (opened config wall) := by
  refine ⟨⟨fun t ht => ?_, fun t ht => ?_, fun p hp => ?_⟩, fun t ht => absurd ht not_mem_nil⟩
  · obtain rfl : wall = t := some.inj ht
    exact Nat.le_add_right _ _
  · exact absurd (show none = some t from ht) (by simp)
  · exact absurd (show none = some p from hp) (by simp)

theorem kept_step {s s' : Timeline} {e : Session.Event} (h : Kept s) (hs : Step s e s')
    (hok : Unhurried s e s') : Kept s' := by
  cases hs with
  | put hcall => exact kept_put h hcall hok
  | delete hcall => exact kept_delete h hcall
  | pull hcall => exact kept_pull h hcall
  | rehydrate hcall => exact kept_rehydrate h hcall hok
  | restart => exact kept_restart h _

/-- **A fast peer does not drag the clock** in any run whose puts leave no column alone that is
too far ahead and whose replacements are handed no snapshot with such a clock. -/
theorem clock_within_skew {s : Timeline} (h : Reached Unhurried s) : InTime s := by
  have hkept : Kept s := by
    induction h with
    | opened config wall => exact kept_opened config wall
    | step _ hs hok ih => exact kept_step ih hs hok
  exact ⟨hkept.1.clock, hkept.1.saved, hkept.2⟩

/-! ## A put beside a column of a fast clock -/

end Timeline

/-- A remote that holds one change, with clock readings `wall`. -/
def Dial.oneChange (entry : ChangeEntry) (wall : ℕ) (w : Dial) : (c : Call) → Reply c × Dial
  | .now => (wall, ⟨max w.reading wall, w.restored⟩)
  | .uuid => ([], w)
  | .isAuthenticated => (true, w)
  | .authenticate => (.ok (), w)
  | .readFile path =>
    if path = .change (changeFileName entry) then (.ok (.change bootstrappedMesh entry), w)
    else (.error (.failed .missing), w)
  | .writeFile _ _ => (.ok (), w)
  | .deleteFile _ => (.ok (), w)
  | .listChanges => (.ok [changeFileName entry], w)
  | .listMainline => (.ok [], w)
  | .ensureFolder _ => (.ok (), w)

theorem Dial.answer_oneChange (entry : ChangeEntry) (wall : ℕ) (w : Dial) (c : Call) :
    w.Answer c (oneChange entry wall w c).1 (oneChange entry wall w c).2 := by
  cases c with
  | readFile path =>
    by_cases hpath : path = .change (changeFileName entry)
    · simp only [oneChange, if_pos hpath]
      exact rfl
    · simp only [oneChange, if_neg hpath]
      exact rfl
  | _ => exact rfl

namespace Timeline

/-- A call against that remote. -/
def exec {α : Type} (s : Timeline) (entry : ChangeEntry) (m : Eng α) :
    Except Failure α × Device × Dial :=
  (m s.device).exec (Dial.oneChange entry 1000) ⟨s.dial.reading, []⟩

theorem calls_exec {α : Type} (s : Timeline) (entry : ChangeEntry) (m : Eng α) :
    s.Calls m (s.exec entry m).1 (s.exec entry m).2.1 (s.exec entry m).2.2 :=
  Prog.run_exec (fun _ => rfl) (Dial.answer_oneChange entry 1000) (m s.device) _

/-- An engine of `"a"` that has pulled a change of column `"x"` stamped `st`, its wall clock at one
second. -/
def pulled (st : Stamp Text) : Timeline :=
  let out := (opened configOfA 1000).exec (changeAt st) pullNow
  ⟨out.2.1, out.2.2, []⟩

/-- The same engine, after a put of column `"y"` of that row. -/
def putBeside (st : Stamp Text) : Timeline :=
  let out := (pulled st).exec (changeAt st) (putNow [116] [49] [([121], .null)])
  ⟨out.2.1, out.2.2, (pulled st).issued ++ out.1.toOption.toList⟩

theorem reached_pulled (ok : Timeline → Session.Event → Timeline → Prop) (st : Stamp Text)
    (hok : ok (opened configOfA 1000) .pull (pulled st)) : Reached ok (pulled st) :=
  (Reached.opened configOfA 1000).step (.pull (calls_exec _ _ _)) hok

theorem step_putBeside (st : Stamp Text) :
    Step (pulled st) (.put [116] [49] [([121], .null)]) (putBeside st) :=
  .put (calls_exec (pulled st) (changeAt st) (putNow [116] [49] [([121], .null)]))

/-- Beside a column that is not ahead. -/
theorem put_beside_in_time : Reached Unhurried (putBeside earlierStamp) ∧
    InTime (putBeside earlierStamp) := by
  have hreached : Reached Unhurried (putBeside earlierStamp) := by
    refine (reached_pulled Unhurried earlierStamp trivial).step (step_putBeside _) ?_
    intro row hrow _ col entry hget _
    obtain rfl : rowAtStamp earlierStamp = row := some.inj hrow
    have hmem := Record.mem_entries_iff.mpr hget
    obtain rfl : entry = ⟨.null, stampText earlierStamp⟩ :=
      congrArg Prod.snd (mem_singleton.mp hmem)
    intro t ht
    rw [hlcParse_stampText] at ht
    obtain rfl : 500 = t := some.inj ht
    exact (by decide : 500 ≤ hlcMaxFutureSkewMs).trans (Nat.le_add_left _ _)
  exact ⟨hreached, clock_within_skew hreached⟩

/-- **A put beside a column of a fast clock** stores that clock: 1000 seconds, while the wall clock
has never been past one. -/
theorem put_beside_a_fast_clock : ∃ s, Reached (fun _ _ _ => True) s ∧ ¬ InTime s := by
  refine ⟨putBeside aheadStamp, (reached_pulled _ aheadStamp trivial).step (step_putBeside _)
    trivial, fun h => ?_⟩
  have hsaved : (putBeside aheadStamp).device.store.metadata.hlc = some (stampText aheadStamp) :=
    rfl
  have hts : (hlcParse (stampText aheadStamp)).ts = some 1000000 := by
    rw [hlcParse_stampText]
    rfl
  have hle := h.saved _ hsaved _ hts
  exact absurd hle (by decide)

end Timeline

end Interocitor
