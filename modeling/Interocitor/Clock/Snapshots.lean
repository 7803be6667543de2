import Interocitor.Clock.Outranks
import Interocitor.Core.Lifecycle

/-!
# The clock of a published snapshot

`compact` hands its clock to `doCompact` in the context, before the pull.  The pull then merges
changes and moves the engine's clock, but the clock in the context stays where it was, and it is
that clock which the snapshot and the manifest carry.  A device that rehydrates starts from the
snapshot's clock, so it can stand behind rows that it has just received.

The world of this file is what the engine has written, latest first; the remote answers anything,
and `arrives` is the set of stamps that occur in the changes it hands out.

* `compact_dominates`: if none of these is ahead of the clock, save those too far ahead to count,
  the snapshot's clock dominates its content.
* `compact_behind_its_content`: without that it need not.
-/

namespace Interocitor

open CodeUnits OrderedRecord Interaction HybridClock Eng List
open Proc (wp_bind keeps_bind Keeps keeps_pure wp_get AskKeeps)

/-! ## The world -/

namespace Publication

/-- A change that is handed out has stamps in `arrives`. -/
def ReadAnswer (arrives : Text → Prop) : Except NoAnswer Content → Prop
  | .ok (.change _ entry) => ∀ t ∈ entry.stamps, arrives t
  | _ => True

/-- The remote answers as it likes.  A write that fails may have happened or not. -/
def Answer (arrives : Text → Prop) (w : List Content) :
    (c : Call) → Reply c → List Content → Prop
  | .readFile _, rep, w' => w' = w ∧ ReadAnswer arrives rep
  | .writeFile _ content, rep, w' => w' = content :: w ∨ (w' = w ∧ rep ≠ .ok ())
  | _, _, w' => w' = w

/-- The remote of an engine that hands out changes with stamps in `arrives`. -/
def env (arrives : Text → Prop) : Env Call Reply (List Content) :=
  ⟨Eq, Answer arrives, fun _ _ => True⟩

end Publication

/-- Neither a snapshot nor a manifest that names one. -/
def Content.Unpublished : Content → Prop
  | .snapshot _ _ => False
  | .manifest m => m.snapshotPath = none
  | _ => True

/-- Every snapshot in the list carries the clock `clock` and has stamps in `source`, and every
manifest that names a snapshot carries the same clock. -/
structure CarriesClock (source : Text → Prop) (clock : Text) (w : List Content) : Prop where
  snapshot : ∀ meshId s, Content.snapshot meshId s ∈ w → s.hlc = clock ∧ ∀ t ∈ s.stamps, source t
  manifest : ∀ m : Manifest, Content.manifest m ∈ w → m.snapshotPath ≠ none → m.watermarkHlc = clock

variable {source arrives : Text → Prop} {clock : Text} {w : List Content}

theorem carriesClock_nil : CarriesClock source clock [] :=
  ⟨fun _ _ h => absurd h not_mem_nil, fun _ h => absurd h not_mem_nil⟩

theorem CarriesClock.unpublished (h : CarriesClock source clock w) {content : Content}
    (hc : content.Unpublished) : CarriesClock source clock (content :: w) := by
  refine ⟨fun meshId s hs => ?_, fun m hm hpath => ?_⟩
  · rcases mem_cons.mp hs with rfl | hs
    · exact absurd hc id
    · exact h.snapshot meshId s hs
  · rcases mem_cons.mp hm with rfl | hm
    · exact absurd hc hpath
    · exact h.manifest m hm hpath

theorem CarriesClock.newSnapshot (h : CarriesClock source clock w) {meshId : Text} {s : Snapshot}
    (hclock : s.hlc = clock) (hstamps : ∀ t ∈ s.stamps, source t) :
    CarriesClock source clock (.snapshot meshId s :: w) := by
  refine ⟨fun meshId' s' hs => ?_, fun m hm hpath => ?_⟩
  · rcases mem_cons.mp hs with heq | hs
    · obtain ⟨-, rfl⟩ := Content.snapshot.inj heq
      exact ⟨hclock, hstamps⟩
    · exact h.snapshot meshId' s' hs
  · rcases mem_cons.mp hm with heq | hm
    · exact Content.noConfusion heq
    · exact h.manifest m hm hpath

theorem CarriesClock.nextManifest (h : CarriesClock source clock w) {m : Manifest}
    (hclock : m.watermarkHlc = clock) : CarriesClock source clock (.manifest m :: w) := by
  refine ⟨fun meshId s hs => ?_, fun m' hm hpath => ?_⟩
  · rcases mem_cons.mp hs with heq | hs
    · exact Content.noConfusion heq
    · exact h.snapshot meshId s hs
  · rcases mem_cons.mp hm with heq | hm
    · obtain rfl := Content.manifest.inj heq
      exact hclock
    · exact h.manifest m' hm hpath

/-! ## What the methods before the capture keep -/

/-- What a pull keeps: the rows have stamps in `source`, and so has everything published. -/
structure Sourced (source : Text → Prop) (clock : Text) (d : Device) (w : List Content) : Prop where
  keeping : StampKeeping d.config.schema
  rows : ∀ t, d.store.HasStamp t → source t
  published : CarriesClock source clock w

section Frames

variable {I : Device → List Content → Prop}

theorem askKeeps_unwritten {c : Call}
    (h : ∀ w rep w', Publication.Answer arrives w c rep w' → w' = w) :
    AskKeeps (Publication.env arrives) I c := by
  rintro d w w₁ rep w₂ hI rfl hans
  obtain rfl := h w rep w₂ hans
  exact ⟨trivial, hI⟩

theorem askKeeps_written {path : ObjectPath} {content : Content}
    (h : ∀ d w, I d w → I d (content :: w)) :
    AskKeeps (Publication.env arrives) I (.writeFile path content) := by
  rintro d w w₁ rep w₂ hI rfl hans
  refine ⟨trivial, ?_⟩
  rcases hans with rfl | ⟨rfl, -⟩
  · exact h d w hI
  · exact hI

theorem quiet_publication : Quiet (Publication.env arrives) I where
  now := askKeeps_unwritten fun _ _ _ h => h
  uuid := askKeeps_unwritten fun _ _ _ h => h
  isAuthenticated := askKeeps_unwritten fun _ _ _ h => h
  authenticate := askKeeps_unwritten fun _ _ _ h => h
  readFile _ := askKeeps_unwritten fun _ _ _ h => h.1
  listChanges := askKeeps_unwritten fun _ _ _ h => h
  listMainline := askKeeps_unwritten fun _ _ _ h => h
  ensureFolder _ := askKeeps_unwritten fun _ _ _ h => h

/-- Writing what is neither a snapshot nor names one keeps `I`. -/
def TakesUnpublished (I : Device → List Content → Prop) : Prop :=
  ∀ d w content, Content.Unpublished content → I d w → I d (content :: w)

theorem bootstrapFrame_publication (h : TakesUnpublished I) :
    BootstrapFrame (Publication.env arrives) I where
  toQuiet := quiet_publication
  firstManifest _ hm := askKeeps_written fun d w => h d w _ hm
  firstPointer := askKeeps_written fun d w => h d w _ trivial

theorem deviceRecords_publication (h : TakesUnpublished I) :
    DeviceRecords (Publication.env arrives) I :=
  fun _ _ => askKeeps_written fun d w => h d w _ trivial

end Frames

theorem takesUnpublished_sourced : TakesUnpublished (Sourced source clock) :=
  fun _ _ _ hc h => ⟨h.keeping, h.rows, h.published.unpublished hc⟩

theorem pullFrame_sourced (harrives : ∀ t, arrives t → source t) :
    PullFrame (Publication.env arrives) (Sourced source clock) where
  toQuiet := quiet_publication
  bootstrap := .inr (bootstrapFrame_publication takesUnpublished_sourced)
  session _ _ _ _ _ _ _ h := ⟨h.keeping, h.rows, h.published⟩
  meshId _ _ _ _ h := ⟨h.keeping, h.rows, h.published⟩
  manifest _ _ _ _ h := ⟨h.keeping, h.rows, h.published⟩
  manifestCache _ _ _ h := ⟨h.keeping, h.rows, h.published⟩
  merged d w entry v store hread hmerge h := by
    obtain ⟨_, _, meshId, _, -, hstamps⟩ := hread
    refine ⟨h.keeping, fun t ht => ?_, h.published⟩
    rcases mem_stamps_mergeEntry h.keeping hmerge ht with hold | hnew
    · exact h.rows t hold
    · exact harrives t (hstamps t hnew)
  progress _ _ _ _ h := ⟨h.keeping, h.rows, h.published⟩
  clock _ _ _ h := ⟨h.keeping, h.rows, h.published⟩
  syncTimes _ _ _ h := ⟨h.keeping, h.rows, h.published⟩
  deviceRecords := deviceRecords_publication takesUnpublished_sourced

/-- A flush keeps the engine's clock as well. -/
def SourcedAt (source : Text → Prop) (clock : Text) (hlc : Hlc) (d : Device) (w : List Content) :
    Prop := Sourced source clock d w ∧ d.hlc = hlc

variable {hlc : Hlc}

theorem SourcedAt.same {d d' : Device} (h : SourcedAt source clock hlc d w)
    (hconfig : d'.config = d.config) (hrows : d'.store.rows = d.store.rows)
    (hclock : d'.hlc = d.hlc) : SourcedAt source clock hlc d' w := by
  refine ⟨⟨hconfig ▸ h.1.keeping, ?_, h.1.published⟩, hclock.trans h.2⟩
  rintro t ⟨key, row, hget, ht⟩
  exact h.1.rows t ⟨key, row, hrows ▸ hget, ht⟩

theorem takesUnpublished_sourcedAt : TakesUnpublished (SourcedAt source clock hlc) :=
  fun d w content hc h => ⟨takesUnpublished_sourced d w content hc h.1, h.2⟩

theorem flushFrame_sourcedAt :
    FlushFrame (Publication.env arrives) (SourcedAt source clock hlc) where
  toQuiet := quiet_publication
  bootstrap := .inr (bootstrapFrame_publication takesUnpublished_sourcedAt)
  session _ _ _ _ _ _ _ h := h.same rfl rfl rfl
  meshId _ _ _ _ h := h.same rfl rfl rfl
  manifest _ _ _ _ h := h.same rfl rfl rfl
  manifestCache _ _ _ h := h.same rfl rfl rfl
  promoted d _ h := by
    have hflushed := flushed_promoted d
    exact h.same hflushed.config hflushed.rows hflushed.clock
  quarantine _ _ _ _ _ h := h.same rfl rfl rfl
  observation _ _ _ _ _ h := h.same rfl rfl rfl
  changeFile _ _ _ _ _ _ := askKeeps_written fun d w => takesUnpublished_sourcedAt d w _ trivial
  head _ := askKeeps_written fun d w => takesUnpublished_sourcedAt d w _ trivial
  acknowledge _ _ _ h := h.same rfl rfl rfl
  syncTimes _ _ _ h := h.same rfl rfl rfl
  deviceRecords := deviceRecords_publication takesUnpublished_sourcedAt

theorem rehydrateFrame_published (preserved : PreservedMeta) :
    RehydrateFrame (Publication.env arrives) (fun _ w => CarriesClock source clock w) preserved where
  toQuiet := quiet_publication
  bootstrap := .inr (bootstrapFrame_publication fun _ _ _ hc h => h.unpublished hc)
  session _ _ _ _ _ _ _ h := h
  meshId _ _ _ _ h := h
  manifest _ _ _ _ h := h
  manifestCache _ _ _ h := h
  merged _ _ _ _ _ _ _ h := h
  progress _ _ _ _ h := h
  clock _ _ _ h := h
  syncTimes _ _ _ h := h
  deviceRecords := deviceRecords_publication fun _ _ _ hc h => h.unpublished hc
  replaced _ _ _ h := h
  restored _ _ _ _ h := h

/-! ## The capture -/

/-- The rows of some tables come from a list. -/
def TablesFrom (rows : List Row) (tables : Tables) : Prop :=
  ∀ t ∈ tables.values, ∀ row ∈ t.values, row ∈ rows

theorem tablesFrom_snapshotTables (rows : List Row) : TablesFrom rows (snapshotTables rows) := by
  -- the fold is over a part of the rows, the tables may hold any of them
  suffices ∀ (part : List Row) (tables : Tables), part ⊆ rows → TablesFrom rows tables →
      TablesFrom rows (part.foldl (fun tables row => tables.set row._meta.table
        (((tables.get row._meta.table).getD ∅).set row._meta.rowId row)) tables) from
    this _ ∅ (filter_subset_self rows) fun t ht => absurd ht not_mem_nil
  intro part
  induction part with
  | nil => exact fun tables _ h => h
  | cons row part ih =>
    intro tables hpart h
    refine ih _ (fun r hr => hpart (mem_cons_of_mem _ hr)) ?_
    have hrow : row ∈ rows := hpart mem_cons_self
    intro t ht r hr
    obtain ⟨table, hget⟩ := Record.mem_values_iff.mp ht
    rw [Record.get_set] at hget
    split_ifs at hget with htable
    · obtain rfl := Option.some.inj hget
      obtain ⟨rowId, hgetRow⟩ := Record.mem_values_iff.mp hr
      rw [Record.get_set] at hgetRow
      split_ifs at hgetRow with hid
      · exact Option.some.inj hgetRow ▸ hrow
      · cases hold : tables.get row._meta.table with
        | none =>
          rw [hold] at hgetRow
          exact absurd hgetRow (by simp)
        | some old =>
          rw [hold] at hgetRow
          exact h old (Record.mem_values_iff.mpr ⟨_, hold⟩) r
            (Record.mem_values_iff.mpr ⟨rowId, hgetRow⟩)
    · exact h t (Record.mem_values_iff.mpr ⟨table, hget⟩) r hr

theorem hasStamp_of_mem_buildSnapshot {manifest : Manifest} {now : ℕ} {snapshotId t : Text}
    {store : LocalStore} (ht : t ∈ (buildSnapshot manifest hlc now snapshotId store).stamps) :
    store.HasStamp t := by
  obtain ⟨row, hrow, hmem⟩ := mem_flatMap.mp ht
  obtain ⟨rows, hrows, hin⟩ := mem_flatMap.mp hrow
  have hall : row ∈ store.getAllRows := tablesFrom_snapshotTables _ rows hrows row hin
  obtain ⟨key, hget⟩ := Record.mem_values_iff.mp hall
  exact ⟨key, row, hget, hmem⟩

/-! ## Compacting -/

theorem keeps_pruneSuperseded_published (active : ObjectPath) :
    Keeps (Publication.env arrives) (fun _ w => CarriesClock source clock w)
      (pruneSupersededSnapshots active) := by
  refine keeps_bind ?_ fun files => ?_
  · exact keeps_attempt (keeps_listMainline quiet_publication.listMainline) fun _ =>
      keeps_pure _
  · refine Proc.keeps_forEach fun path _ => ?_
    exact keeps_attempt (keeps_deleteFile (askKeeps_unwritten fun _ _ _ h => h)) fun _ =>
      keeps_pure _

/-- What is published after the capture: the clock is the one of the context. -/
theorem wp_compactWith_published {pull : Eng Unit}
    (hpull : Keeps (Publication.env arrives) (Sourced source (hlcSerialize hlc)) pull)
    {d : Device} (h : Sourced source (hlcSerialize hlc) d w) (manifest : Manifest)
    (retention : RetentionPolicy) :
    (compactWith manifest hlc retention pull).wp (Publication.env arrives)
      (fun _ _ w' => CarriesClock source (hlcSerialize hlc) w')
      (fun _ _ w' => CarriesClock source (hlcSerialize hlc) w') d w := by
  rw [compactWith, wp_bind, wp_config]
  split
  · exact h.published
  · rw [wp_bind]
    refine hpull.wp h ?_ fun _ _ _ hx => hx.published
    intro _ d₁ w₁ h₁
    rw [wp_bind, wp_store, wp_bind]
    refine (keeps_now quiet_publication.now).wp h₁.published ?_ fun _ _ _ hx => hx
    intro now d₂ w₂ h₂
    rw [wp_bind]
    have hid : Keeps (Publication.env arrives)
        (fun _ w => CarriesClock source (hlcSerialize hlc) w) (generateId snapshotKind) :=
      keeps_generateId quiet_publication.uuid
    refine hid.wp h₂ ?_ fun _ _ _ hx => hx
    intro snapshotId d₃ w₃ h₃
    split
    · exact h₃
    · -- the rest neither looks at the device nor at the rows
      have hsnapshot : Keeps (Publication.env arrives)
          (fun _ w => CarriesClock source (hlcSerialize hlc) w)
          (writeFile (.snapshot (manifest.epoch + 1) d.config.serverId)
            (.snapshot manifest.meshId (buildSnapshot manifest hlc now snapshotId d₁.store))) :=
        keeps_writeFile (askKeeps_written fun _ _ h => h.newSnapshot rfl fun t ht =>
          h₁.rows t (hasStamp_of_mem_buildSnapshot ht))
      refine keeps_bind hsnapshot (fun _ => ?_) d₃ w₃ h₃
      refine keeps_bind (keeps_writeFile (askKeeps_written fun _ _ h =>
        h.nextManifest rfl)) fun _ => ?_
      refine keeps_bind (keeps_writeFile (askKeeps_written fun _ _ h =>
        h.unpublished trivial)) fun _ => ?_
      refine keeps_bind (keeps_setMeta fun _ _ h => h) fun _ => ?_
      refine keeps_bind (Proc.keeps_forEach fun name _ => ?_) fun _ => ?_
      · exact keeps_attempt (keeps_deleteFile (askKeeps_unwritten fun _ _ _ h => h)) fun _ =>
          keeps_pure _
      · exact keeps_bind (keeps_pruneSuperseded_published _) fun _ => keeps_pure _

theorem wp_compactUnfenced_published (harrives : ∀ t, arrives t → source t) {d : Device}
    (h : SourcedAt source (hlcSerialize hlc) hlc d w) :
    compactUnfenced.wp (Publication.env arrives)
      (fun _ _ w' => CarriesClock source (hlcSerialize hlc) w')
      (fun _ _ w' => CarriesClock source (hlcSerialize hlc) w') d w := by
  have hflush : FlushFrame (Publication.env arrives) (SourcedAt source (hlcSerialize hlc) hlc) :=
    flushFrame_sourcedAt
  rw [compactUnfenced, wp_bind]
  refine (keeps_flushPendingBatch hflush.promoted).wp h ?_ fun _ _ _ hx => hx.1.published
  intro _ d₁ w₁ h₁
  rw [wp_bind]
  refine (keeps_doFlush hflush).wp h₁ ?_ fun _ _ _ hx => hx.1.published
  intro _ d₂ w₂ h₂
  rw [wp_bind]
  refine wp_requireAdapter_of ?_ fun _ => h₂.1.published
  rw [wp_bind, wp_get]
  split
  · exact h₂.1.published
  · rw [wp_bind]
    refine keeps_compactionRetention.wp h₂.1 ?_ fun _ _ _ hx => hx.published
    intro retention d₃ w₃ h₃
    rw [wp_bind, h₂.2]
    refine Proc.wp_mono (wp_compactWith_published (keeps_pullNow (pullFrame_sourced harrives)) h₃
      _ retention) ?_ fun _ _ _ hx => hx
    intro next d₄ w₄ h₄
    rw [wp_bind, Proc.wp_modify]
    exact keeps_acknowledgeManifest (I := fun _ w => CarriesClock source (hlcSerialize hlc) w)
      quiet_publication (deviceRecords_publication fun _ _ _ hc h => h.unpublished hc) _ w₄ h₄

/-- **What `compact` publishes.**  The clock of every snapshot and of every manifest that names
one is the clock before the pull; the stamps of the rows come from the rows before or from the
changes that were merged. -/
theorem wp_compact_published {d : Device} (hs : StampKeeping d.config.schema) :
    compact.wp (Publication.env arrives)
      (fun _ _ w' => CarriesClock (fun t => d.store.HasStamp t ∨ arrives t) (hlcSerialize d.hlc) w')
      (fun _ _ w' => CarriesClock (fun t => d.store.HasStamp t ∨ arrives t) (hlcSerialize d.hlc) w')
      d [] := by
  have hstart : SourcedAt (fun t => d.store.HasStamp t ∨ arrives t) (hlcSerialize d.hlc) d.hlc d [] :=
    ⟨⟨hs, fun _ ht => .inl ht, carriesClock_nil⟩, rfl⟩
  rw [compact_eq, wp_bind]
  refine (keeps_doLoadOrCreateManifest flushFrame_sourcedAt.toLoadFrame true {}).wp hstart ?_
    fun _ _ _ hx => hx.1.published
  intro _ d₁ w₁ h₁
  rw [wp_bind]
  refine (keeps_quarantineExpiredOfflineWrites flushFrame_sourcedAt).wp h₁ ?_ fun _ _ _ hx =>
    hx.1.published
  intro expired d₂ w₂ h₂
  split
  · rw [resetExpiredClientFromRemote, wp_bind, wp_preservedRetentionMeta, wp_bind, wp_get]
    have hframe : RehydrateFrame (Publication.env arrives) (fun _ w => CarriesClock
        (fun t => d.store.HasStamp t ∨ arrives t) (hlcSerialize d.hlc) w) (preservedOf d₂) :=
      rehydrateFrame_published (preservedOf d₂)
    split
    · exact keeps_rehydrateNow hframe d₂ w₂ h₂.1.published
    · rw [wp_bind, wp_modifyStore]
      exact keeps_pullNow hframe.toPullFrame _ w₂ h₂.1.published
  · exact wp_compactUnfenced_published (fun _ ht => .inr ht) h₂

/-! ## When the clock of a snapshot covers its rows -/

/-- A clock covers the rows of a snapshot: no stamp in them is later in time and counter, unless
it lies too far in the future of the snapshot to be followed. -/
def Dominates (hlc : Text) (s : Snapshot) : Prop :=
  ∀ t ∈ s.stamps, (stampOf t).ts ≤ s.timestamp + hlcMaxFutureSkewMs →
    (stampOf t).time ≤ (stampOf hlc).time

/-- A later stamp that can be followed is what stands against it, in the order of
`hlcCompareStr`. -/
theorem not_dominates {hlc t : Text} {s : Snapshot} (hhlc : Serialized hlc) (ht : Serialized t)
    (hmem : t ∈ s.stamps) (hskew : (stampOf t).ts ≤ s.timestamp + hlcMaxFutureSkewMs)
    (htime : (stampOf t).time ≠ (stampOf hlc).time) (hneg : isNeg (hlcCompareStr hlc t) = true) :
    ¬ Dominates hlc s := by
  intro h
  rw [hhlc.isNeg_compare ht] at hneg
  exact absurd hneg (Stamp.lt_of_time_lt ((h t hmem hskew).lt_of_ne htime)).asymm

/-- **When a published snapshot is ahead of its content.**  In every run of `compact`, if no
stamp of the rows before and no stamp of a change that the pull may merge is later than the
engine's clock, save those beyond the allowed skew, then the clocks of the snapshot and of the
manifest that names it dominate the rows of the snapshot. -/
theorem compact_dominates {d d' : Device} {c : Stamp Text} (hc : d.hlc = .ofStamp c)
    (hs : StampKeeping d.config.schema) {r : Except Failure Unit} {w' : List Content}
    (hrun : Prog.Run (Publication.env arrives) (compact d) [] r d' w') {meshId : Text}
    {s : Snapshot} (hmem : Content.snapshot meshId s ∈ w')
    (htimely : ∀ t, d.store.HasStamp t ∨ arrives t →
      (stampOf t).ts ≤ s.timestamp + hlcMaxFutureSkewMs → (stampOf t).time ≤ c.time) :
    Dominates s.hlc s ∧
      ∀ m : Manifest, Content.manifest m ∈ w' → m.snapshotPath ≠ none →
        Dominates m.watermarkHlc s := by
  have hpub := Proc.wp_run_ends (wp_compact_published hs) hrun
  obtain ⟨hclock, hsource⟩ := hpub.snapshot meshId s hmem
  have hcover : Dominates (hlcSerialize d.hlc) s := by
    intro t ht hskew
    have hle := htimely t (hsource t ht) hskew
    rwa [hc, show hlcSerialize (.ofStamp c) = stampText c from rfl, stampOf_stampText]
  refine ⟨hclock ▸ hcover, fun m hm hpath => ?_⟩
  rw [hpub.manifest m hm hpath]
  exact hcover

/-! ## A change that overtakes the clock -/

/-- A remote that holds one change and takes every write. -/
def remoteWithChange (entry : ChangeEntry) (wall : ℕ) (w : List Content) :
    (c : Call) → Reply c × List Content
  | .now => (wall, w)
  | .uuid => ([], w)
  | .isAuthenticated => (true, w)
  | .authenticate => (.ok (), w)
  | .readFile path =>
    if path = .change (changeFileName entry) then (.ok (.change bootstrappedMesh entry), w)
    else (.error (.failed .missing), w)
  | .writeFile _ content => (.ok (), content :: w)
  | .deleteFile _ => (.ok (), w)
  | .listChanges => (.ok [changeFileName entry], w)
  | .listMainline => (.ok [], w)
  | .ensureFolder _ => (.ok (), w)

theorem answer_remoteWithChange {entry : ChangeEntry} (h : ∀ t ∈ entry.stamps, arrives t)
    (wall : ℕ) (w : List Content) (c : Call) :
    Publication.Answer arrives w c (remoteWithChange entry wall w c).1
      (remoteWithChange entry wall w c).2 := by
  cases c with
  | readFile path =>
    by_cases hpath : path = .change (changeFileName entry)
    · simp only [remoteWithChange, if_pos hpath]
      exact ⟨rfl, h⟩
    · simp only [remoteWithChange, if_neg hpath]
      exact ⟨rfl, trivial⟩
  | writeFile path content => exact .inl rfl
  | _ => exact rfl

/-- A call against that remote, by an engine of `"a"` that was opened at one second. -/
def callWithChange (m : Eng Unit) (entry : ChangeEntry) : Except Failure Unit × Device × List Content :=
  (m (Session.opened configOfA 1000).device).exec (remoteWithChange entry 1000) []

theorem run_callWithChange (m : Eng Unit) {entry : ChangeEntry}
    (h : ∀ t ∈ entry.stamps, arrives t) :
    Prog.Run (Publication.env arrives) (m (Session.opened configOfA 1000).device) []
      (callWithChange m entry).1 (callWithChange m entry).2.1 (callWithChange m entry).2.2 :=
  Prog.run_exec (fun _ => rfl) (answer_remoteWithChange h 1000) _ _

/-- A stamp of two seconds, by the device `"b"`. -/
def nextSecondStamp : Stamp Text := ⟨2000, 0, [98]⟩

/-- The clock of the engine: one second. -/
def openedClock : Stamp Text := ⟨1000, 0, [97]⟩

/-- What is published with the change of two seconds. -/
theorem published_nextSecondStamp : ∃ meshId s,
    Content.snapshot meshId s ∈ (callWithChange compact (changeAt nextSecondStamp)).2.2 ∧
      s.timestamp = 1000 ∧ s.hlc = stampText openedClock ∧
      s.stamps = [stampText nextSecondStamp] ∧
      ∃ m : Manifest,
        Content.manifest m ∈ (callWithChange compact (changeAt nextSecondStamp)).2.2 ∧
        m.snapshotPath ≠ none ∧ m.watermarkHlc = stampText openedClock :=
  ⟨_, _, mem_of_getElem? (i := 3) rfl, rfl, rfl, rfl,
    _, mem_of_getElem? (i := 2) rfl, Option.some_ne_none _, rfl⟩

/-- **A snapshot whose clock is behind its content.**  The pull inside `compact` merges a change
of two seconds; the snapshot and its manifest carry the clock of one second. -/
theorem compact_behind_its_content :
    ∃ r d' w', Prog.Run (Publication.env fun _ => True)
        (compact (Session.opened configOfA 1000).device) [] r d' w' ∧
      ∃ meshId s, Content.snapshot meshId s ∈ w' ∧ ¬ Dominates s.hlc s ∧
        ∃ m : Manifest, Content.manifest m ∈ w' ∧ m.snapshotPath ≠ none ∧
          ¬ Dominates m.watermarkHlc s := by
  obtain ⟨meshId, s, hmem, htime, hclock, hstamps, m, hm, hpath, hwatermark⟩ :=
    published_nextSecondStamp
  have hbehind : ¬ Dominates (stampText openedClock) s := by
    have hlt : openedClock < nextSecondStamp := Stamp.lt_of_time_lt (by decide)
    refine not_dominates ⟨_, rfl⟩ ⟨nextSecondStamp, rfl⟩ (hstamps ▸ mem_singleton.mpr rfl) ?_ ?_
      ((isNeg_hlcCompareStr _ _).mpr hlt)
    · rw [stampOf_stampText, htime]
      decide
    · rw [stampOf_stampText, stampOf_stampText]
      decide
  refine ⟨_, _, _, run_callWithChange compact fun _ _ => trivial, meshId, s, hmem, ?_, m, hm, hpath, ?_⟩
  · rw [hclock]
    exact hbehind
  · rw [hwatermark]
    exact hbehind

theorem published_earlierStamp : ∃ meshId s,
    Content.snapshot meshId s ∈ (callWithChange compact (changeAt earlierStamp)).2.2 ∧
      s.hlc = stampText openedClock ∧ s.stamps = [stampText earlierStamp] :=
  ⟨_, _, mem_of_getElem? (i := 3) rfl, rfl, rfl⟩

/-- A change that is not ahead of the clock is covered. -/
theorem compact_dominates_earlier_change :
    ∃ meshId s, Content.snapshot meshId s ∈ (callWithChange compact (changeAt earlierStamp)).2.2 ∧
      s.stamps = [stampText earlierStamp] ∧ Dominates s.hlc s := by
  obtain ⟨meshId, s, hmem, -, hstamps⟩ := published_earlierStamp
  have harrives : ∀ t ∈ (changeAt earlierStamp).stamps, t = stampText earlierStamp :=
    fun t ht => mem_singleton.mp ht
  have hrun := run_callWithChange compact harrives
  have hempty : ∀ t, ¬ (Session.opened configOfA 1000).device.store.HasStamp t := by
    rintro t ⟨key, row, hget, -⟩
    exact absurd hget (by simp [Session.opened, openEngine, LocalStore.empty])
  refine ⟨meshId, s, hmem, hstamps,
    (compact_dominates (c := openedClock) rfl stampKeeping_none hrun hmem ?_).1⟩
  rintro t (hold | rfl) -
  · exact absurd hold (hempty t)
  · rw [stampOf_stampText]
    decide

end Interocitor
