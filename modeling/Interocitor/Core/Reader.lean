import Interocitor.Core.SyncEngine

/-!
# `sync-engine.ts`: pulling in reader mode

A reader publishes nothing, so it may take over a snapshot whenever it likes.  Its `pullNow` loads
the manifest each time.  If the manifest is of a later epoch than the local state and names a
snapshot, it rehydrates instead of pulling, and `rehydrate` ends with a pull of what came after the
snapshot --- a second `pullNow`, which works with the manifest that is still in hand.

The second call rehydrates again if the manifest is still of a later epoch than the local state.
But the epoch of the local state is now what the *snapshot* says, in its own body, and nothing
compares that to the manifest which named the snapshot.  If the snapshot is of an earlier epoch, the
two methods call each other for good.

A call that goes deeper than its fuel ends with `stalled`, as a call does that never returns.  The
remote of the analysis answers every request, and its objects stay as they are.

* `Reader.pullNow`, `Reader.rehydrateNow`.
* `Reader.Behind`: the objects with which a call starts over and over.
* `Reader.pullNow_terminates_iff`: the calls that return are those that do not find these.
-/

namespace Interocitor

open CodeUnits OrderedRecord Interaction Eng Option
open Proc (wp_bind wp_mono wp_get wp_pure wp_when)

/-! ## The methods -/

namespace Reader

/-- The force load of a reader, which creates nothing. -/
def loadManifest : Eng Unit := do
  let _ ← doLoadOrCreateManifest true { createIfMissing := false }
  pure ()

/-- The manifest is of a later epoch than the local state, and names a snapshot. -/
def isBehind (d : Device) : Bool :=
  d.manifest.any fun manifest =>
    decide (d.store.metadata.epoch.getD 0 < manifest.epoch) && manifest.snapshotPath.isSome

/-- The part of `pullNow` that pulls change files. -/
def pullChanges : Eng Unit := do
  let hlc ← pull (do let _ ← doLoadOrCreateManifest false { createIfMissing := false })
  Proc.modify fun d => { d with hlc := hlc }
  Proc.when ((← Proc.get).connected = true) markSuccessfulRemoteSync

/-- No local records survive a rehydration of a reader. -/
def nothingPreserved : PreservedMeta := ⟨none, none, none, none, none⟩

/-- `rehydrateNow`; a reader acknowledges no manifest. -/
def rehydrateNow (pullNow : Eng Unit) : Eng Unit := do
  requireAdapter
  let hlc ← rehydrate nothingPreserved pullNow (do
    loadManifest
    pure (← Proc.get).manifest)
  Proc.modify fun d => { d with hlc := hlc }

/-- `pullNow` of a reader, with its field `readerManifestFresh` at the start. -/
def pullNow : ℕ → Bool → Eng Unit
  | 0, _ => Proc.throw .stalled
  | fuel + 1, readerManifestFresh => do
    requireAdapter
    attempt (do
        Proc.when (readerManifestFresh = false) loadManifest
        if isBehind (← Proc.get) then rehydrateNow (pullNow fuel true) else pullChanges)
      fun e => do
        handleRemoteAccessError e
        fail e

end Reader

/-! ## A remote that stays as it is -/

/-- Objects that can be read, or not, and each time in the same way.  Every request gets an
answer. -/
def still (objects : ObjectPath → Except RemoteError Content) : Env Call Reply Unit where
  rely _ _ := True
  guar _ _ := True
  answer _ c :=
    match c with
    | .readFile path => fun rep _ => rep = (objects path).mapError .failed
    | .now => fun _ _ => True
    | .uuid => fun _ _ => True
    | .isAuthenticated => fun _ _ => True
    | .authenticate => fun rep _ => rep ≠ .error .stalled
    | .writeFile _ _ => fun rep _ => rep ≠ .error .stalled
    | .deleteFile _ => fun rep _ => rep ≠ .error .stalled
    | .listChanges => fun rep _ => rep ≠ .error .stalled
    | .listMainline => fun rep _ => rep ≠ .error .stalled
    | .ensureFolder _ => fun rep _ => rep ≠ .error .stalled

section Still

variable {α β : Type} {objects : ObjectPath → Except RemoteError Content} {d : Device} {w : Unit}

theorem wp_readFile_still {Q : Content → Device → Unit → Prop} {X : Failure → Device → Unit → Prop}
    {path : ObjectPath} : (readFile path).wp (still objects) Q X d w ↔
      match objects path with
      | .ok content => Q content d ()
      | .error e => X (.thrown (.remote e)) d () := by
  rw [wp_readFile]
  constructor
  · intro h
    have hread := (h () trivial ((objects path).mapError .failed) () rfl).2
    cases hpath : objects path with
    | ok content =>
      rw [hpath] at hread
      exact hread
    | error e =>
      rw [hpath] at hread
      exact hread
  · rintro h w₁ - rep w₂ (rfl : rep = _)
    refine ⟨trivial, ?_⟩
    cases hpath : objects path with
    | ok content =>
      rw [hpath] at h
      exact h
    | error e =>
      rw [hpath] at h
      exact h

/-- The method returns or throws. -/
def Settles (objects : ObjectPath → Except RemoteError Content) (m : Eng α) : Prop :=
  ∀ d, m.wp (still objects) (fun _ _ _ => True) (fun failure _ _ => failure ≠ .stalled) d ()

theorem settles_pure (a : α) : Settles objects (pure a) := fun _ => trivial

theorem settles_fail (e : EngineError) : Settles objects (fail e : Eng α) := fun _ => by
  rw [wp_fail]
  exact Failure.noConfusion

theorem settles_get : Settles objects (Proc.get : Eng Device) := fun _ => trivial

theorem settles_modify (f : Device → Device) : Settles objects (Proc.modify f : Eng Unit) :=
  fun _ => trivial

theorem settles_metadata : Settles objects metadata := fun _ => trivial

theorem settles_config : Settles objects Eng.config := fun _ => trivial

theorem settles_setMeta (f : Metadata → Metadata) : Settles objects (setMeta f) := fun _ => trivial

theorem settles_modifyStore (f : LocalStore → LocalStore) : Settles objects (modifyStore f) :=
  fun _ => trivial

theorem settles_bind {m : Eng β} {f : β → Eng α} (hm : Settles objects m)
    (hf : ∀ b, Settles objects (f b)) : Settles objects (m >>= f) := by
  intro d
  rw [wp_bind]
  exact wp_mono (hm d) (fun b d' _ _ => hf b d') fun _ _ _ hx => hx

theorem settles_when {c : Prop} [Decidable c] {m : Eng Unit} (hm : Settles objects m) :
    Settles objects (Proc.when c m) := by
  intro d
  rw [wp_when]
  exact ⟨fun _ => hm d, fun _ => trivial⟩

theorem settles_attempt {m : Eng α} {f : EngineError → Eng α} (hm : Settles objects m)
    (hf : ∀ e, Settles objects (f e)) : Settles objects (attempt m f) := by
  intro d
  rw [wp_attempt]
  refine wp_mono (hm d) (fun _ _ _ _ => trivial) fun failure d' _ hx => ?_
  cases failure with
  | thrown e => exact hf e d'
  | stalled => exact absurd rfl hx

theorem settles_now : Settles objects Eng.now := fun _ => by
  rw [wp_now]
  exact fun _ _ _ _ _ => ⟨trivial, trivial⟩

theorem settles_readFile (path : ObjectPath) : Settles objects (readFile path) := fun _ => by
  rw [wp_readFile_still]
  cases objects path with
  | ok content => trivial
  | error e => exact Failure.noConfusion

theorem answered_settles {rep : Except NoAnswer α} (h : rep ≠ .error .stalled) :
    Answered (fun _ _ _ => True) (fun failure _ (_ : Unit) => failure ≠ .stalled) d w rep := by
  cases rep with
  | ok a => trivial
  | error e =>
    cases e with
    | failed e => exact Failure.noConfusion
    | stalled => exact absurd rfl h

theorem settles_listChanges : Settles objects listChanges := fun _ => by
  rw [wp_listChanges]
  exact fun _ _ rep _ hrep => ⟨trivial, answered_settles hrep⟩

theorem settles_poisoned (e : EngineError) : Settles objects (do fail (← poisonRemote e) : Eng α) :=
  settles_bind (settles_bind (settles_modify _) fun _ => settles_pure _) fun _ => settles_fail _

theorem settles_assertExpectedMeshId (manifest : Option Manifest) (meshId : Text) :
    Settles objects (assertExpectedMeshId manifest meshId) := fun _ =>
  wp_assertExpectedMeshId (fun _ => Failure.noConfusion) fun _ _ _ => trivial

theorem settles_generateId (kind : Text) : Settles objects (generateId kind) := fun _ => by
  rw [wp_generateId]
  exact fun _ _ _ _ _ => ⟨trivial, trivial⟩

theorem settles_writeFile (path : ObjectPath) (content : Content) :
    Settles objects (writeFile path content) := fun _ => by
  rw [wp_writeFile]
  exact fun _ _ rep _ hrep => ⟨trivial, answered_settles hrep⟩

/-! ## The parts of a pull settle -/

theorem settles_readPointer : Settles objects readPointer := by
  refine settles_bind (settles_readFile _) fun content => ?_
  split
  · exact settles_pure _
  · exact settles_pure _
  · exact settles_pure _
  · exact settles_fail _
  · exact settles_pure _

theorem settles_readManifest (path : ObjectPath) : Settles objects (readManifest path) := by
  refine settles_bind (settles_readFile _) fun content => ?_
  split
  · exact settles_pure _
  · exact settles_fail _
  · exact settles_fail _

theorem settles_checkManifest (assertLocalMeshId : Bool) (manifest : Manifest) :
    Settles objects (checkManifest assertLocalMeshId manifest) := by
  rw [checkManifest]
  split
  · exact settles_fail _
  · refine settles_bind (settles_when ?_) fun _ => settles_bind settles_config fun config => ?_
    · refine settles_bind settles_get fun d => ?_
      exact settles_attempt (settles_assertExpectedMeshId _ _) fun e => settles_poisoned e
    · split
      · exact settles_fail _
      · exact settles_pure _

/-- A reader bootstraps a mesh where the pointer is a JSON `null`, `false`, `0` or empty text. -/
theorem settles_bootstrapManifest : Settles objects bootstrapManifest := by
  refine settles_bind settles_metadata fun records => settles_bind settles_config fun config => ?_
  refine settles_bind settles_now fun now => settles_bind ?_ fun meshId => ?_
  · rw [meshIdOr]
    split
    · exact settles_pure _
    · exact settles_generateId _
  · refine settles_bind (settles_writeFile _ _) fun _ => ?_
    exact settles_bind (settles_writeFile _ _) fun _ => settles_pure _

theorem settles_requireAdapter : Settles objects requireAdapter := by
  refine settles_bind settles_get fun d => ?_
  split
  · exact settles_fail _
  · split_ifs
    · exact settles_fail _
    · exact settles_pure _

theorem settles_doLoadOrCreateManifest (force : Bool) :
    Settles objects (doLoadOrCreateManifest force { createIfMissing := false }) := by
  refine settles_bind settles_get fun d => ?_
  split
  · exact settles_pure _
  · refine settles_bind settles_requireAdapter fun _ =>
      settles_bind (settles_bind settles_readPointer fun pointer => ?_) fun loaded => ?_
    · split
      · refine settles_bind (settles_readManifest _) fun manifest => ?_
        exact settles_bind (settles_checkManifest _ _) fun _ => settles_pure _
      · refine settles_bind settles_bootstrapManifest fun manifest => ?_
        exact settles_bind (settles_checkManifest _ _) fun _ => settles_pure _
    · refine settles_bind (settles_modify _) fun _ => ?_
      exact settles_bind (settles_when (settles_setMeta _)) fun _ => settles_pure _

theorem settles_readHeadIfExists : Settles objects readHeadIfExists := by
  refine settles_attempt (settles_bind (settles_readFile _) fun content => ?_) fun _ => settles_pure _
  split
  · exact settles_pure _
  · exact settles_fail _
  · exact settles_pure _

theorem settles_listChangesIfExists : Settles objects listChangesIfExists := by
  refine settles_attempt (settles_bind settles_listChanges fun _ => settles_pure _) fun e => ?_
  split
  · exact settles_fail _
  · exact settles_pure _

theorem settles_decodeChangePayload (manifest : Option Manifest) (content : Content) :
    Settles objects (decodeChangePayload manifest content) := by
  unfold decodeChangePayload
  split
  · exact settles_bind (settles_assertExpectedMeshId _ _) fun _ => settles_pure _
  · exact settles_fail _
  · exact settles_fail _

theorem settles_pullFile (manifest : Option Manifest) (name : Text)
    (progress : Hlc × ChangeObservationLedger) : Settles objects (pullFile manifest name progress) := by
  refine settles_bind (settles_readFile _) fun content => ?_
  refine settles_bind (settles_decodeChangePayload _ _) fun entry => ?_
  refine settles_bind settles_now fun wall => settles_bind settles_get fun d => ?_
  split
  · exact settles_fail _
  · refine settles_bind (settles_modifyStore _) fun _ => ?_
    split
    · exact settles_fail _
    · exact settles_pure _

theorem settles_pullFiles (manifest : Option Manifest) (names : List Text)
    (progress : Hlc × ChangeObservationLedger) :
    Settles objects (pullFiles manifest names progress) := by
  induction names generalizing progress with
  | nil => exact settles_pure _
  | cons name names ih =>
    exact settles_bind (settles_attempt (settles_pullFile _ _ _) fun e => settles_poisoned e)
      fun progress' => ih progress'

theorem settles_pull {load : Eng Unit} (hload : Settles objects load) :
    Settles objects (pull load) := by
  refine settles_bind settles_get fun d => settles_bind hload fun _ => ?_
  refine settles_bind settles_metadata fun m => settles_bind settles_readHeadIfExists fun _ => ?_
  refine settles_bind settles_listChangesIfExists fun files => ?_
  split
  · exact settles_pure _
  · refine settles_bind (settles_pullFiles _ _ _) fun progress => ?_
    exact settles_bind (settles_setMeta _) fun _ => settles_pure _

theorem settles_pullChanges : Settles objects Reader.pullChanges := by
  refine settles_bind (settles_pull ?_) fun hlc => settles_bind (settles_modify _) fun _ => ?_
  · exact settles_bind (settles_doLoadOrCreateManifest false) fun _ => settles_pure _
  · exact settles_bind settles_get fun d => settles_when
      (settles_bind settles_now fun now => settles_setMeta _)

theorem exists_still_run (m : Eng α) (d : Device) :
    ∃ r d', Prog.Run (still objects) (m d) () r d' () := by
  let reply : Unit → (c : Call) → Reply c × Unit := fun _ c =>
    match c with
    | .readFile path => ((objects path).mapError .failed, ())
    | .now => ((0 : ℕ), ())
    | .uuid => (([] : Text), ())
    | .isAuthenticated => (true, ())
    | .authenticate => (.ok (), ())
    | .writeFile _ _ => (.ok (), ())
    | .deleteFile _ => (.ok (), ())
    | .listChanges => (.ok [], ())
    | .listMainline => (.ok [], ())
    | .ensureFolder _ => (.ok (), ())
  have hanswers : ∀ w c, (still objects).answer w c (reply w c).1 (reply w c).2 := by
    intro w c
    cases c with
    | readFile path => rfl
    | now => trivial
    | uuid => trivial
    | isAuthenticated => trivial
    | authenticate => exact fun h => by cases h
    | writeFile path content => exact fun h => by cases h
    | deleteFile path => exact fun h => by cases h
    | listChanges => exact fun h => by cases h
    | listMainline => exact fun h => by cases h
    | ensureFolder folder => exact fun h => by cases h
  exact ⟨_, _, Prog.run_exec (fun _ => trivial) hanswers (m d) ()⟩

end Still

namespace Reader

/-! ## What a reader finds -/

/-- The pointer names a manifest. -/
structure Named (objects : ObjectPath → Except RemoteError Content) (M : Manifest) : Prop where
  found : ∃ p m, objects .manifestPointer = .ok (.pointer p) ∧
    objects (.rootFile p.file) = .ok (.manifest m) ∧ completedManifest m = .ok M
  meshId : M.meshId ≠ []

/-- An engine that has an adapter, no reason to stop, and nothing against a manifest. -/
structure Admits (M : Manifest) (d : Device) : Prop where
  adapter : d.adapter = true
  notPoisoned : d.remotePoisonError = none
  stored : ∀ e, truthy d.store.metadata.meshId = some e → e = M.meshId
  held : ∀ m, d.manifest = some m → m.meshId = M.meshId
  accepted : manifestObjection d.config M = none

/-- A device that has loaded a manifest. -/
def loaded (M : Manifest) (d : Device) : Device :=
  { d.withMeta fun m => { m with meshId := some M.meshId, manifestCache := some M } with
    manifest := some M }

theorem admits_loaded {M : Manifest} {d : Device} (h : Admits M d) : Admits M (loaded M d) where
  adapter := h.adapter
  notPoisoned := h.notPoisoned
  stored e he := (some.inj (truthy_eq_some he).1).symm
  held m hm := by rw [← some.inj hm]
  accepted := h.accepted

section Reading

variable {objects : ObjectPath → Except RemoteError Content} {M : Manifest} {d : Device}
  {X : Failure → Device → Unit → Prop} {Q : Unit → Device → Unit → Prop}

theorem wp_loadManifest (h : Named objects M) (hd : Admits M d) (hQ : Q () (loaded M d) ()) :
    Reader.loadManifest.wp (still objects) Q X d () := by
  obtain ⟨p, m, hpointer, hmanifest, hcompleted⟩ := h.found
  have hcheck : (checkManifest true m).wp (still objects)
      (fun M' d' _ => M' = M ∧ d' = d.withMeta fun m => { m with meshId := some M.meshId })
      X d () := by
    simp only [checkManifest, hcompleted]
    rw [wp_bind, wp_when]
    refine ⟨fun _ => ?_, fun hne => absurd rfl hne⟩
    rw [assertManifestMesh, wp_bind, wp_get, wp_attempt]
    refine wp_assertExpectedMeshId_accepted h.meshId ?_ hd.stored ?_
    · intro e he
      cases hheld : d.manifest with
      | none =>
        rw [hheld] at he
        exact absurd he (by simp [truthy])
      | some held =>
        rw [hheld, map_some] at he
        rw [← hd.held held hheld]
        exact (some.inj (truthy_eq_some he).1).symm
    · rw [wp_bind, wp_config]
      have haccepted : manifestObjection (d.withMeta fun m => { m with meshId := some M.meshId }).config
          M = none := hd.accepted
      rw [haccepted]
      exact ⟨rfl, rfl⟩
  rw [Reader.loadManifest, wp_bind, doLoadOrCreateManifest, wp_bind, wp_get]
  rw [if_neg (by simp), wp_bind, wp_requireAdapter_ready hd.adapter hd.notPoisoned,
    wp_bind, loadOrCreateManifest, wp_bind]
  change (readPointer).wp _ _ _ _ _
  rw [readPointer, wp_bind, wp_readFile_still, hpointer]
  change ((readManifest (.rootFile p.file)) >>= _ : Eng _).wp _ _ _ _ _
  rw [wp_bind, readManifest, wp_bind, wp_readFile_still, hmanifest]
  change (checkManifest true m >>= _ : Eng _).wp _ _ _ _ _
  rw [wp_bind]
  refine wp_mono hcheck ?_ fun _ _ _ hx => hx
  rintro M' d' w' ⟨rfl, rfl⟩
  exact hQ

/-- The epoch of the snapshot at a path, if a device of a mesh can restore it. -/
def snapshotEpoch (objects : ObjectPath → Except RemoteError Content) (meshId : Text)
    (path : ObjectPath) : Option ℕ :=
  match objects path with
  | .ok (.snapshot id snapshot) =>
    if id = meshId ∧ ∀ name ∈ snapshot.coveredChangeFiles.getD [], isRecordable name = true
    then some snapshot.epoch else none
  | _ => none

/-- A device after a snapshot was restored. -/
structure Restored (epoch : ℕ) (d d' : Device) : Prop where
  config : d'.config = d.config
  adapter : d'.adapter = d.adapter
  poison : d'.remotePoisonError = d.remotePoisonError
  manifest : d'.manifest = d.manifest
  meshId : d'.store.metadata.meshId = none
  epoch : d'.store.metadata.epoch = some epoch

variable {epoch : ℕ}

theorem Restored.admits {d' : Device} (h : Restored epoch d d') (hd : Admits M d) :
    Admits M d' where
  adapter := h.adapter.trans hd.adapter
  notPoisoned := h.poison.trans hd.notPoisoned
  stored e he := by
    rw [h.meshId] at he
    exact absurd he (by simp)
  held m hm := hd.held m (h.manifest.symm.trans hm)
  accepted := by
    rw [h.config]
    exact hd.accepted

variable {m : Manifest}

theorem Admits.wp_assertExpectedMeshId (hd : Admits M d) (hm : m.meshId = M.meshId)
    (hne : M.meshId ≠ []) {id : Text}
    (hok : id = M.meshId → Q () (d.withMeta fun m => { m with meshId := some M.meshId }) ())
    (hfail : id ≠ M.meshId → ∀ e, X (.thrown e) d ()) :
    (assertExpectedMeshId (some m) id).wp (still objects) Q X d () := by
  by_cases hid : id = M.meshId
  · subst hid
    refine wp_assertExpectedMeshId_accepted hne ?_ hd.stored (hok rfl)
    intro e he
    rw [← some.inj (truthy_eq_some he).1]
    exact hm
  · refine Interocitor.wp_assertExpectedMeshId (hfail hid) fun hne' hheld _ => absurd ?_ hid
    refine (hheld M.meshId ?_).symm
    rw [map_some, hm]
    exact truthy_of_ne_nil hne

/-- **Restoring a snapshot**: it is done, or the state is as good as before. -/
theorem wp_restoreSnapshot (hd : Admits M d) (hm : m.meshId = M.meshId) (hne : M.meshId ≠ [])
    (hlc : Hlc) (path : ObjectPath) :
    (restoreSnapshot (some m) Reader.nothingPreserved hlc path).wp (still objects)
      (fun _ d' _ => ∃ epoch, snapshotEpoch objects M.meshId path = some epoch ∧
        Restored epoch d d')
      (fun failure d' _ => failure ≠ .stalled ∧ snapshotEpoch objects M.meshId path = none ∧
        Admits M d' ∧ d'.manifest = d.manifest) d () := by
  rw [restoreSnapshot, wp_bind, wp_readFile_still, snapshotEpoch]
  cases hpath : objects path with
  | error e => exact ⟨Failure.noConfusion, rfl, hd, rfl⟩
  | ok content =>
    dsimp only
    rw [wp_bind]
    unfold decodeSnapshotPayload
    cases content with
    | snapshot id snapshot =>
      dsimp only
      rw [wp_bind]
      refine hd.wp_assertExpectedMeshId hm hne (fun hid => ?_) fun hid e => ?_
      · rw [wp_pure, wp_bind, wp_get, wp_bind, wp_modifyStore]
        have hiff := @ChangeObservationLedger.isSome_restored_iff
          (snapshot.coveredChangeFiles.getD []) (observationGeneration
            (d.withMeta fun m => { m with meshId := some M.meshId }).store.metadata.changeObservation
            + 1) snapshot.hlc
        split
        · rename_i hnone
          rw [hnone] at hiff
          refine ⟨Failure.noConfusion, if_neg fun hcovered => ?_, ?_, rfl⟩
          · exact absurd (hiff.mpr hcovered.2) (by simp)
          · refine ⟨hd.adapter, hd.notPoisoned, fun e he => absurd he ?_, hd.held, hd.accepted⟩
            change truthy (replacedStore _ snapshot).metadata.meshId ≠ _
            rw [metadata_replacedStore]
            simp [Reader.nothingPreserved, PreservedMeta.toMetadata]
        · rename_i stored hstored
          rw [hstored] at hiff
          rw [wp_bind, wp_setMeta, wp_pure]
          refine ⟨snapshot.epoch, if_pos ⟨hid, hiff.mp rfl⟩, rfl, rfl, rfl, rfl, ?_, rfl⟩
          change (replacedStore _ snapshot).metadata.meshId = _
          rw [metadata_replacedStore]
          rfl
      · exact ⟨Failure.noConfusion, if_neg fun hcovered => hid hcovered.1, hd, rfl⟩
    | _ => exact ⟨Failure.noConfusion, rfl, hd, rfl⟩

/-! ## One rehydration -/

/-- What a rehydration comes to with a manifest in hand, where the remote names `M`: the manifest
that it went by, and the epoch of the snapshot. -/
def rehydrated (objects : ObjectPath → Except RemoteError Content) (m M : Manifest) :
    Option (Manifest × ℕ) :=
  m.snapshotPath.bind fun path =>
    match snapshotEpoch objects M.meshId path with
    | some epoch => some (m, epoch)
    | none => (M.snapshotPath.filter fun refreshed => decide (refreshed ≠ path)).bind fun refreshed =>
      (snapshotEpoch objects M.meshId refreshed).map fun epoch => (M, epoch)

theorem rehydrated_again {m' : Manifest} (h : rehydrated objects m M = some (m', epoch)) :
    rehydrated objects m' M = some (m', epoch) := by
  rw [rehydrated] at h
  obtain ⟨path, hpath, h⟩ := bind_eq_some_iff.mp h
  cases hepoch : snapshotEpoch objects M.meshId path with
  | some e =>
    rw [hepoch] at h
    obtain ⟨rfl, rfl⟩ := Prod.mk.inj (some.inj h)
    rw [rehydrated, hpath, bind_some, hepoch]
  | none =>
    rw [hepoch] at h
    obtain ⟨refreshed, hrefreshed, h⟩ := bind_eq_some_iff.mp h
    obtain ⟨e, he, h⟩ := map_eq_some_iff.mp h
    obtain ⟨rfl, rfl⟩ := Prod.mk.inj h
    rw [rehydrated, (filter_eq_some_iff.mp hrefreshed).1, bind_some, he]

/-- A device that has been rehydrated. -/
structure Rehydrated (M m : Manifest) (epoch : ℕ) (d : Device) : Prop where
  admits : Admits M d
  manifest : d.manifest = some m
  epoch : d.store.metadata.epoch = some epoch

theorem wp_restoreWithRetry (h : Named objects M) (hd : Admits M d) (hm : d.manifest = some m)
    (hlc : Hlc) {path : ObjectPath} (hpath : m.snapshotPath = some path) :
    (restoreWithRetry (some m) Reader.nothingPreserved hlc path (do
        Reader.loadManifest
        pure (← Proc.get).manifest)).wp (still objects)
      (fun _ d' _ => ∃ m' epoch, rehydrated objects m M = some (m', epoch) ∧
        Rehydrated M m' epoch d')
      (fun failure _ _ => failure ≠ .stalled ∧ rehydrated objects m M = none) d () := by
  have hmesh : m.meshId = M.meshId := hd.held m hm
  rw [restoreWithRetry, wp_attempt, wp_attempt]
  refine wp_mono (wp_restoreSnapshot hd hmesh h.meshId hlc path) ?_ ?_
  · rintro _ d' _ ⟨epoch, hepoch, hrestored⟩
    refine ⟨m, epoch, ?_, hrestored.admits hd, hrestored.manifest.trans hm, hrestored.epoch⟩
    rw [rehydrated, hpath, bind_some, hepoch]
  · rintro failure d₁ _ ⟨hsettled, hnone, hd₁, hm₁⟩
    cases failure with
    | stalled => exact absurd rfl hsettled
    | thrown firstError =>
      dsimp only
      rw [wp_bind, wp_bind]
      refine wp_loadManifest h hd₁ ?_
      rw [wp_bind, wp_get, wp_pure]
      have hloaded : ((loaded M d₁).manifest.bind fun m => m.snapshotPath) = M.snapshotPath := rfl
      rw [hloaded]
      have hout : rehydrated objects m M =
          (M.snapshotPath.filter fun refreshed => decide (refreshed ≠ path)).bind fun refreshed =>
            (snapshotEpoch objects M.meshId refreshed).map fun epoch => (M, epoch) := by
        rw [rehydrated, hpath, bind_some, hnone]
      cases hrefreshed : M.snapshotPath with
      | none =>
        rw [hrefreshed] at hout
        exact ⟨Failure.noConfusion, hout⟩
      | some refreshed =>
        rw [hrefreshed] at hout
        dsimp only
        split_ifs with heq
        · refine ⟨Failure.noConfusion, ?_⟩
          rw [hout, heq]
          simp
        · have hout' : rehydrated objects m M =
              (snapshotEpoch objects M.meshId refreshed).map fun epoch => (M, epoch) := by
            rw [hout, filter_some, if_pos (by simpa using heq), bind_some]
          refine wp_mono (wp_restoreSnapshot (admits_loaded hd₁) hmesh h.meshId hlc refreshed) ?_ ?_
          · rintro _ d' _ ⟨epoch, hepoch, hrestored⟩
            refine ⟨M, epoch, ?_, hrestored.admits (admits_loaded hd₁), hrestored.manifest,
              hrestored.epoch⟩
            rw [hout', hepoch]
            rfl
          · rintro failure d' _ ⟨hsettled', hnone', -, -⟩
            rw [hnone'] at hout'
            cases failure with
            | stalled => exact absurd rfl hsettled'
            | thrown e => exact ⟨Failure.noConfusion, hout'⟩

/-! ## The recursion -/

/-- The local epoch of a device. -/
def localEpoch (d : Device) : ℕ := d.store.metadata.epoch.getD 0

/-- A rehydration with the manifest in hand leaves the device behind that manifest, or behind the
one that it found instead. -/
def Behind (objects : ObjectPath → Except RemoteError Content) (M m : Manifest) (d : Device) :
    Prop :=
  localEpoch d < m.epoch ∧
    ∃ m' epoch, rehydrated objects m M = some (m', epoch) ∧ epoch < m'.epoch

/-- A call returns or throws. -/
def Terminates (objects : ObjectPath → Except RemoteError Content) (d : Device)
    (readerManifestFresh : Bool) : Prop :=
  ∃ fuel, (pullNow fuel readerManifestFresh).wp (still objects) (fun _ _ _ => True)
    (fun failure _ _ => failure ≠ .stalled) d ()

variable {fresh : Bool}

theorem wp_pullNow_succ (h : Named objects M) (hd : Admits M d)
    (hm : (if fresh = true then d.manifest else some M) = some m) {fuel : ℕ}
    (hX : ∀ e d' d'', X (.thrown e) d' () → X (.thrown e) d'' ())
    (hbehind : ∀ d', Admits M d' → d'.manifest = some m → localEpoch d' = localEpoch d →
      isBehind d' = true → (rehydrateNow (pullNow fuel true)).wp (still objects) Q X d' ())
    (hcurrent : ∀ d', isBehind d' = false → localEpoch d' = localEpoch d → d'.manifest = some m →
      pullChanges.wp (still objects) Q X d' ()) :
    (pullNow (fuel + 1) fresh).wp (still objects) Q X d () := by
  have hgo : ∀ d', Admits M d' → d'.manifest = some m → localEpoch d' = localEpoch d →
      (do if isBehind (← Proc.get) then rehydrateNow (pullNow fuel true) else pullChanges :
        Eng Unit).wp (still objects) Q X d' () := by
    intro d' hd' hm' hepoch
    rw [wp_bind, wp_get]
    cases hb : isBehind d' with
    | true => exact hbehind d' hd' hm' hepoch hb
    | false => exact hcurrent d' hb hepoch hm'
  rw [pullNow, wp_bind, wp_requireAdapter_ready hd.adapter hd.notPoisoned, wp_attempt]
  refine wp_mono (?_ : Proc.wp (still objects) _ Q X d ()) (fun _ _ _ hq => hq) ?_
  rotate_left
  · intro failure d' _ hx
    cases failure with
    | stalled => exact hx
    | thrown e => exact hX e _ _ hx
  rw [wp_bind, wp_when]
  refine ⟨fun hstale => ?_, fun hfresh => ?_⟩
  · rw [hstale, if_neg Bool.noConfusion] at hm
    obtain rfl := some.inj hm
    exact wp_loadManifest h hd (hgo _ (admits_loaded hd) rfl rfl)
  · rw [if_pos (Bool.eq_true_of_not_eq_false hfresh)] at hm
    exact hgo d hd hm rfl

/-- A rehydration that fails, and one that is followed by a pull. -/
theorem wp_rehydrateNow (h : Named objects M) (hd : Admits M d) (hm : d.manifest = some m)
    (hbehind : isBehind d = true) {pullNow : Eng Unit}
    (hfails : rehydrated objects m M = none → ∀ failure d', failure ≠ .stalled → X failure d' ())
    (hpull : ∀ m' epoch, rehydrated objects m M = some (m', epoch) →
      ∀ d', Rehydrated M m' epoch d' → pullNow.wp (still objects) (fun a d'' _ => ∀ hlc,
      Q a { d'' with hlc := hlc } ()) X d' ()) :
    (rehydrateNow pullNow).wp (still objects) Q X d () := by
  rw [isBehind, hm] at hbehind
  have hpath : m.snapshotPath.isSome = true := (Bool.and_eq_true_iff.mp hbehind).2
  obtain ⟨path, hpath⟩ := isSome_iff_exists.mp hpath
  rw [rehydrateNow, wp_bind, wp_requireAdapter_ready hd.adapter hd.notPoisoned, wp_bind,
    rehydrate, wp_bind, wp_get, hm, bind_some, hpath]
  dsimp only
  rw [wp_bind]
  refine wp_mono (wp_restoreWithRetry h hd hm d.hlc hpath) ?_ ?_
  · rintro hlc d' _ ⟨m', epoch, hout, hrehydrated⟩
    rw [wp_bind]
    refine wp_mono (hpull m' epoch hout d' hrehydrated) ?_ fun _ _ _ hx => hx
    intro a d'' _ hq
    rw [wp_pure, Proc.wp_modify]
    exact hq hlc
  · rintro failure d' _ ⟨hsettled, hnone⟩
    exact hfails hnone failure d' hsettled

/-- What `isBehind` says of a device, with its manifest in hand. -/
theorem isBehind_iff (hm : d.manifest = some m) :
    isBehind d = true ↔ localEpoch d < m.epoch ∧ m.snapshotPath.isSome = true := by
  rw [isBehind, hm, any_some, Bool.and_eq_true, decide_eq_true_eq, localEpoch]

theorem isSome_snapshotPath {m' : Manifest} (h : rehydrated objects m M = some (m', epoch)) :
    m.snapshotPath.isSome = true := by
  obtain ⟨path, hpath, -⟩ := bind_eq_some_iff.mp h
  rw [hpath]
  rfl

/-- **A call that is behind never returns**, however deep it may go. -/
theorem wp_pullNow_behind (h : Named objects M) (hd : Admits M d)
    (hm : (if fresh = true then d.manifest else some M) = some m) (hb : Behind objects M m d)
    (fuel : ℕ) :
    (pullNow fuel fresh).wp (still objects) (fun _ _ _ => False)
      (fun failure _ _ => failure = .stalled) d () := by
  induction fuel generalizing m d fresh with
  | zero =>
    rw [pullNow, Proc.wp_throw]
  | succ fuel ih =>
    obtain ⟨hepoch, m', epoch, hout, hless⟩ := hb
    refine wp_pullNow_succ h hd hm (fun e _ _ he => absurd he Failure.noConfusion) ?_ ?_
    · intro d' hd' hm' hlocal hbehind
      refine wp_rehydrateNow h hd' hm' hbehind (fun hnone => ?_) fun m'' e hout' d'' hre => ?_
      · rw [hout] at hnone
        exact absurd hnone (by simp)
      · rw [hout] at hout'
        obtain ⟨rfl, rfl⟩ := Prod.mk.inj (some.inj hout')
        have hlocal'' : localEpoch d'' = epoch := by
          rw [localEpoch, hre.epoch]
          rfl
        refine wp_mono (ih hre.admits (if_pos rfl |>.trans hre.manifest) ?_)
          (fun _ _ _ hq => absurd hq id) fun _ _ _ hx => hx
        exact ⟨hlocal''.symm ▸ hless, m', epoch, rehydrated_again hout, hless⟩
    · intro d' hcurrent hlocal hm'
      have hb' := (isBehind_iff hm').mpr ⟨hlocal.symm ▸ hepoch, isSome_snapshotPath hout⟩
      rw [hcurrent] at hb'
      exact absurd hb' Bool.noConfusion

/-- **A call that is not behind returns or throws**, after one rehydration at most. -/
theorem wp_pullNow_current (h : Named objects M) (hd : Admits M d)
    (hm : (if fresh = true then d.manifest else some M) = some m) (hb : ¬Behind objects M m d) :
    (pullNow 2 fresh).wp (still objects) (fun _ _ _ => True)
      (fun failure _ _ => failure ≠ .stalled) d () := by
  refine wp_pullNow_succ h hd hm (fun e _ _ _ => Failure.noConfusion) ?_
    fun d' _ _ _ => settles_pullChanges d'
  intro d' hd' hm' hlocal hbehind
  refine wp_rehydrateNow h hd' hm' hbehind (fun _ _ _ hsettled => hsettled) ?_
  intro m' epoch hout d'' hre
  have hmanifest : (if (true : Bool) = true then d''.manifest else some M) = some m' :=
    (if_pos rfl).trans hre.manifest
  refine wp_mono (wp_pullNow_succ (Q := fun _ _ _ => True)
    (X := fun failure _ _ => failure ≠ .stalled) h hre.admits hmanifest
    (fun e _ _ _ => Failure.noConfusion) ?_ fun d₃ _ _ _ => settles_pullChanges d₃)
    (fun _ _ _ _ _ => trivial) fun _ _ _ hx => hx
  intro d₃ _ hm₃ hlocal₃ hbehind₃
  -- a second rehydration would have to be behind as well
  refine absurd ?_ hb
  refine ⟨hlocal ▸ ((isBehind_iff hm').mp hbehind).1, m', epoch, hout, ?_⟩
  have hless := ((isBehind_iff hm₃).mp hbehind₃).1
  rwa [hlocal₃, localEpoch, hre.epoch] at hless

/-- **A pull of a reader returns or throws**, exactly if no rehydration leaves it behind. -/
theorem pullNow_terminates_iff (h : Named objects M) (hd : Admits M d)
    (hm : (if fresh = true then d.manifest else some M) = some m) :
    Terminates objects d fresh ↔ ¬Behind objects M m d := by
  constructor
  · rintro ⟨fuel, hsettles⟩ hb
    have hstalls := wp_pullNow_behind h hd hm hb fuel
    obtain ⟨r, d', hrun⟩ := exists_still_run (pullNow fuel fresh) d
    cases r with
    | ok a => exact Proc.wp_run_ok hstalls hrun
    | error e => exact Proc.wp_run_error hsettles hrun (Proc.wp_run_error hstalls hrun)
  · exact fun hb => ⟨2, wp_pullNow_current h hd hm hb⟩

end Reading

end Reader

end Interocitor
