import Interocitor.Core.SyncEngine

/-!
# What the methods of an engine leave alone

Most of what an engine does is beside the point of most properties: reading a
manifest changes no row, a denied request changes no receipt.  Here each method is
shown to keep an invariant `I` of a device and the world, given that the few changes
the method makes keep it.

The hypotheses come in bundles, one for each group of methods.

* `Quiet`: requests that change no object keep `I`.
* `IgnoresSession`: `I` does not look at the state of the session.
* `IgnoresMeshId`, `IgnoresSyncTimes`, `DeviceRecords`: `I` does not look at these.
* `ManifestFrame`, `LoadFrame`: loading or creating the manifest keeps `I`.
* `MergeFrame`, `PullFrame`: merging what is pulled, and pulling, keep `I`.
* `FlushFrame`: flushing keeps `I`.
* `RehydrateFrame`: the replacement of the local state by a snapshot keeps `I`.

The rules for the primitives come first, then one lemma for each method, in the order
of the modules that define them.
-/

namespace Interocitor

open CodeUnits OrderedRecord Interaction Eng
open Proc (keeps_bind Keeps keeps_pure wp_bind AskKeeps wp_mono keeps_get keeps_ask keeps_modify
  wp_get wp_when wp_modify)

variable {α W : Type} {E : Env Call Reply W} {I : Device → W → Prop}

/-! ## The primitives -/

theorem keeps_fail (e : EngineError) : Keeps E I (fail e : Eng α) := fun _ _ h => h

theorem keeps_attempt {m : Eng α} {f : EngineError → Eng α} (hm : Keeps E I m)
    (hf : ∀ e, Keeps E I (f e)) : Keeps E I (attempt m f) := by
  refine Proc.keeps_tryCatch hm fun failure => ?_
  cases failure with
  | thrown e => exact hf e
  | stalled => exact Proc.keeps_throw _

theorem keeps_answered (rep : Except NoAnswer α) : Keeps E I (answered rep : Eng α) := by
  cases rep with
  | ok a => exact keeps_pure a
  | error e =>
    cases e with
    | failed e => exact keeps_fail _
    | stalled => exact Proc.keeps_throw _

theorem keeps_now (h : AskKeeps E I .now) : Keeps E I Eng.now := keeps_ask h

variable {path : ObjectPath}

theorem keeps_readFile (h : AskKeeps E I (.readFile path)) : Keeps E I (readFile path) :=
  keeps_bind (keeps_ask h) fun rep => keeps_answered rep

theorem keeps_writeFile {content : Content} (h : AskKeeps E I (.writeFile path content)) :
    Keeps E I (writeFile path content) :=
  keeps_bind (keeps_ask h) fun rep => keeps_answered rep

theorem keeps_deleteFile (h : AskKeeps E I (.deleteFile path)) : Keeps E I (deleteFile path) :=
  keeps_bind (keeps_ask h) fun rep => keeps_answered rep

theorem keeps_listChanges (h : AskKeeps E I .listChanges) : Keeps E I listChanges :=
  keeps_bind (keeps_ask h) fun rep => keeps_answered rep

theorem keeps_listMainline (h : AskKeeps E I .listMainline) : Keeps E I listMainline :=
  keeps_bind (keeps_ask h) fun rep => keeps_answered rep

theorem keeps_ensureFolder {folder : Folder} (h : AskKeeps E I (.ensureFolder folder)) :
    Keeps E I (ensureFolder folder) :=
  keeps_bind (keeps_ask h) fun rep => keeps_answered rep

theorem keeps_generateId {kind : Text} (h : AskKeeps E I .uuid) : Keeps E I (generateId kind) :=
  keeps_bind (keeps_ask h) fun _ => keeps_pure _

theorem keeps_setMeta {f : Metadata → Metadata}
    (h : ∀ d w, I d w → I (d.withMeta f) w) : Keeps E I (setMeta f) :=
  keeps_modify h

theorem keeps_modifyStore {f : LocalStore → LocalStore}
    (h : ∀ d w, I d w → I (d.withStore f) w) : Keeps E I (modifyStore f) :=
  keeps_modify h

theorem keeps_metadata : Keeps E I Eng.metadata := fun _ _ h => h

theorem keeps_config : Keeps E I Eng.config := fun _ _ h => h

theorem keeps_store : Keeps E I Eng.store := fun _ _ h => h

/-- Requests that change no object keep `I`. -/
structure Quiet (E : Env Call Reply W) (I : Device → W → Prop) : Prop where
  now : AskKeeps E I .now
  uuid : AskKeeps E I .uuid
  isAuthenticated : AskKeeps E I .isAuthenticated
  authenticate : AskKeeps E I .authenticate
  readFile : ∀ path, AskKeeps E I (.readFile path)
  listChanges : AskKeeps E I .listChanges
  listMainline : AskKeeps E I .listMainline
  ensureFolder : ∀ folder, AskKeeps E I (.ensureFolder folder)

/-- `I` does not look at the state of the session, as long as nobody connects. -/
def IgnoresSession (I : Device → W → Prop) : Prop :=
  ∀ d w poison connected access count, (connected = true → d.connected = true) → I d w →
    I { d with
        remotePoisonError := poison
        connected := connected
        remoteAccessError := access
        pendingCount := count } w

/-- `I` survives a mesh id that agrees with the one the store remembers, if it does. -/
def IgnoresMeshId (I : Device → W → Prop) : Prop :=
  ∀ d w meshId, (∀ e, truthy d.store.metadata.meshId = some e → e = meshId) → I d w →
    I (d.withMeta fun m => { m with meshId := some meshId }) w

/-! ## `manifest.ts` -/

variable {d : Device} {w : W}

theorem wp_poisoned {Q : α → Device → W → Prop} (hs : IgnoresSession I) (h : I d w)
    (e : EngineError) : (do fail (← poisonRemote e) : Eng α).wp E Q (fun _ => I) d w := by
  rw [wp_bind, poisonRemote, wp_bind, wp_modify]
  split
  · exact hs d w (some e) false d.remoteAccessError d.pendingCount Bool.noConfusion h
  · exact h

theorem keeps_poisoned (hs : IgnoresSession I) (e : EngineError) :
    Keeps E I (do fail (← poisonRemote e) : Eng α) := fun _ _ hI => wp_poisoned hs hI e

theorem keeps_assertExpectedMeshId (hm : IgnoresMeshId I) (manifest : Option Manifest)
    (meshId : Text) : Keeps E I (assertExpectedMeshId manifest meshId) := fun d w hI =>
  wp_assertExpectedMeshId (fun _ => hI) fun _ _ hstored => hm d w meshId hstored hI

theorem keeps_readPointer (hq : Quiet E I) : Keeps E I readPointer := by
  refine keeps_bind (keeps_readFile (hq.readFile _)) fun content => ?_
  split
  · exact keeps_pure _
  · exact keeps_pure _
  · exact keeps_pure _
  · exact keeps_fail _
  · exact keeps_pure _

theorem keeps_findPointer (hq : Quiet E I) (createIfMissing : Bool) :
    Keeps E I (findPointer createIfMissing) := by
  rw [findPointer]
  split
  · exact keeps_attempt (keeps_readPointer hq) fun _ => keeps_pure _
  · exact keeps_readPointer hq

theorem keeps_readManifest (h : AskKeeps E I (.readFile path)) : Keeps E I (readManifest path) := by
  refine keeps_bind (keeps_readFile h) fun content => ?_
  split
  · exact keeps_pure _
  · exact keeps_fail _
  · exact keeps_fail _

/-- A manifest passes the checks unchanged but for its optional fields. -/
theorem wp_checkManifest (hs : IgnoresSession I) (assertLocalMeshId : Bool)
    (hm : assertLocalMeshId = true → IgnoresMeshId I) (h : I d w) (manifest : Manifest) :
    (checkManifest assertLocalMeshId manifest).wp E
      (fun m d' w' => I d' w' ∧ w' = w ∧ completedManifest manifest = .ok m) (fun _ => I) d w := by
  have hassert : ∀ m : Manifest, (Proc.when (assertLocalMeshId = true) (assertManifestMesh m)).wp E
      (fun _ d' w' => I d' w' ∧ w' = w) (fun _ => I) d w := by
    intro m
    rw [wp_when]
    refine ⟨fun hasserted => ?_, fun _ => ⟨h, rfl⟩⟩
    rw [assertManifestMesh, wp_bind, wp_get, wp_attempt]
    refine wp_assertExpectedMeshId (fun e => wp_poisoned hs h e) fun _ _ hstored => ?_
    exact ⟨hm hasserted d w m.meshId hstored h, rfl⟩
  rw [checkManifest]
  split
  · exact h
  · rename_i m hcompleted
    rw [wp_bind]
    refine wp_mono (hassert m) ?_ fun _ _ _ hx => hx
    rintro _ d' w' ⟨h', rfl⟩
    rw [wp_bind, wp_config]
    split
    · exact h'
    · exact ⟨h', rfl, hcompleted⟩

theorem keeps_checkManifest (hs : IgnoresSession I) (hm : IgnoresMeshId I)
    (assertLocalMeshId : Bool) (manifest : Manifest) :
    Keeps E I (checkManifest assertLocalMeshId manifest) := fun _ _ h =>
  wp_mono (wp_checkManifest hs _ (fun _ => hm) h _) (fun _ _ _ hq => hq.1) fun _ _ _ hx => hx

/-- Creating the first manifest keeps `I`. -/
structure BootstrapFrame (E : Env Call Reply W) (I : Device → W → Prop) : Prop extends
    Quiet E I where
  firstManifest : ∀ m : Manifest, m.snapshotPath = none →
    AskKeeps E I (.writeFile (.rootFile (.manifest 1)) (.manifest m))
  firstPointer : AskKeeps E I (.writeFile .manifestPointer (.pointer ⟨1, .manifest 1⟩))

/-- A manifest that was written as the first one. -/
def WrittenFirst (E : Env Call Reply W) (m : Manifest) : Prop :=
  ∃ w rep w', E.answer w (.writeFile (.rootFile (.manifest 1)) (.manifest m)) rep w'

/-- A manifest that was read. -/
def ReadSomewhere (E : Env Call Reply W) (m : Manifest) : Prop :=
  ∃ w file w', E.answer w (.readFile (.rootFile file)) (.ok (.manifest m)) w'

theorem wp_bootstrapManifest (h : BootstrapFrame E I) (hI : I d w) :
    bootstrapManifest.wp E (fun m d' w' => I d' w' ∧ WrittenFirst E m) (fun _ => I) d w := by
  rw [bootstrapManifest, wp_bind, wp_metadata, createBootstrapManifest, wp_bind, wp_config, wp_bind]
  refine (keeps_now h.now).wp hI ?_ fun _ _ _ hx => hx
  intro now d₁ w₁ h₁
  rw [wp_bind]
  have hmesh : Keeps E I (meshIdOr d.store.metadata.meshId) := by
    rw [meshIdOr]
    split
    · exact keeps_pure _
    · exact keeps_generateId h.uuid
  refine hmesh.wp h₁ ?_ fun _ _ _ hx => hx
  intro meshId d₂ w₂ h₂
  dsimp only
  rw [wp_bind, wp_writeFile]
  intro w₃ hr₃ rep w₄ hans₄
  obtain ⟨hg, h₄⟩ := h.firstManifest _ rfl d₂ w₂ w₃ rep w₄ h₂ hr₃ hans₄
  refine ⟨hg, ?_⟩
  cases rep with
  | error e => cases e <;> exact h₄
  | ok _ =>
    show (_ >>= _ : Eng _).wp _ _ _ _ _
    rw [wp_bind]
    refine (keeps_writeFile h.firstPointer).wp h₄ ?_ fun _ _ _ hx => hx
    intro _ d₅ w₅ h₅
    exact ⟨h₅, w₃, _, w₄, hans₄⟩

theorem keeps_bootstrapManifest (h : BootstrapFrame E I) : Keeps E I bootstrapManifest :=
  fun _ _ hI => wp_mono (wp_bootstrapManifest h hI) (fun _ _ _ hq => hq.1) fun _ _ _ hx => hx

/-- Where `I` holds, the manifest pointer is there and can be read. -/
def PointerFound (E : Env Call Reply W) (I : Device → W → Prop) : Prop :=
  ∀ d w w₁ rep w₂, I d w → E.rely w w₁ → E.answer w₁ (.readFile .manifestPointer) rep w₂ →
    ∃ p, rep = .ok (.pointer p)

/-- A manifest that was read through the pointer and passed the checks. -/
def Loads (E : Env Call Reply W) (I : Device → W → Prop) (w' : W) (m : Manifest) : Prop :=
  ∃ d w w₁ p w₂ w₃ m₀, I d w ∧ E.rely w w₁ ∧
    E.answer w₁ (.readFile .manifestPointer) (.ok (.pointer p)) w₂ ∧ E.rely w₂ w₃ ∧
    E.answer w₃ (.readFile (.rootFile p.file)) (.ok (.manifest m₀)) w' ∧
    completedManifest m₀ = .ok m

/-- How an engine comes by a manifest: it reads or creates one that passes the checks, and
it reads it through the pointer if the pointer is sure to be there. -/
structure Obtained (E : Env Call Reply W) (I : Device → W → Prop) (w : W) (m : Manifest) :
    Prop where
  source : ∃ m₀, (ReadSomewhere E m₀ ∨ WrittenFirst E m₀) ∧ completedManifest m₀ = .ok m
  loads : PointerFound E I → Loads E I w m

/-- A manifest that was read and passed the checks. -/
def PassedReading (E : Env Call Reply W) (m : Manifest) : Prop :=
  ∃ m₀, ReadSomewhere E m₀ ∧ completedManifest m₀ = .ok m

/-- Loading or creating the manifest keeps `I`, if the mesh id is not checked. -/
structure ManifestFrame (E : Env Call Reply W) (I : Device → W → Prop) : Prop extends
    Quiet E I where
  bootstrap : PointerFound E I ∨ BootstrapFrame E I
  session : IgnoresSession I
  manifest : ∀ d w m, Obtained E I w m → I d w → I { d with manifest := some m } w
  manifestCache : ∀ d w cached, I d w →
    I (d.withMeta fun m => { m with manifestCache := some cached }) w

/-- Loading or creating the manifest keeps `I`. -/
structure LoadFrame (E : Env Call Reply W) (I : Device → W → Prop) : Prop extends
    ManifestFrame E I where
  meshId : IgnoresMeshId I

theorem wp_readPointer_found (hq : Quiet E I) (hf : PointerFound E I) (h : I d w)
    {X : Failure → Device → W → Prop} :
    readPointer.wp E (fun r d' w' => I d' w' ∧ ∃ w₁ p, r = some p ∧ E.rely w w₁ ∧
      E.answer w₁ (.readFile .manifestPointer) (.ok (.pointer p)) w') X d w := by
  rw [readPointer, wp_bind, wp_readFile]
  intro w₁ hr rep w₂ hans
  obtain ⟨hg, h₂⟩ := hq.readFile _ d w w₁ rep w₂ h hr hans
  obtain ⟨p, rfl⟩ := hf d w w₁ rep w₂ h hr hans
  exact ⟨hg, h₂, w₁, p, rfl, hr, hans⟩

theorem wp_findPointer_found (hq : Quiet E I) (hf : PointerFound E I) (h : I d w)
    {X : Failure → Device → W → Prop} (createIfMissing : Bool) :
    (findPointer createIfMissing).wp E (fun r d' w' => I d' w' ∧ ∃ w₁ p, r = some p ∧ E.rely w w₁ ∧
      E.answer w₁ (.readFile .manifestPointer) (.ok (.pointer p)) w') X d w := by
  rw [findPointer]
  split
  · rw [readPointerIfExists, wp_attempt]
    exact wp_readPointer_found hq hf h
  · exact wp_readPointer_found hq hf h

/-- A manifest that is read keeps `I`, and the answer is remembered. -/
theorem wp_readManifest (hq : Quiet E I) (h : I d w) (file : RootFile) :
    (readManifest (.rootFile file)).wp E (fun m d' w' => I d' w' ∧ ∃ w₁, E.rely w w₁ ∧
      E.answer w₁ (.readFile (.rootFile file)) (.ok (.manifest m)) w') (fun _ => I) d w := by
  rw [readManifest, wp_bind, wp_readFile]
  intro w₁ hr rep w₂ hans
  obtain ⟨hg, h₂⟩ := hq.readFile _ d w w₁ rep w₂ h hr hans
  refine ⟨hg, ?_⟩
  cases rep with
  | error e => cases e <;> exact h₂
  | ok content =>
    cases content with
    | manifest m => exact ⟨h₂, w₁, hr, hans⟩
    | _ => exact h₂

/-- A manifest that was loaded or created keeps `I`, and it is known where it comes from. -/
theorem wp_loadOrCreateManifest (h : ManifestFrame E I) (hI : I d w)
    (assertLocalMeshId createIfMissing : Bool) (hm : assertLocalMeshId = true → IgnoresMeshId I) :
    (loadOrCreateManifest assertLocalMeshId createIfMissing).wp E
      (fun r d' w' => I d' w' ∧ Obtained E I w' r.1 ∧ (r.2 = false → PassedReading E r.1))
      (fun _ => I) d w := by
  have hcheck := fun {d' : Device} {w' : W} (h' : I d' w') (m : Manifest) =>
    wp_checkManifest (E := E) h.session assertLocalMeshId hm h' m
  by_cases hf : PointerFound E I
  · rw [loadOrCreateManifest, wp_bind]
    refine wp_mono (wp_findPointer_found h.toQuiet hf hI createIfMissing) ?_ fun _ _ _ hx => hx
    rintro pointer d₂ w₂ ⟨h₂, w₁, p, rfl, hr₁, hans₁⟩
    dsimp only
    rw [wp_bind]
    refine wp_mono (wp_readManifest h.toQuiet h₂ p.file) ?_ fun _ _ _ hx => hx
    rintro m₀ d₄ w₄ ⟨h₄, w₃, hr₂, hans₂⟩
    rw [wp_bind]
    refine wp_mono (hcheck h₄ m₀) ?_ fun _ _ _ hx => hx
    rintro m d₅ w₅ ⟨h₅, rfl, hcompleted⟩
    have hread : ReadSomewhere E m₀ := ⟨w₃, p.file, w₅, hans₂⟩
    exact ⟨h₅, ⟨⟨m₀, .inl hread, hcompleted⟩,
      fun _ => ⟨d, w, w₁, p, w₂, w₃, m₀, hI, hr₁, hans₁, hr₂, hans₂, hcompleted⟩⟩,
      fun _ => ⟨m₀, hread, hcompleted⟩⟩
  · have hboot := h.bootstrap.resolve_left hf
    rw [loadOrCreateManifest, wp_bind]
    refine (keeps_findPointer h.toQuiet _).wp hI ?_ fun _ _ _ hx => hx
    intro pointer d₁ w₁ h₁
    split
    · rw [wp_bind]
      refine wp_mono (wp_readManifest h.toQuiet h₁ _) ?_ fun _ _ _ hx => hx
      rintro m₀ d₂ w₂ ⟨h₂, w', -, hans⟩
      rw [wp_bind]
      refine wp_mono (hcheck h₂ m₀) ?_ fun _ _ _ hx => hx
      rintro m d₃ w₃ ⟨h₃, rfl, hcompleted⟩
      have hread : ReadSomewhere E m₀ := ⟨w', _, w₃, hans⟩
      exact ⟨h₃, ⟨⟨m₀, .inl hread, hcompleted⟩, fun hc => absurd hc hf⟩,
        fun _ => ⟨m₀, hread, hcompleted⟩⟩
    · rw [wp_bind]
      refine wp_mono (wp_bootstrapManifest hboot h₁) ?_ fun _ _ _ hx => hx
      rintro m₀ d₂ w₂ ⟨h₂, hwritten⟩
      rw [wp_bind]
      refine wp_mono (hcheck h₂ m₀) ?_ fun _ _ _ hx => hx
      rintro m d₃ w₃ ⟨h₃, rfl, hcompleted⟩
      exact ⟨h₃, ⟨⟨m₀, .inr hwritten, hcompleted⟩, fun hc => absurd hc hf⟩,
        fun hb => absurd hb (by simp)⟩

theorem keeps_requireAdapter : Keeps E I requireAdapter := fun _ _ hI =>
  wp_requireAdapter_of hI fun _ => hI

/-- Loading by force leaves a manifest that was just obtained. -/
theorem wp_doLoadOrCreateManifest (h : ManifestFrame E I) (hI : I d w) (options : LoadOptions)
    (hm : options.assertLocalMeshId = true → IgnoresMeshId I) :
    (doLoadOrCreateManifest true options).wp E
      (fun bootstrapped d' w' => I d' w' ∧ ∃ m, d'.manifest = some m ∧ Obtained E I w' m ∧
        (bootstrapped = false → PassedReading E m))
      (fun _ => I) d w := by
  rw [doLoadOrCreateManifest, wp_bind, wp_get]
  simp only [Bool.not_true, Bool.false_and, Bool.false_eq_true, if_false]
  rw [wp_bind]
  refine wp_requireAdapter_of ?_ fun _ => hI
  rw [wp_bind]
  refine wp_mono (wp_loadOrCreateManifest h hI _ _ hm) ?_ fun _ _ _ hx => hx
  rintro ⟨m, bootstrapped⟩ d₁ w₁ ⟨h₁, hloads, hread⟩
  have h₂ := h.manifest d₁ w₁ m hloads h₁
  rw [wp_bind, wp_modify, wp_bind, wp_when]
  refine ⟨fun _ => ?_, fun _ => ⟨h₂, m, rfl, hloads, hread⟩⟩
  exact ⟨h.manifestCache _ _ m h₂, m, rfl, hloads, hread⟩

theorem keeps_doLoadOrCreateManifest (h : LoadFrame E I) (force : Bool) (options : LoadOptions) :
    Keeps E I (doLoadOrCreateManifest force options) := by
  cases force with
  | true =>
    exact fun d w hI => wp_mono
      (wp_doLoadOrCreateManifest h.toManifestFrame hI options fun _ => h.meshId)
      (fun _ _ _ hq => hq.1) fun _ _ _ hx => hx
  | false =>
    refine keeps_bind keeps_get fun d₀ => ?_
    split
    · exact keeps_pure _
    · refine keeps_bind keeps_requireAdapter fun _ d w hI => ?_
      rw [wp_bind]
      refine wp_mono (wp_loadOrCreateManifest h.toManifestFrame hI _ _ fun _ => h.meshId) ?_
        fun _ _ _ hx => hx
      rintro ⟨m, bootstrapped⟩ d₁ w₁ ⟨h₁, hloads, hread⟩
      have h₂ := h.manifest d₁ w₁ m hloads h₁
      rw [wp_bind, wp_modify, wp_bind, wp_when]
      exact ⟨fun _ => h.manifestCache _ _ m h₂, fun _ => h₂⟩

/-- Writing a device record keeps `I`. -/
def DeviceRecords (E : Env Call Reply W) (I : Device → W → Prop) : Prop :=
  ∀ deviceId record, AskKeeps E I (.writeFile (.deviceFile deviceId) (.device record))

theorem keeps_upsertDeviceMetadata (hq : Quiet E I) (hd : DeviceRecords E I)
    (opts : DeviceMetadataOptions) : Keeps E I (upsertDeviceMetadata opts) := by
  refine keeps_bind keeps_config fun config => ?_
  refine keeps_bind (keeps_now hq.now) fun now => ?_
  refine keeps_bind ?_ fun existing => ?_
  · rw [existingDevice]
    split
    · exact keeps_pure _
    · refine keeps_attempt ?_ fun _ => keeps_pure _
      refine keeps_bind (keeps_readFile (hq.readFile _)) fun content => ?_
      split
      · exact keeps_pure _
      · exact keeps_fail _
      · exact keeps_pure _
  · split
    · exact keeps_pure _
    · exact keeps_writeFile (hd _ _)

/-! ## Sessions and retention -/

/-- `I` does not look at the times that `markSuccessfulRemoteSync` records. -/
def IgnoresSyncTimes (I : Device → W → Prop) : Prop :=
  ∀ d w now, I d w →
    I (d.withMeta fun m =>
      { m with lastSuccessfulSyncAt := some now, offlineRetentionExpiredAt := none }) w

theorem keeps_handleRemoteAccessError (hs : IgnoresSession I) (e : EngineError) :
    Keeps E I (handleRemoteAccessError e) := by
  refine keeps_modify fun d w hI => ?_
  split
  · split
    · exact hs d w d.remotePoisonError false _ d.pendingCount Bool.noConfusion hI
    · exact hI
  · exact hI

theorem keeps_markSuccessfulRemoteSync (hnow : AskKeeps E I .now) (ht : IgnoresSyncTimes I) :
    Keeps E I markSuccessfulRemoteSync :=
  keeps_bind (keeps_now hnow) fun now => keeps_setMeta fun d w hI => ht d w now hI

theorem keeps_acknowledgeManifest (hq : Quiet E I) (hd : DeviceRecords E I) :
    Keeps E I acknowledgeManifest := by
  refine keeps_bind keeps_get fun d => ?_
  split
  · exact keeps_pure _
  · split
    · exact keeps_pure _
    · exact keeps_upsertDeviceMetadata hq hd _

theorem keeps_activeRetentionPolicy : Keeps E I activeRetentionPolicy := by
  refine keeps_bind keeps_get fun d => ?_
  split
  · exact keeps_fail _
  · exact keeps_pure _

theorem keeps_offlineRetentionState (now : ℕ) : Keeps E I (offlineRetentionState now) := by
  refine keeps_bind keeps_activeRetentionPolicy fun policy => ?_
  refine keeps_bind keeps_metadata fun records => ?_
  split
  · exact keeps_pure _
  · exact keeps_pure _

/-! ## `pull.ts` -/

/-- A change that was read. -/
def ReadChange (E : Env Call Reply W) (entry : ChangeEntry) : Prop :=
  ∃ w path meshId w', E.answer w (.readFile path) (.ok (.change meshId entry)) w'

/-- Merging what is pulled keeps `I`. -/
structure MergeFrame (E : Env Call Reply W) (I : Device → W → Prop) : Prop extends
    LoadFrame E I where
  merged : ∀ d w entry schemaVersion store, ReadChange E entry →
    mergeEntry d.store entry schemaVersion d.config.schema = .ok store → I d w →
    I (d.withStore fun _ => store) w
  progress : ∀ d w (ledger : ChangeObservationLedger) saved, I d w →
    I (d.withMeta fun m =>
      { m with
        changeObservation := (ledger.persist m.changeObservation).or m.changeObservation
        hlc := saved }) w

/-- Pulling keeps `I`. -/
structure PullFrame (E : Env Call Reply W) (I : Device → W → Prop) : Prop extends
    MergeFrame E I where
  clock : ∀ d w hlc, I d w → I { d with hlc := hlc } w
  syncTimes : IgnoresSyncTimes I
  deviceRecords : DeviceRecords E I

theorem keeps_readHeadIfExists (hq : Quiet E I) : Keeps E I readHeadIfExists := by
  refine keeps_attempt ?_ fun _ => keeps_pure _
  refine keeps_bind (keeps_readFile (hq.readFile _)) fun content => ?_
  split
  · exact keeps_pure _
  · exact keeps_fail _
  · exact keeps_pure _

theorem keeps_listChangesIfExists (hq : Quiet E I) : Keeps E I listChangesIfExists := by
  refine keeps_attempt ?_ fun e => ?_
  · exact keeps_bind (keeps_listChanges hq.listChanges) fun _ => keeps_pure _
  · split
    · exact keeps_fail _
    · exact keeps_pure _

/-- What is read keeps `I`, and a change is known to have been read. -/
theorem wp_readFile_change (hq : Quiet E I) (h : I d w) (path : ObjectPath) :
    (readFile path).wp E (fun content d' w' => I d' w' ∧
      ∀ meshId entry, content = .change meshId entry → ReadChange E entry) (fun _ => I) d w := by
  rw [wp_readFile]
  intro w₁ hr rep w₂ hans
  obtain ⟨hg, h₂⟩ := hq.readFile _ d w w₁ rep w₂ h hr hans
  refine ⟨hg, ?_⟩
  cases rep with
  | error e => cases e <;> exact h₂
  | ok content =>
    refine ⟨h₂, ?_⟩
    rintro meshId entry rfl
    exact ⟨w₁, path, meshId, w₂, hans⟩

/-- Decoding keeps `I`, and what is decoded is the change in the file. -/
theorem wp_decodeChangePayload (hm : IgnoresMeshId I) (h : I d w) (manifest : Option Manifest)
    (content : Content) :
    (decodeChangePayload manifest content).wp E (fun entry d' w' => I d' w' ∧
      ∃ meshId, content = .change meshId entry) (fun _ => I) d w := by
  unfold decodeChangePayload
  split
  · rename_i meshId entry
    rw [wp_bind]
    refine (keeps_assertExpectedMeshId hm _ _).wp h ?_ fun _ _ _ hx => hx
    exact fun _ _ _ h' => ⟨h', meshId, rfl⟩
  · exact h
  · exact h

theorem keeps_pullFile (h : MergeFrame E I) (manifest : Option Manifest) (name : Text)
    (progress : Hlc × ChangeObservationLedger) : Keeps E I (pullFile manifest name progress) := by
  intro d w hI
  rw [pullFile, wp_bind]
  refine wp_mono (wp_readFile_change h.toQuiet hI _) ?_ fun _ _ _ hx => hx
  rintro content d₁ w₁ ⟨h₁, hread⟩
  rw [wp_bind]
  refine wp_mono (wp_decodeChangePayload h.meshId h₁ manifest content) ?_ fun _ _ _ hx => hx
  rintro entry d₂ w₂ ⟨h₂, meshId, rfl⟩
  refine keeps_bind (keeps_now h.now) (fun wall => ?_) d₂ w₂ h₂
  intro d₃ w₃ h₃
  rw [wp_bind, wp_get]
  split
  · exact h₃
  · rename_i store hmerge
    rw [wp_bind, wp_modifyStore]
    have h₄ := h.merged d₃ w₃ entry _ store (hread meshId entry rfl) hmerge h₃
    split
    · exact h₄
    · exact h₄

theorem keeps_pullFiles (h : MergeFrame E I) (manifest : Option Manifest) (names : List Text)
    (progress : Hlc × ChangeObservationLedger) : Keeps E I (pullFiles manifest names progress) := by
  induction names generalizing progress with
  | nil => exact keeps_pure _
  | cons name names ih =>
    refine keeps_bind ?_ fun progress => ih progress
    exact keeps_attempt (keeps_pullFile h _ _ _) fun e => keeps_poisoned h.session e

theorem keeps_pull (h : MergeFrame E I) {loadManifest : Eng Unit}
    (hload : Keeps E I loadManifest) : Keeps E I (pull loadManifest) := by
  refine keeps_bind keeps_get fun d => ?_
  refine keeps_bind hload fun _ => ?_
  refine keeps_bind keeps_metadata fun records => ?_
  refine keeps_bind (keeps_readHeadIfExists h.toQuiet) fun _ => ?_
  refine keeps_bind (keeps_listChangesIfExists h.toQuiet) fun listing => ?_
  split
  · exact keeps_pure _
  · refine keeps_bind (keeps_pullFiles h _ _ _) fun progress => ?_
    exact keeps_bind (keeps_setMeta fun d w hI => h.progress d w _ _ hI) fun _ =>
      keeps_pure _

theorem keeps_pullNow (h : PullFrame E I) : Keeps E I pullNow := by
  refine keeps_bind keeps_requireAdapter fun _ => keeps_attempt ?_ fun e =>
    keeps_bind (keeps_handleRemoteAccessError h.session e) fun _ => keeps_fail _
  refine keeps_bind (keeps_pull h.toMergeFrame ?_) fun hlc => ?_
  · exact keeps_bind (keeps_doLoadOrCreateManifest h.toLoadFrame _ _) fun _ =>
      keeps_pure _
  refine keeps_bind (keeps_modify fun d w => h.clock d w _) fun _ => ?_
  refine keeps_bind keeps_get fun d => ?_
  refine keeps_bind (Proc.keeps_when ?_) fun _ => ?_
  · exact keeps_markSuccessfulRemoteSync h.now h.syncTimes
  · exact keeps_acknowledgeManifest h.toQuiet h.deviceRecords

/-! ## `flush.ts` -/

/-- Receipts that are persisted keep `I`. -/
def Receipts (I : Device → W → Prop) : Prop :=
  ∀ d w (ledger : ChangeObservationLedger) stored,
    ledger.persist d.store.metadata.changeObservation = some stored → I d w →
    I (d.withMeta fun m => { m with changeObservation := some stored }) w

variable {entries : List ChangeEntry}

theorem keeps_recordFlushedChanges (h : Receipts I) : Keeps E I (recordFlushedChanges entries) := by
  intro d w hI
  rw [recordFlushedChanges, wp_bind, wp_metadata]
  dsimp only
  split
  · exact hI
  · split
    · exact hI
    · rename_i ledger _ _ stored hpersist
      exact h d w ledger stored hpersist hI

theorem keeps_writeHead (hq : Quiet E I)
    (hhead : ∀ last, AskKeeps E I (.writeFile changesHead (.head last))) (last : Text) :
    Keeps E I (writeHead last) := by
  refine keeps_bind (keeps_readHeadIfExists hq) fun prior => ?_
  dsimp only
  split
  · exact keeps_pure _
  · exact keeps_writeFile (hhead _)

/-- Flushing keeps `I`. -/
structure FlushFrame (E : Env Call Reply W) (I : Device → W → Prop) : Prop extends
    LoadFrame E I where
  promoted : ∀ d w, I d w → I d.promoted w
  quarantine : ∀ d w now last limit, I d w →
    I { d with
        store := quarantineOutbox d.store now last limit
        pendingBatch := false
        pendingCount := 0 } w
  observation : Receipts I
  changeFile : ∀ d w, I d w → ∀ entry ∈ d.store.outbox, ∀ meshId,
    AskKeeps E I (.writeFile (.change (changeFileName entry)) (.change meshId entry))
  head : ∀ last, AskKeeps E I (.writeFile changesHead (.head last))
  acknowledge : ∀ d w ids, I d w → I (d.withStore fun s => s.acknowledgeOutbox ids) w
  syncTimes : IgnoresSyncTimes I
  deviceRecords : DeviceRecords E I

theorem keeps_flushPendingBatch (h : ∀ d w, I d w → I d.promoted w) :
    Keeps E I flushPendingBatch := keeps_modify h

theorem keeps_quarantineExpiredOfflineWrites (h : FlushFrame E I) :
    Keeps E I quarantineExpiredOfflineWrites := by
  refine keeps_bind (keeps_now h.now) fun now => ?_
  refine keeps_bind (keeps_offlineRetentionState now) fun state => ?_
  split
  · refine keeps_bind (keeps_flushPendingBatch h.promoted) fun _ => ?_
    exact keeps_bind (keeps_modify fun d w => h.quarantine d w _ _ _) fun _ =>
      keeps_pure _
  · exact keeps_pure _

/-- The change files of entries may be written. -/
def Writable (E : Env Call Reply W) (I : Device → W → Prop) (entries : List ChangeEntry) : Prop :=
  ∀ entry ∈ entries, ∀ meshId,
    AskKeeps E I (.writeFile (.change (changeFileName entry)) (.change meshId entry))

theorem keeps_flushPrimary (h : FlushFrame E I) (manifest : Option Manifest)
    (hw : Writable E I entries) : Keeps E I (flushPrimary manifest entries) := by
  refine keeps_bind (keeps_recordFlushedChanges h.observation) fun _ => ?_
  refine keeps_bind (keeps_ensureFolder (h.ensureFolder _)) fun _ => ?_
  refine keeps_bind (Proc.keeps_forEach fun entry hentry => ?_) fun _ => ?_
  · rw [writeChangeFile]
    split
    · exact keeps_fail _
    · exact keeps_writeFile (hw entry hentry _)
  refine keeps_bind (Proc.keeps_when (keeps_writeHead h.toQuiet (fun _ => h.head _) _)) fun _ => ?_
  exact keeps_upsertDeviceMetadata h.toQuiet h.deviceRecords _

theorem keeps_publish (h : FlushFrame E I) (hw : Writable E I entries) :
    Keeps E I (publish entries) := by
  refine keeps_bind keeps_get fun d => ?_
  refine keeps_bind (keeps_flushPrimary h _ hw) fun _ => ?_
  refine keeps_bind (keeps_modifyStore fun d w => h.acknowledge d w _) fun _ => ?_
  exact keeps_markSuccessfulRemoteSync h.now h.syncTimes

theorem keeps_pendingCount (hs : IgnoresSession I) (count : ℕ) :
    Keeps E I (Proc.modify fun d => { d with pendingCount := count } : Eng Unit) :=
  keeps_modify fun d w hI =>
    hs d w d.remotePoisonError d.connected d.remoteAccessError count id hI

theorem keeps_doFlush (h : FlushFrame E I) : Keeps E I doFlush := by
  intro d w hI
  have hw : Writable E I d.store.outbox := h.changeFile d w hI
  rw [doFlush, wp_bind, wp_get]
  split
  · exact hI
  · dsimp only
    split
    · exact keeps_bind (keeps_pendingCount h.session 0) (fun _ => keeps_pure 0) d w hI
    · -- the entries that are published are the ones found in the outbox at the start
      refine keeps_bind (keeps_doLoadOrCreateManifest h.toLoadFrame true {}) (fun _ => ?_) d w hI
      refine keeps_bind (keeps_quarantineExpiredOfflineWrites h) fun fenced => ?_
      split
      · exact keeps_pure _
      · refine keeps_bind (keeps_pendingCount h.session _) fun _ => ?_
        refine keeps_bind (keeps_attempt (keeps_publish h hw) fun e => ?_) fun _ =>
          keeps_pure _
        refine keeps_bind (keeps_handleRemoteAccessError h.session e) fun _ => ?_
        exact keeps_bind (keeps_pendingCount h.session _) fun _ => keeps_fail _

/-! ## `compaction.ts`: rehydrate -/

/-- The replacement of the local state by a snapshot keeps `I`. -/
structure RehydrateFrame (E : Env Call Reply W) (I : Device → W → Prop)
    (preserved : PreservedMeta) : Prop extends PullFrame E I where
  replaced : ∀ d w snapshot, I d w →
    I (d.withStore fun _ => replacedStore preserved snapshot) w
  restored : ∀ d w observation epoch, I d w →
    I (d.withMeta fun m => { m with changeObservation := observation, epoch := epoch }) w

variable {preserved : PreservedMeta}

theorem keeps_decodeSnapshotPayload (hm : IgnoresMeshId I) (manifest : Option Manifest)
    (content : Content) : Keeps E I (decodeSnapshotPayload manifest content) := by
  unfold decodeSnapshotPayload
  split
  · exact keeps_bind (keeps_assertExpectedMeshId hm _ _) fun _ => keeps_pure _
  · exact keeps_fail _
  · exact keeps_fail _

theorem keeps_restoreSnapshot (h : RehydrateFrame E I preserved) (manifest : Option Manifest)
    (hlc : Hlc) (path : ObjectPath) : Keeps E I (restoreSnapshot manifest preserved hlc path) := by
  refine keeps_bind (keeps_readFile (h.readFile _)) fun content => ?_
  refine keeps_bind (keeps_decodeSnapshotPayload h.meshId _ _) fun snapshot => ?_
  refine keeps_bind keeps_get fun d => ?_
  refine keeps_bind (keeps_modifyStore fun d w => h.replaced d w _) fun _ => ?_
  split
  · exact keeps_fail _
  · exact keeps_bind (keeps_setMeta fun d w => h.restored d w _ _) fun _ =>
      keeps_pure _

theorem keeps_restoreWithRetry (h : RehydrateFrame E I preserved) (manifest : Option Manifest)
    (hlc : Hlc) (path : ObjectPath) {reloadManifest : Eng (Option Manifest)}
    (hreload : Keeps E I reloadManifest) :
    Keeps E I (restoreWithRetry manifest preserved hlc path reloadManifest) := by
  refine keeps_attempt ?_ fun e => keeps_poisoned h.session e
  refine keeps_attempt (keeps_restoreSnapshot h _ _ _) fun e => ?_
  refine keeps_bind hreload fun refreshed => ?_
  split
  · exact keeps_fail _
  · split
    · exact keeps_fail _
    · exact keeps_restoreSnapshot h _ _ _

theorem keeps_rehydrate (h : RehydrateFrame E I preserved) {pull : Eng Unit}
    (hpull : Keeps E I pull) {reloadManifest : Eng (Option Manifest)}
    (hreload : Keeps E I reloadManifest) : Keeps E I (rehydrate preserved pull reloadManifest) := by
  refine keeps_bind keeps_get fun d => ?_
  split
  · exact keeps_bind hpull fun _ => keeps_pure _
  · exact keeps_bind (keeps_restoreWithRetry h _ _ _ hreload) fun _ =>
      keeps_bind hpull fun _ => keeps_pure _

theorem keeps_reloadManifest (h : LoadFrame E I) :
    Keeps E I (do
      let _ ← doLoadOrCreateManifest true {}
      pure (← Proc.get).manifest : Eng (Option Manifest)) :=
  keeps_bind (keeps_doLoadOrCreateManifest h _ _) fun _ =>
    keeps_bind keeps_get fun _ => keeps_pure _

theorem keeps_rehydrateNow (h : RehydrateFrame E I preserved) :
    Keeps E I (rehydrateNow preserved) := by
  refine keeps_bind keeps_requireAdapter fun _ => keeps_bind ?_ fun hlc => ?_
  · exact keeps_rehydrate h (keeps_pullNow h.toPullFrame) (keeps_reloadManifest h.toLoadFrame)
  · exact keeps_bind (keeps_modify fun d w => h.clock d w _) fun _ =>
      keeps_acknowledgeManifest h.toQuiet h.deviceRecords

end Interocitor
