import Interocitor.Mailbox.Generations
import Interocitor.Native.Bootstrap

/-!
# The native engines: compaction

All three engines publish the next manifest in the same way: the snapshot, the manifest, the
pointer.  They differ in which manifest they take for the one before.

* The core loads the manifest by force at the start of `compact` (`Mailbox.Generations`).
* Python takes the manifest that its own pull has just loaded.
* Swift takes the one in memory **before** its flush and its pull, which both load a newer one, and
  does not copy the lineage.

So a Swift engine that has not looked at the remote since somebody else compacted publishes a
generation and an epoch that are in use already.

* `fleet_moves_forward`: a run in which every Swift engine that compacts is up to date, and the
  mesh has its first lineage, moves forward with every compaction.
-/

namespace Interocitor.Native

open CodeUnits OrderedRecord Interaction

/-! ## Publishing -/

/-- What a compaction captures after its pull. -/
structure Capture where
  now : ℕ
  snapshotId : Text
  hlc : Hlc
  rows : List Row
  covered : List Text

/-- What becomes of the calls of a publication, and which deletes of the cleanup work. -/
structure PublishOutcomes where
  snapshotWrite : WriteOutcome
  manifestWrite : WriteOutcome
  pointerWrite : WriteOutcome
  setMeta : Bool
  deletes : ObjectPath → Bool
  acknowledge : Bool

/-- The snapshot of what was captured.  Dictionaries inherit nothing, so every row gets in. -/
def capturedSnapshot (manifest : Manifest) (c : Capture) : Snapshot where
  snapshotId := c.snapshotId
  timestamp := c.now
  hlc := hlcSerialize c.hlc
  epoch := manifest.epoch + 1
  schemaVersion := manifest.schema
  coveredChangeFiles := some c.covered
  tables := rowsByTable c.rows

/-- The next manifest.  Only the lineage differs between the engines. -/
def nextManifest (manifest : Manifest) (serverId : Text) (c : Capture) (lineage : Option ℤ) :
    Manifest :=
  let payload : ManifestPayload :=
    { generation := manifest.generation + 1
      parentGeneration := manifest.generation
      writtenBy := serverId
      writtenAt := c.now
      version := 3
      meshId := manifest.meshId
      schema := manifest.schema
      encrypted := manifest.encrypted
      server := manifest.server
      createdAt := manifest.createdAt
      epoch := manifest.epoch + 1
      watermarkHlc := hlcSerialize c.hlc
      snapshotPath := some (.snapshot (manifest.epoch + 1) serverId)
      retention := manifest.retention
      lineage := lineage }
  { payload with contentHash := computeContentHash payload }

/-- The objects that a cleanup deletes: the covered changes and the superseded snapshots. -/
def superseded (objects : Objects) (active : ObjectPath) (covered : List Text) : List ObjectPath :=
  covered.map .change ++
    objects.keys.filter fun path => path.isSnapshot && decide (path ≠ active)

/-- The cleanup; a delete that fails is ignored. -/
def cleanup (deletes : ObjectPath → Bool) (active : ObjectPath) (covered : List Text) : Act Unit :=
  fun s =>
    (.ok (), { s with
      objects := ((superseded s.objects active covered).filter deletes).foldl Record.erase s.objects })

/-- The end of a compaction, from the write of the snapshot on. -/
def publish (config : NativeConfig) (o : PublishOutcomes) (manifest : Manifest) (meshId : Text)
    (c : Capture) (lineage : Option ℤ) : Act Manifest := do
  let next := nextManifest manifest config.serverId c lineage
  let snapshotPath := ObjectPath.snapshot (manifest.epoch + 1) config.serverId
  writeFile o.snapshotWrite snapshotPath (.snapshot meshId (capturedSnapshot manifest c))
  writeFile o.manifestWrite (.rootFile (.manifest next.generation)) (.manifest next)
  writeFile o.pointerWrite .manifestPointer
    (.pointer ⟨next.generation, .manifest next.generation⟩)
  localStore o.setMeta
  cleanup o.deletes snapshotPath c.covered
  localStore o.acknowledge
  pure next

/-! ## The two engines -/

/-- One call of `loadOrCreateManifest` by a flush or a pull. -/
structure LoadCall where
  outcomes : Outcomes
  now : ℕ
  fresh : Text

/-- What a compaction meets: whether its flush or its pull fails after the manifest is loaded, what
it captures, and what becomes of the publication. -/
structure CompactCall where
  syncFails : Option LoadError
  capture : Capture
  outcomes : PublishOutcomes

namespace Swift

/-- A flush loads the manifest if something is queued; a pull loads it, and again for every
rehydration it starts. -/
def reload (config : NativeConfig) : List LoadCall → Option Text → Option Manifest →
    Act (Option Manifest)
  | [], _, held => pure held
  | call :: calls, stored, held => do
    let loaded ← loadOrCreateManifest config call.outcomes ⟨stored, held.map fun m => m.meshId⟩
      call.now call.fresh
    reload config calls (some loaded.meshId) (some loaded)

/-- `compact`: the manifest is the one in memory at the start, and the lineage is left out. -/
def compact (config : NativeConfig) (deviceId : Text) (stored : Option Text)
    (held : Option Manifest) (loads : List LoadCall) (call : CompactCall) : Act Manifest :=
  match held with
  | none => raise .adapterRequired
  | some currentManifest =>
    if currentManifest.server.managed ∧ deviceId ≠ config.serverId then raise .compactionNotAllowed
    else do
      let reloaded ← reload config loads stored held
      raiseSome call.syncFails
      publish config call.outcomes currentManifest
        ((reloaded.map fun m => m.meshId).getD currentManifest.meshId) call.capture none

end Swift

namespace Python

/-- `compact`: the manifest is the one that its pull has loaded. -/
def compact (config : NativeConfig) (deviceId : Text) (stored : Option Text)
    (held : Option Manifest) (load : LoadCall) (call : CompactCall) : Act Manifest :=
  match held with
  | none => raise .adapterRequired
  | some _ => do
    let manifest ← loadOrCreateManifest config load.outcomes ⟨stored, held.map fun m => m.meshId⟩
      load.now load.fresh
    raiseSome call.syncFails
    if manifest.server.managed ∧ deviceId ≠ config.serverId then raise .compactionNotAllowed
    else publish config call.outcomes manifest manifest.meshId call.capture manifest.lineage

end Python

/-! ## How a call ends -/

/-- A call that returns ends with `P`, and one that throws leaves `Q`. -/
def Ends {α : Type} (x : Act α) (P : α → Mailroom → Prop) (Q : Mailroom → Prop) (s : Mailroom) :
    Prop :=
  (∀ a s', x s = (.ok a, s') → P a s') ∧ ∀ e s', x s = (.error e, s') → Q s'

section Ends

variable {α β : Type} {P : α → Mailroom → Prop} {Q : Mailroom → Prop} {s : Mailroom}

theorem ends_pure {a : α} (h : P a s) : Ends (pure a) P Q s := by
  refine ⟨fun b s' hb => ?_, fun e s' he => ?_⟩
  · obtain ⟨ha, rfl⟩ := Prod.mk.inj hb
    exact Except.ok.inj ha ▸ h
  · exact absurd (congrArg Prod.fst he) (by simp [pure_apply])

theorem ends_raise {e : LoadError} (h : Q s) : Ends (raise e : Act α) P Q s := by
  refine ⟨fun a s' ha => ?_, fun e' s' he => ?_⟩
  · exact absurd (congrArg Prod.fst ha) (by simp [raise])
  · obtain ⟨-, rfl⟩ := Prod.mk.inj he
    exact h

theorem ends_bind {x : Act α} {f : α → Act β} {R : β → Mailroom → Prop} (hx : Ends x P Q s)
    (hf : ∀ a s', P a s' → Ends (f a) R Q s') : Ends (x >>= f) R Q s := by
  cases h : x s with
  | mk r s' =>
    cases r with
    | ok a =>
      have hrest := hf a s' (hx.1 a s' h)
      refine ⟨fun b s'' hb => hrest.1 b s'' ?_, fun e s'' he => hrest.2 e s'' ?_⟩
      · rwa [bind_of_ok h] at hb
      · rwa [bind_of_ok h] at he
    | error e =>
      refine ⟨fun b s'' hb => ?_, fun e' s'' he => ?_⟩
      · rw [bind_of_error h] at hb
        exact absurd (congrArg Prod.fst hb) (by simp)
      · rw [bind_of_error h] at he
        obtain ⟨-, rfl⟩ := Prod.mk.inj he
        exact hx.2 e s' h

theorem ends_mono {x : Act α} {P' : α → Mailroom → Prop} {Q' : Mailroom → Prop} (hx : Ends x P Q s)
    (hP : ∀ a s', P a s' → P' a s') (hQ : ∀ s', Q s' → Q' s') : Ends x P' Q' s :=
  ⟨fun a s' h => hP a s' (hx.1 a s' h), fun e s' h => hQ s' (hx.2 e s' h)⟩

variable {P : Unit → Mailroom → Prop}

theorem ends_raiseSome {e : Option LoadError} (hP : P () s) (hQ : Q s) :
    Ends (raiseSome e) P Q s := by
  cases e with
  | none => exact ends_pure hP
  | some e => exact ends_raise hQ

theorem ends_localStore {works : Bool} (hP : P () s) (hQ : Q s) :
    Ends (localStore works) P Q s := by
  cases works with
  | true => exact ends_pure hP
  | false => exact ends_raise hQ

theorem ends_writeFile {o : WriteOutcome} {path : ObjectPath} {content : Content}
    (hdone : P () (s.write path content)) (hnot : Q s) (hlost : Q (s.write path content)) :
    Ends (writeFile o path content) P Q s := by
  cases o with
  | done =>
    refine ⟨fun a s' ha => ?_, fun e s' he => ?_⟩
    · obtain ⟨-, rfl⟩ := Prod.mk.inj ha
      exact hdone
    · exact absurd (congrArg Prod.fst he) (by simp [writeFile])
  | failed applied =>
    refine ⟨fun a s' ha => ?_, fun e s' he => ?_⟩
    · exact absurd (congrArg Prod.fst ha) (by simp [writeFile])
    · obtain ⟨-, rfl⟩ := Prod.mk.inj he
      cases applied with
      | true => exact hlost
      | false => exact hnot

theorem ends_readFile {o : ReadOutcome} {path : ObjectPath} {P : Content → Mailroom → Prop}
    (hP : ∀ content, s.objects.get path = some content → P content s) (hQ : Q s) :
    Ends (readFile o path) P Q s := by
  have hstay : (readFile o path s).2 = s := quiet_readFile o path s
  refine ⟨fun content s' h => ?_, fun e s' h => ?_⟩
  · rw [h] at hstay
    obtain rfl : s' = s := hstay
    refine hP content ?_
    cases o with
    | answered =>
      simp only [readFile] at h
      cases hget : s'.objects.get path with
      | none =>
        rw [hget] at h
        exact absurd (congrArg Prod.fst h) (by simp)
      | some found =>
        rw [hget] at h
        exact congrArg some (Except.ok.inj (congrArg Prod.fst h))
    | failed => exact absurd (congrArg Prod.fst h) (by simp [readFile])
    | cancelled => exact absurd (congrArg Prod.fst h) (by simp [readFile])
  · rw [h] at hstay
    obtain rfl : s' = s := hstay
    exact hQ

theorem ends_decodeManifest {content : Content} {P : Manifest → Mailroom → Prop}
    (hP : ∀ m, content = .manifest m → P m s) (hQ : Q s) : Ends (decodeManifest content) P Q s := by
  cases content with
  | manifest m =>
    rw [decodeManifest]
    split_ifs
    · exact ends_pure (hP m rfl)
    · exact ends_raise hQ
  | _ => exact ends_raise hQ

end Ends

/-! ## Loading where a pointer is -/

section Loading

variable {config : NativeConfig} {o : Outcomes} {known : Known} {now : ℕ} {fresh : Text}
  {m₀ : Manifest} {s : Mailroom}

/-- What is loaded is what the pointer names, and nothing changes. -/
def LoadsNamed (m₀ : Manifest) (x : Act Manifest) (s : Mailroom) : Prop :=
  Ends x (fun m s' => m = m₀ ∧ s' = s) (fun s' => s' = s) s

theorem ends_of_quiet {α : Type} {x : Act α} (h : Quiet x) :
    Ends x (fun _ s' => s' = s) (fun s' => s' = s) s := by
  have hstay := h s
  refine ⟨fun a s' ha => ?_, fun e s' he => ?_⟩
  · rw [ha] at hstay
    exact hstay
  · rw [he] at hstay
    exact hstay

/-- Both engines decode the pointer and read the manifest it names. -/
theorem loadsNamed_decode {reads : ReadOutcome} {f : Manifest → Act Manifest}
    (h : Registered m₀ s.objects) (hf : LoadsNamed m₀ (f m₀) s) :
    LoadsNamed m₀ (do
      let p ← decodePointer (.pointer ⟨m₀.generation, .manifest m₀.generation⟩)
      let m ← decodeManifest (← readFile reads (.rootFile p.file))
      f m) s := by
  have hread : Ends (readFile reads (.rootFile (.manifest m₀.generation)))
      (fun content s' => content = .manifest m₀ ∧ s' = s) (fun s' => s' = s) s := by
    refine ends_readFile (fun content hget => ⟨?_, rfl⟩) rfl
    exact Option.some.inj (hget.symm.trans h.manifest)
  refine ends_bind (P := fun p s' => p = ⟨m₀.generation, .manifest m₀.generation⟩ ∧ s' = s)
    (ends_pure ⟨rfl, rfl⟩) ?_
  rintro p s₁ ⟨rfl, rfl⟩
  refine ends_bind hread ?_
  rintro content s₂ ⟨rfl, rfl⟩
  refine ends_bind (ends_decodeManifest (P := fun m s' => m = m₀ ∧ s' = s₂)
    (fun m hm => ⟨(Content.manifest.inj hm).symm, rfl⟩) rfl) ?_
  rintro m s₃ ⟨rfl, rfl⟩
  exact hf

theorem Swift.loadsNamed (h : Registered m₀ s.objects) (ho : o.pointerRead = .answered) :
    LoadsNamed m₀ (loadOrCreateManifest config o known now fresh) s := by
  have hfound : createIfNothing config o now fresh s = (.ok (), s) := by
    simp [createIfNothing, readsNothing, readFile, ho, h.pointer]
  have hpointer : Ends (readFile o.pointerReread .manifestPointer) (fun content s' =>
      content = .pointer ⟨m₀.generation, .manifest m₀.generation⟩ ∧ s' = s) (fun s' => s' = s) s := by
    refine ends_readFile (fun content hget => ⟨?_, rfl⟩) rfl
    exact Option.some.inj (hget.symm.trans h.pointer)
  have hload : LoadsNamed m₀ (loadManifest config o known) s := by
    refine ends_bind hpointer ?_
    rintro content s₁ ⟨rfl, rfl⟩
    refine loadsNamed_decode h (ends_bind (ends_of_quiet (quiet_raiseSome _)) ?_)
    rintro _ s₂ rfl
    refine ends_bind (ends_of_quiet (quiet_assertExpectedMeshId _)) ?_
    rintro _ s₃ rfl
    exact ends_pure ⟨rfl, rfl⟩
  rw [LoadsNamed, loadOrCreateManifest, Ends, bind_of_ok hfound]
  exact hload

theorem Python.loadsNamed (h : Registered m₀ s.objects) :
    LoadsNamed m₀ (loadOrCreateManifest config o known now fresh) s := by
  have hpointer : Ends (readPointerIfExists o) (fun content s' =>
      content = some (.pointer ⟨m₀.generation, .manifest m₀.generation⟩) ∧ s' = s)
      (fun s' => s' = s) s := by
    rw [Ends, readPointerIfExists]
    cases o.pointerRead <;> simp [readFile, h.pointer]
  refine ends_bind hpointer ?_
  rintro content s₁ ⟨rfl, rfl⟩
  refine ends_bind (P := fun m s' => m = m₀ ∧ s' = s₁) ?_ ?_
  · refine loadsNamed_decode h (ends_bind (ends_of_quiet (quiet_raiseSome _)) ?_)
    rintro _ s₂ rfl
    exact ends_pure ⟨rfl, rfl⟩
  · rintro m s₂ ⟨rfl, rfl⟩
    rw [checkManifest]
    refine ends_bind (ends_of_quiet (quiet_raiseSome _)) ?_
    rintro _ s₃ rfl
    split_ifs
    · exact ends_raise rfl
    · refine ends_bind (ends_of_quiet (quiet_localStore _)) ?_
      rintro _ s₄ rfl
      exact ends_raise rfl
    · refine ends_bind (ends_of_quiet (quiet_localStore _)) ?_
      rintro _ s₄ rfl
      refine ends_bind (ends_of_quiet (quiet_localStore _)) ?_
      rintro _ s₅ rfl
      exact ends_pure ⟨rfl, rfl⟩

theorem Swift.ends_reload {calls : List LoadCall} {stored : Option Text} {held : Option Manifest}
    (h : Registered m₀ s.objects) (ho : ∀ call ∈ calls, call.outcomes.pointerRead = .answered) :
    Ends (reload config calls stored held) (fun _ s' => s' = s) (fun s' => s' = s) s := by
  induction calls generalizing stored held with
  | nil => exact ends_pure rfl
  | cons call calls ih =>
    rw [reload]
    refine ends_bind (Swift.loadsNamed h (ho call List.mem_cons_self)) ?_
    rintro m s' ⟨rfl, rfl⟩
    exact ih fun c hc => ho c (List.mem_cons_of_mem _ hc)

end Loading

/-! ## What a compaction publishes -/

section Publishing

variable {config : NativeConfig} {m₀ manifest : Manifest} {c : Capture} {lineage : Option ℤ}
  {s : Mailroom}

theorem sameRegistry_foldl_erase {paths : List ObjectPath}
    (h : ∀ path ∈ paths, path.isRegistry = false) (objects : Objects) :
    SameRegistry objects (paths.foldl Record.erase objects) := by
  induction paths generalizing objects with
  | nil => exact SameRegistry.refl _
  | cons path paths ih =>
    have hfirst := sameRegistry_erase (h path List.mem_cons_self) objects
    exact hfirst.trans (ih (fun q hq => h q (List.mem_cons_of_mem _ hq)) _)

theorem isRegistry_superseded {objects : Objects} {active path : ObjectPath} {covered : List Text}
    (h : path ∈ superseded objects active covered) : path.isRegistry = false := by
  rcases List.mem_append.mp h with hchange | hsnapshot
  · obtain ⟨name, -, rfl⟩ := List.mem_map.mp hchange
    rfl
  · have hs : path.isSnapshot = true :=
      (Bool.and_eq_true_iff.mp (List.mem_filter.mp hsnapshot).2).1
    cases path with
    | snapshot epoch serverId => rfl
    | _ => exact absurd hs (by simp [ObjectPath.isSnapshot])

theorem ends_cleanup {deletes : ObjectPath → Bool} {active : ObjectPath} {covered : List Text}
    {I : Objects → Prop} (hI : ∀ objects objects', SameRegistry objects objects' → I objects →
      I objects') (h : I s.objects) {Q : Mailroom → Prop} :
    Ends (cleanup deletes active covered) (fun _ s' => I s'.objects) Q s := by
  refine ⟨fun _ s' heq => ?_, fun e s' heq => absurd (congrArg Prod.fst heq) (by simp [cleanup])⟩
  obtain ⟨-, rfl⟩ := Prod.mk.inj heq
  refine hI _ _ (sameRegistry_foldl_erase (fun path hpath => ?_) _) h
  exact isRegistry_superseded (List.mem_filter.mp hpath).1

/-- **A publication that moves forward** ends with the next manifest named, or throws and leaves
the old one or the next one. -/
theorem ends_publish {o : PublishOutcomes} {meshId : Text} (h : Registered m₀ s.objects)
    (hmoves : MovesForward m₀ (nextManifest manifest config.serverId c lineage)) :
    Ends (publish config o manifest meshId c lineage) (fun _ s' => Forwarded m₀ s'.objects)
      (fun s' => Progressed m₀ s'.objects) s := by
  rw [publish]
  have hsame : SameRegistry s.objects (s.objects.set
      (.snapshot (manifest.epoch + 1) config.serverId)
      (.snapshot meshId (capturedSnapshot manifest c))) := sameRegistry_set rfl _ _
  refine ends_bind (P := fun _ s' => Registered m₀ s'.objects)
    (ends_writeFile (h.same hsame) (.inl h) (.inl (h.same hsame))) fun _ s₁ h₁ => ?_
  have hstaged := h₁.stage hmoves.generation.ne
  refine ends_bind (P := fun _ s' => Staged m₀ (nextManifest manifest config.serverId c lineage)
    s'.objects) (ends_writeFile hstaged (.inl h₁) (.inl hstaged.current)) fun _ s₂ h₂ => ?_
  have hforward : Forwarded m₀ (s₂.objects.set .manifestPointer (.pointer ⟨_, .manifest _⟩)) :=
    ⟨_, h₂.point, hmoves⟩
  refine ends_bind (P := fun _ s' => Forwarded m₀ s'.objects)
    (ends_writeFile hforward (.inl h₂.current) (.inr hforward)) fun _ s₃ h₃ => ?_
  refine ends_bind (P := fun _ s' => Forwarded m₀ s'.objects)
    (ends_localStore h₃ (.inr h₃)) fun _ s₄ h₄ => ?_
  refine ends_bind (P := fun _ s' => Forwarded m₀ s'.objects)
    (ends_cleanup (fun _ _ hsame h => h.same hsame) h₄) fun _ s₅ h₅ => ?_
  refine ends_bind (P := fun _ s' => Forwarded m₀ s'.objects)
    (ends_localStore h₅ (.inr h₅)) fun _ s₆ h₆ => ?_
  exact ends_pure h₆

theorem Python.ends_compact {deviceId : Text} {stored : Option Text} {held : Option Manifest}
    {load : LoadCall} {call : CompactCall} (h : Registered m₀ s.objects) :
    Ends (Python.compact config deviceId stored held load call)
      (fun _ s' => Forwarded m₀ s'.objects) (fun s' => Progressed m₀ s'.objects) s := by
  cases held with
  | none => exact ends_raise (.inl h)
  | some old =>
    refine ends_bind (ends_mono (Python.loadsNamed h) (fun _ _ hx => hx) ?_) ?_
    · rintro s' rfl
      exact .inl h
    rintro manifest s₁ ⟨rfl, rfl⟩
    refine ends_bind (P := fun _ s' => s' = s₁) (ends_raiseSome rfl (.inl h)) ?_
    rintro _ s₂ rfl
    split_ifs
    · exact ends_raise (.inl h)
    · exact ends_publish h ⟨Nat.lt_succ_self _, Nat.lt_succ_self _, rfl, rfl, rfl, rfl, rfl, rfl, rfl⟩

/-- What a Swift engine must hold in memory for its next manifest to move forward. -/
structure UpToDate (held current : Manifest) : Prop where
  generation : held.generation = current.generation
  epoch : current.epoch ≤ held.epoch
  meshId : held.meshId = current.meshId
  createdAt : held.createdAt = current.createdAt
  schema : held.schema = current.schema
  encrypted : held.encrypted = current.encrypted
  server : held.server = current.server
  lineage : resolveManifestLineage current.lineage = 1

/-- **The next manifest of a Swift engine moves forward exactly if** the engine holds the named
manifest, and the mesh has its first lineage. -/
theorem Swift.movesForward_nextManifest_iff {held current : Manifest} {serverId : Text} :
    MovesForward current (nextManifest held serverId c none) ↔ UpToDate held current := by
  constructor
  · intro h
    exact ⟨h.parent, Nat.lt_succ_iff.mp h.epoch, h.meshId, h.createdAt, h.schema, h.encrypted,
      h.server, h.lineage.symm⟩
  · intro h
    exact ⟨Nat.lt_succ_iff.mpr h.generation.ge, Nat.lt_succ_iff.mpr h.epoch, h.generation, h.meshId,
      h.createdAt, h.schema, h.encrypted, h.server, h.lineage.symm⟩

/-- A compaction of a Swift engine moves forward if it is up to date when it is called and finds
the pointer. -/
theorem Swift.ends_compact {deviceId : Text} {stored : Option Text} {held : Manifest}
    {loads : List LoadCall} {call : CompactCall} (h : Registered m₀ s.objects)
    (hheld : UpToDate held m₀) (ho : ∀ l ∈ loads, l.outcomes.pointerRead = .answered) :
    Ends (Swift.compact config deviceId stored (some held) loads call)
      (fun _ s' => Forwarded m₀ s'.objects) (fun s' => Progressed m₀ s'.objects) s := by
  simp only [Swift.compact]
  split_ifs
  · exact ends_raise (.inl h)
  · refine ends_bind (ends_mono (Swift.ends_reload h ho) (fun _ _ hx => hx) ?_) ?_
    · rintro s' rfl
      exact .inl h
    rintro reloaded s₁ rfl
    refine ends_bind (P := fun _ s' => s' = s₁) (ends_raiseSome rfl (.inl h)) ?_
    rintro _ s₂ rfl
    exact ends_publish h (Swift.movesForward_nextManifest_iff.mpr hheld)

end Publishing

/-! ## A fleet of engines -/

/-- The objects of a mesh, and what the Swift engines hold in memory.  What the other engines hold
does not matter: they load before they compact. -/
structure Fleet (ι : Type) where
  objects : Objects
  held : ι → Option Manifest

/-- What happens to a fleet.  A compaction says whether it was completed. -/
inductive Event (ι : Type) where
  | elsewhere
  | swiftLoad (i : ι) (load : LoadCall)
  | pythonLoad
  | coreConnect
  | corePull
  | coreFlush
  | coreAttempt
  | swiftCompact (i : ι) (loads : List LoadCall) (completed : Bool)
  | pythonCompact (completed : Bool)
  | coreCompact (completed : Bool)

/-- The event is a completed compaction. -/
def Event.Completed {ι : Type} : Event ι → Prop
  | .swiftCompact _ _ completed => completed = true
  | .pythonCompact completed => completed = true
  | .coreCompact completed => completed = true
  | _ => False

namespace Fleet

variable {ι : Type} [DecidableEq ι]

/-- One step.  Compactions do not overlap, so each is one step as far as the registry goes; local
writes, and the change files and device records that engines write, are `elsewhere`.  A call of
`compact` in the core that gets past the check of the offline limit is a `coreCompact`, any other
one is a `coreAttempt`. -/
inductive Step : Fleet ι → Event ι → Fleet ι → Prop
  | elsewhere (s : Fleet ι) {objects : Objects} (h : SameRegistry s.objects objects) :
      Step s .elsewhere { s with objects := objects }
  | swiftLoad (s : Fleet ι) (i : ι) (config : NativeConfig) (stored : Option Text)
      (load : LoadCall) {r : Except LoadError Manifest} {room : Mailroom}
      (h : Swift.loadOrCreateManifest config load.outcomes
        ⟨stored, (s.held i).map fun m => m.meshId⟩ load.now load.fresh ⟨s.objects, []⟩ = (r, room)) :
      Step s (.swiftLoad i load)
        ⟨room.objects, Function.update s.held i (r.toOption.or (s.held i))⟩
  | pythonLoad (s : Fleet ι) (config : NativeConfig) (known : Known) (load : LoadCall)
      {r : Except LoadError Manifest} {room : Mailroom}
      (h : Python.loadOrCreateManifest config load.outcomes known load.now load.fresh
        ⟨s.objects, []⟩ = (r, room)) :
      Step s .pythonLoad { s with objects := room.objects }
  | coreConnect (s : Fleet ι) {d d' : Device} {r : Except Failure Unit} {w' : Mailbox}
      (h : Prog.Run undisturbed (connect d) ⟨s.objects, []⟩ r d' w') :
      Step s .coreConnect { s with objects := w'.objects }
  | coreFlush (s : Fleet ι) (includePendingBatch : Bool) {d d' : Device} {r : Except Failure Unit}
      {w' : Mailbox}
      (h : Prog.Run undisturbed (flushQueued includePendingBatch d) ⟨s.objects, []⟩ r d' w') :
      Step s .coreFlush { s with objects := w'.objects }
  | corePull (s : Fleet ι) {d d' : Device} {r : Except Failure Unit} {w' : Mailbox}
      (h : Prog.Run undisturbed (pullNow d) ⟨s.objects, []⟩ r d' w') :
      Step s .corePull { s with objects := w'.objects }
  | coreAttempt (s : Fleet ι) {d d' : Device} {r : Except Failure Unit} {w' : Mailbox}
      (h : Prog.Run undisturbed (Interocitor.compact d) ⟨s.objects, []⟩ r d' w') :
      Step s .coreAttempt { s with objects := w'.objects }
  | swiftCompact (s : Fleet ι) (i : ι) (config : NativeConfig) (deviceId : Text)
      (stored : Option Text) (loads : List LoadCall) (call : CompactCall)
      {r : Except LoadError Manifest} {room : Mailroom} (held' : Option Manifest)
      (h : Swift.compact config deviceId stored (s.held i) loads call ⟨s.objects, []⟩ = (r, room))
      (hheld : ∀ m, r = .ok m → held' = some m) :
      Step s (.swiftCompact i loads r.isOk) ⟨room.objects, Function.update s.held i held'⟩
  | pythonCompact (s : Fleet ι) (config : NativeConfig) (deviceId : Text) (stored : Option Text)
      (held : Option Manifest) (load : LoadCall) (call : CompactCall)
      {r : Except LoadError Manifest} {room : Mailroom}
      (h : Python.compact config deviceId stored held load call ⟨s.objects, []⟩ = (r, room)) :
      Step s (.pythonCompact r.isOk) { s with objects := room.objects }
  | coreCompact (s : Fleet ι) {d d₁ d₂ d' : Device} {w₁ w₂ w' : Mailbox} {bootstrapped : Bool}
      {r : Except Failure Unit}
      (hload : Prog.Run undisturbed (doLoadOrCreateManifest true {} d) ⟨s.objects, []⟩
        (.ok bootstrapped) d₁ w₁)
      (hcheck : Prog.Run undisturbed (quarantineExpiredOfflineWrites d₁) w₁ (.ok false) d₂ w₂)
      (hrun : Prog.Run undisturbed (compactUnfenced d₂) w₂ r d' w') :
      Step s (.coreCompact r.isOk) { s with objects := w'.objects }

/-- A step is careful: a Swift engine finds the pointer when it loads, and is up to date when it
compacts. -/
def Careful (s : Fleet ι) : Event ι → Prop
  | .swiftLoad _ load => load.outcomes.pointerRead = .answered
  | .swiftCompact i loads _ => (∀ l ∈ loads, l.outcomes.pointerRead = .answered) ∧
      ∃ held m, s.held i = some held ∧ Registered m s.objects ∧ UpToDate held m
  | _ => True

/-- A careful run. -/
inductive Runs : Fleet ι → Fleet ι → Prop
  | refl (s : Fleet ι) : Runs s s
  | step {s s' s'' : Fleet ι} {e : Event ι} (h : Runs s s') (hstep : Step s' e s'')
      (hcareful : Careful s' e) : Runs s s''

variable {s s' : Fleet ι} {e : Event ι} {m : Manifest}

theorem progressed_of_ends {α : Type} {x : Act α} {room room' : Mailroom} {r : Except LoadError α}
    (h : Ends x (fun _ s' => Forwarded m s'.objects) (fun s' => Progressed m s'.objects) room)
    (heq : x room = (r, room')) :
    Progressed m room'.objects ∧ (r.isOk = true → Forwarded m room'.objects) := by
  cases r with
  | ok a =>
    have hforward := h.1 a room' heq
    exact ⟨.inr hforward, fun _ => hforward⟩
  | error e => exact ⟨h.2 e room' heq, fun hok => absurd hok Bool.noConfusion⟩

theorem objects_of_loadsNamed {x : Act Manifest} {room room' : Mailroom}
    {r : Except LoadError Manifest} (h : LoadsNamed m x room) (heq : x room = (r, room')) :
    room' = room := by
  cases r with
  | ok a => exact (h.1 a room' heq).2
  | error e => exact h.2 e room' heq

/-- **One careful step.**  The pointer names the old manifest or one that moves forward, and after
a completed compaction the latter. -/
theorem step_progressed (hstep : Step s e s') (hcareful : Careful s e)
    (h : Registered m s.objects) :
    Progressed m s'.objects ∧ (e.Completed → Forwarded m s'.objects) := by
  cases hstep with
  | elsewhere hsame => exact ⟨.inl (h.same hsame), False.elim⟩
  | swiftLoad i config stored load hload =>
    have hroom := objects_of_loadsNamed (Swift.loadsNamed h hcareful) hload
    exact ⟨.inl (hroom ▸ h), False.elim⟩
  | pythonLoad config known load hload =>
    have hroom := objects_of_loadsNamed (Python.loadsNamed h) hload
    exact ⟨.inl (hroom ▸ h), False.elim⟩
  | coreConnect hrun => exact ⟨.inl (registered_of_connect h hrun), False.elim⟩
  | coreFlush includePendingBatch hrun =>
    exact ⟨.inl (registered_of_flushQueued h hrun), False.elim⟩
  | corePull hrun => exact ⟨.inl (registered_of_pullNow h hrun), False.elim⟩
  | coreAttempt hrun => exact ⟨progressed_of_compact h hrun, False.elim⟩
  | swiftCompact i config deviceId stored loads call held' hcall hheld =>
    obtain ⟨hfound, held, m', hi, hm', hdate⟩ := hcareful
    obtain rfl := h.unique hm'
    rw [hi] at hcall
    exact progressed_of_ends (Swift.ends_compact h hdate hfound) hcall
  | pythonCompact config deviceId stored held load call hcall =>
    exact progressed_of_ends (Python.ends_compact h) hcall
  | coreCompact hload hcheck hrun => exact forwarded_of_compactUnfenced h hload hcheck hrun

theorem runs_progressed {s₀ : Fleet ι} (hrun : Runs s₀ s) (h : Registered m s₀.objects) :
    ∃ m', Registered m' s.objects ∧ Relation.ReflTransGen MovesForward m m' := by
  induction hrun with
  | refl => exact ⟨m, h, .refl⟩
  | step _ hstep hcareful ih =>
    obtain ⟨m', hm', hchain⟩ := ih
    rcases (step_progressed hstep hcareful hm').1 with hsame | ⟨m'', hm'', hmoves⟩
    · exact ⟨m', hsame, hchain⟩
    · exact ⟨m'', hm'', hchain.tail hmoves⟩

/-- **Compactions move the mesh forward.**  In every careful run of engines of all three kinds, from
any mesh: at every step the pointer names a manifest that came about by moves forward, and a
completed compaction publishes one that moves forward from the one that the pointer named when it
started.  What is asked of a Swift engine is exactly what its next manifest needs. -/
theorem fleet_moves_forward {s₀ : Fleet ι} (hrun : Runs s₀ s) (h : Registered m s₀.objects)
    (hstep : Step s e s') (hcareful : Careful s e) :
    (∃ m', Registered m' s.objects ∧ Relation.ReflTransGen MovesForward m m' ∧
      Progressed m' s'.objects ∧ (e.Completed → Forwarded m' s'.objects)) ∧
    ∀ (held current : Manifest) (serverId : Text) (c : Capture),
      MovesForward current (nextManifest held serverId c none) ↔ UpToDate held current := by
  refine ⟨?_, fun _ _ _ _ => Swift.movesForward_nextManifest_iff⟩
  obtain ⟨m', hm', hchain⟩ := runs_progressed hrun h
  obtain ⟨hprogress, hcompleted⟩ := step_progressed hstep hcareful hm'
  exact ⟨m', hm', hchain, hprogress, hcompleted⟩

end Fleet

/-! ## A Swift engine that is behind -/

/-- The first manifest of a mesh, of the given lineage. -/
def meshManifest (lineage : Option ℤ) : Manifest :=
  let payload := { (firstManifest plainConfig 7 [109]).toManifestPayload with lineage := lineage }
  { payload with contentHash := computeContentHash payload }

/-- A mesh with that manifest. -/
def meshOf (lineage : Option ℤ) : Objects :=
  Record.set (Record.set ∅ (.rootFile (.manifest 1)) (.manifest (meshManifest lineage)))
    .manifestPointer (.pointer ⟨1, .manifest 1⟩)

theorem registered_meshOf (lineage : Option ℤ) :
    Registered (meshManifest lineage) (meshOf lineage) := by
  refine ⟨Record.get_set_self _ _ _, ?_⟩
  rw [meshOf, Record.get_set_ne _ _ (by simp)]
  exact Record.get_set_self _ _ _

/-- A load in which nothing fails. -/
def goodLoad : LoadCall := ⟨allWell, 8, [110]⟩

/-- A compaction in which nothing fails, of an empty store. -/
def goodCall : CompactCall where
  syncFails := none
  capture := ⟨9, [115], hlcInit 9 [97], [], []⟩
  outcomes := ⟨.done, .done, .done, true, fun _ => true, true⟩

/-- The objects after a Python engine has compacted that mesh. -/
def afterPython (lineage : Option ℤ) : Mailroom :=
  (Python.compact plainConfig [97] none (some (meshManifest lineage)) goodLoad goodCall
    ⟨meshOf lineage, []⟩).2

/-- The objects after a Swift engine has compacted, with the first manifest in memory. -/
def afterSwift (lineage : Option ℤ) (objects : Objects) : Mailroom :=
  (Swift.compact plainConfig [98] none (some (meshManifest lineage)) [goodLoad] goodCall
    ⟨objects, []⟩).2

theorem step_afterPython (lineage : Option ℤ) (held : Unit → Option Manifest)
    (hok : (Python.compact plainConfig [97] none (some (meshManifest lineage)) goodLoad goodCall
      ⟨meshOf lineage, []⟩).1.isOk = true) :
    Fleet.Step ⟨meshOf lineage, held⟩ (.pythonCompact true)
      ⟨(afterPython lineage).objects, held⟩ := by
  have hstep := Fleet.Step.pythonCompact (⟨meshOf lineage, held⟩ : Fleet Unit) plainConfig [97] none
    (some (meshManifest lineage)) goodLoad goodCall (Prod.mk.eta).symm
  rw [hok] at hstep
  exact hstep

theorem step_afterSwift (lineage : Option ℤ) (objects : Objects)
    (hok : (Swift.compact plainConfig [98] none (some (meshManifest lineage)) [goodLoad] goodCall
      ⟨objects, []⟩).1.isOk = true) :
    ∃ held, Fleet.Step ⟨objects, fun _ : Unit => some (meshManifest lineage)⟩
      (.swiftCompact () [goodLoad] true) ⟨(afterSwift lineage objects).objects, held⟩ := by
  have hstep := Fleet.Step.swiftCompact
    (⟨objects, fun _ => some (meshManifest lineage)⟩ : Fleet Unit) () plainConfig [98] none
    [goodLoad] goodCall (Swift.compact plainConfig [98] none (some (meshManifest lineage))
      [goodLoad] goodCall ⟨objects, []⟩).1.toOption (Prod.mk.eta).symm
    (fun m hm => by rw [hm]; rfl)
  rw [hok] at hstep
  exact ⟨_, hstep⟩

/-- The Swift engine has loaded the manifest of the mesh. -/
theorem runs_swiftLoad (lineage : Option ℤ)
    (hok : (Swift.loadOrCreateManifest plainConfig allWell ⟨none, none⟩ 8 [110]
      ⟨meshOf lineage, []⟩) = (.ok (meshManifest lineage), ⟨meshOf lineage, []⟩)) :
    Fleet.Runs (⟨meshOf lineage, fun _ : Unit => none⟩)
      ⟨meshOf lineage, fun _ => some (meshManifest lineage)⟩ := by
  have hstep := Fleet.Step.swiftLoad (⟨meshOf lineage, fun _ => none⟩ : Fleet Unit) () plainConfig
    none goodLoad hok
  have hheld : Function.update (fun _ : Unit => (none : Option Manifest)) ()
      (some (meshManifest lineage)) = fun _ => some (meshManifest lineage) := by
    ext i
    rw [Function.update_self]
  rw [show (Except.ok (meshManifest lineage) : Except LoadError Manifest).toOption.or none =
    some (meshManifest lineage) from rfl, hheld] at hstep
  exact (Fleet.Runs.refl _).step hstep rfl

/-- What an engine publishes from the first manifest. -/
def secondManifest (lineage lineage' : Option ℤ) : Manifest :=
  nextManifest (meshManifest lineage) plainConfig.serverId goodCall.capture lineage'

/-- **A Swift engine goes back.**  It loads the manifest of a mesh, a Python engine compacts, and the
Swift engine compacts from what it has in memory: it publishes the generation and the epoch that are
named already.  And it leaves the third lineage of a mesh for the first. -/
theorem swift_compacts_from_memory :
    (∃ (s₀ s s' : Fleet Unit) (e : Event Unit) (m : Manifest), Fleet.Runs s₀ s ∧
      Fleet.Step s e s' ∧ e.Completed ∧ Registered m s.objects ∧ ¬ Forwarded m s'.objects ∧
      ∃ m', Registered m' s'.objects ∧ m'.generation = m.generation ∧ m'.epoch = m.epoch) ∧
    ∃ (s₀ s s' : Fleet Unit) (e : Event Unit) (m : Manifest), Fleet.Runs s₀ s ∧
      Fleet.Step s e s' ∧ e.Completed ∧ Registered m s.objects ∧ ¬ Forwarded m s'.objects ∧
      ∃ m', Registered m' s'.objects ∧
        resolveManifestLineage m'.lineage ≠ resolveManifestLineage m.lineage := by
  constructor
  · obtain ⟨held, hswift⟩ := step_afterSwift none (afterPython none).objects rfl
    have hrun := (runs_swiftLoad none rfl).step (step_afterPython none _ rfl) trivial
    have hbefore : Registered (secondManifest none none) (afterPython none).objects := ⟨rfl, rfl⟩
    have hafter : Registered (secondManifest none none)
        (afterSwift none (afterPython none).objects).objects := ⟨rfl, rfl⟩
    refine ⟨_, _, _, _, _, hrun, hswift, rfl, hbefore, ?_, _, hafter, rfl, rfl⟩
    rintro ⟨m', hm', hmoves⟩
    obtain rfl := hafter.unique hm'
    exact absurd hmoves.generation (lt_irrefl _)
  · obtain ⟨held, hswift⟩ := step_afterSwift (some 3) (meshOf (some 3)) rfl
    have hafter : Registered (secondManifest (some 3) none)
        (afterSwift (some 3) (meshOf (some 3))).objects := ⟨rfl, rfl⟩
    have hlineage : resolveManifestLineage (secondManifest (some 3) none).lineage ≠
        resolveManifestLineage (meshManifest (some 3)).lineage := by decide
    refine ⟨_, _, _, _, _, runs_swiftLoad (some 3) rfl, hswift, rfl, registered_meshOf _, ?_, _,
      hafter, hlineage⟩
    rintro ⟨m', hm', hmoves⟩
    obtain rfl := hafter.unique hm'
    exact hlineage hmoves.lineage

/-- A Swift engine that is up to date, in the first lineage of a mesh. -/
theorem up_to_date_swift_moves_forward :
    ∃ (s s' : Fleet Unit), Fleet.Step s (.swiftCompact () [goodLoad] true) s' ∧
      ∃ m, Registered m s.objects ∧ Forwarded m s'.objects := by
  obtain ⟨held, hswift⟩ := step_afterSwift none (meshOf none) rfl
  have hcareful : Fleet.Careful (⟨meshOf none, fun _ => some (meshManifest none)⟩ : Fleet Unit)
      (.swiftCompact () [goodLoad] true) := by
    refine ⟨fun l hl => ?_, _, _, rfl, registered_meshOf none, ⟨rfl, le_refl _, rfl, rfl, rfl, rfl,
      rfl, by decide⟩⟩
    rw [List.mem_singleton.mp hl]
    rfl
  obtain ⟨⟨m, hm, -, -, hforward⟩, -⟩ := Fleet.fleet_moves_forward (runs_swiftLoad none rfl)
    (registered_meshOf none) hswift hcareful
  exact ⟨_, _, hswift, m, hm, hforward rfl⟩

end Interocitor.Native
