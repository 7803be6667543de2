import Interocitor.Core.Manifest
import Interocitor.Native.Hlc

/-!
# The native engines: loading the manifest

The Swift engine (`SyncEngine.swift`) and the Python engine (`engine.py`) load the manifest on
every pull, flush, connect and rehydrate, and create the first manifest of a mesh when they
find none.  Both mint a fresh mesh id then, whatever mesh the device was part of, and check it
against the stored id only after both objects are written.

They differ in what "find none" means.  Swift reads the pointer with `try?`, so every failure of
the read --- a broken connection, a cancelled task --- counts as absence.  Python looks at the
error, but takes a pointer with the text `null` for an absent one.

One call is a function of what the adapter and the local store do at each `await`: the
`Outcomes`.  An exception leaves behind what was written before it.

* `Swift.loadOrCreateManifest`, `Python.loadOrCreateManifest`.
* `Faithful`: a call bootstraps only a mesh that is not there, under the id that the device knows,
  and changes nothing when it raises.
* `Swift.faithful_iff`, `Python.faithful_iff`: exactly when a call is faithful.
-/

namespace Interocitor.Native

open CodeUnits OrderedRecord

/-! ## Calls -/

/-- Why a call fails. -/
inductive LoadError where
  | missing
  | transient
  | cancelled
  | malformed
  | contentHashMismatch
  | manifestVersionUnsupported
  | invalidRetention
  | schemaMismatch
  | meshEncryptionMismatch
  | unauthorized
  | missingMeshId
  | meshMismatch
  | meshNotFound
  | adapterRequired
  | compactionNotAllowed
  | localStore
  deriving DecidableEq

/-- What becomes of a read: it tells the truth, or it fails, or it is cancelled. -/
inductive ReadOutcome where
  | answered
  | failed
  | cancelled
  deriving DecidableEq

/-- What becomes of a write: it is done, or it fails --- with or without an effect. -/
inductive WriteOutcome where
  | done
  | failed (applied : Bool)
  deriving DecidableEq

/-- What the adapter and the local store do at each `await` of a call. -/
structure Outcomes where
  pointerRead : ReadOutcome
  manifestWrite : WriteOutcome
  pointerWrite : WriteOutcome
  pointerReread : ReadOutcome
  manifestRead : ReadOutcome
  getMeta : Bool
  setMeta : Bool
  deriving DecidableEq

/-- The objects of a mesh, and what the call has written. -/
structure Mailroom where
  objects : Objects
  trail : List (ObjectPath × Content)

/-- A part of a call: a value or an exception, and what it leaves behind. -/
def Act (α : Type) : Type := Mailroom → Except LoadError α × Mailroom

instance : Monad Act where
  pure a s := (.ok a, s)
  bind x f s :=
    match x s with
    | (.ok a, s') => f a s'
    | (.error e, s') => (.error e, s')

theorem pure_apply {α : Type} (a : α) (s : Mailroom) : (pure a : Act α) s = (.ok a, s) := rfl

theorem bind_apply {α β : Type} (x : Act α) (f : α → Act β) (s : Mailroom) :
    (x >>= f) s =
      match x s with
      | (.ok a, s') => f a s'
      | (.error e, s') => (.error e, s') :=
  rfl

theorem bind_of_ok {α β : Type} {x : Act α} {f : α → Act β} {s s' : Mailroom} {a : α}
    (h : x s = (.ok a, s')) : (x >>= f) s = f a s' := by
  rw [bind_apply, h]

theorem bind_of_error {α β : Type} {x : Act α} {f : α → Act β} {s s' : Mailroom} {e : LoadError}
    (h : x s = (.error e, s')) : (x >>= f) s = (.error e, s') := by
  rw [bind_apply, h]

/-- `throw`, `raise`. -/
def raise {α : Type} (e : LoadError) : Act α := fun s => (.error e, s)

/-- `adapter.readFile`. -/
def readFile (o : ReadOutcome) (path : ObjectPath) : Act Content := fun s =>
  match o with
  | .failed => (.error .transient, s)
  | .cancelled => (.error .cancelled, s)
  | .answered =>
    match s.objects.get path with
    | some content => (.ok content, s)
    | none => (.error .missing, s)

/-- A write takes effect. -/
def Mailroom.write (s : Mailroom) (path : ObjectPath) (content : Content) : Mailroom :=
  ⟨s.objects.set path content, (path, content) :: s.trail⟩

/-- `adapter.writeFile`. -/
def writeFile (o : WriteOutcome) (path : ObjectPath) (content : Content) : Act Unit := fun s =>
  match o with
  | .done => (.ok (), s.write path content)
  | .failed applied => (.error .transient, if applied then s.write path content else s)

/-- The local store may fail. -/
def localStore (works : Bool) : Act Unit := fun s =>
  (if works then .ok () else .error .localStore, s)

/-- Decode a pointer. -/
def decodePointer : Content → Act ManifestPointer
  | .pointer p => pure p
  | _ => raise .malformed

/-- Decode a manifest; both engines want both durations of a retention policy. -/
def decodeManifest : Content → Act Manifest
  | .manifest m =>
    if m.retention.all fun r => r.compactAfterMs.isSome && r.maxOfflineDurationMs.isSome then pure m
    else raise .malformed
  | _ => raise .malformed

/-! ## The bootstrap -/

/-- The configuration of a native engine, as far as loading reads it. -/
structure NativeConfig where
  schemaVersion : Option ℕ
  serverId : Text
  serverManaged : Bool
  encrypted : Bool
  requireExistingMesh : Bool
  expectedMeshId : Option Text

/-- The first manifest of a mesh, the same in both engines: without retention and lineage. -/
def firstManifest (config : NativeConfig) (now : ℕ) (meshId : Text) : Manifest :=
  let payload : ManifestPayload :=
    { generation := 1
      parentGeneration := 0
      writtenBy := config.serverId
      writtenAt := now
      version := 3
      meshId := meshId
      schema := config.schemaVersion.getD 1
      encrypted := config.encrypted
      server := ⟨config.serverManaged, config.serverId⟩
      createdAt := now
      epoch := 0
      watermarkHlc := []
      snapshotPath := none
      retention := none
      lineage := none }
  { payload with contentHash := computeContentHash payload }

/-- `createBootstrapManifest` and `_create_manifest`, with a fresh mesh id. -/
def createBootstrapManifest (config : NativeConfig) (o : Outcomes) (now : ℕ) (fresh : Text) :
    Act Manifest := do
  let manifest := firstManifest config now fresh
  writeFile o.manifestWrite (.rootFile (.manifest 1)) (.manifest manifest)
  writeFile o.pointerWrite .manifestPointer (.pointer ⟨1, .manifest 1⟩)
  pure manifest

/-- Raise, if there is something to object. -/
def raiseSome : Option LoadError → Act Unit
  | some e => raise e
  | none => pure ()

/-- A duration of a retention policy is not positive. -/
def hasBadRetention (m : Manifest) : Bool :=
  m.retention.any fun r =>
    decide (r.compactAfterMs.getD 0 ≤ 0 ∨ r.maxOfflineDurationMs.getD 0 ≤ 0)

/-- A mesh id conflicts with an expected one. -/
def differs (expected : Option Text) (meshId : Text) : Bool :=
  (truthy expected).any fun e => decide (e ≠ meshId)

/-- What a device knows of its mesh: the id in its store, and the manifest in memory. -/
structure Known where
  stored : Option Text
  held : Option Text

namespace Swift

/-- What `validateManifest` objects to; the hash is symbolic. -/
def manifestObjection (config : NativeConfig) (m : Manifest) : Option LoadError :=
  if m.contentHash ≠ computeContentHash m.toManifestPayload then some .contentHashMismatch
  else if m.version ≠ 3 then some .manifestVersionUnsupported
  else if hasBadRetention m then some .invalidRetention
  else if config.schemaVersion.any fun v => decide (m.schema ≠ v) then some .schemaMismatch
  else if m.encrypted ≠ config.encrypted then some .meshEncryptionMismatch
  else if m.server.managed ∧ m.writtenBy ≠ config.serverId then some .unauthorized
  else none

/-- `assertExpectedMeshId`. -/
def assertExpectedMeshId (o : Outcomes) (known : Known) (meshId : Text) : Act Unit := do
  if meshId = [] then raise .missingMeshId
  else if known.held.any fun e => decide (e ≠ meshId) then raise .meshMismatch
  else
    localStore o.getMeta
    if differs known.stored meshId then raise .meshMismatch
    else localStore o.setMeta

/-- `(try? await adapter.readFile(path: p.manifestPointer)) == nil`. -/
def readsNothing (o : Outcomes) (s : Mailroom) : Bool :=
  match readFile o.pointerRead .manifestPointer s with
  | (.ok _, _) => false
  | (.error _, _) => true

/-- The part of `loadOrCreateManifest` that creates. -/
def createIfNothing (config : NativeConfig) (o : Outcomes) (now : ℕ) (fresh : Text) : Act Unit :=
  fun s =>
    if readsNothing o s then (createBootstrapManifest config o now fresh >>= fun _ => pure ()) s
    else (.ok (), s)

/-- The part of `loadOrCreateManifest` that loads. -/
def loadManifest (config : NativeConfig) (o : Outcomes) (known : Known) : Act Manifest := do
  let pointer ← decodePointer (← readFile o.pointerReread .manifestPointer)
  let loaded ← decodeManifest (← readFile o.manifestRead (.rootFile pointer.file))
  raiseSome (manifestObjection config loaded)
  assertExpectedMeshId o known loaded.meshId
  pure loaded

/-- `loadOrCreateManifest`. -/
def loadOrCreateManifest (config : NativeConfig) (o : Outcomes) (known : Known) (now : ℕ)
    (fresh : Text) : Act Manifest := do
  createIfNothing config o now fresh
  loadManifest config o known

end Swift

namespace Python

/-- `_read_json_if_exists` of the pointer: `None` for an absent object and for a JSON `null`; any
other JSON value is decoded. -/
def readPointerIfExists (o : Outcomes) : Act (Option Content) := fun s =>
  match readFile o.pointerRead .manifestPointer s with
  | (.ok .null, s') => (.ok none, s')
  | (.ok .malformed, s') => (.error .malformed, s')
  | (.ok content, s') => (.ok (some content), s')
  | (.error .missing, s') => (.ok none, s')
  | (.error e, s') => (.error e, s')

/-- What `from_wire`, `_validate_manifest_hlcs` and the comparison of the hashes refuse in a manifest
that was read. -/
def loadObjection (m : Manifest) : Option LoadError :=
  if m.lineage.any fun lineage => decide (lineage ≤ 0) then some .malformed
  else if hasBadRetention m then some .invalidRetention
  else if m.watermarkHlc ≠ [] ∧ hlcParse m.watermarkHlc = none then some .malformed
  else if m.contentHash ≠ computeContentHash m.toManifestPayload then some .contentHashMismatch
  else none

/-- What every manifest is checked for. -/
def manifestObjection (config : NativeConfig) (m : Manifest) : Option LoadError :=
  if m.version ≠ 3 then some .manifestVersionUnsupported
  else if m.server.managed ∧ m.writtenBy ≠ config.serverId then some .unauthorized
  else if config.schemaVersion.any fun v => decide (m.schema ≠ v) then some .schemaMismatch
  else if m.encrypted ≠ config.encrypted then some .meshEncryptionMismatch
  else none

/-- The manifest that the pointer names. -/
def loadManifest (o : Outcomes) (content : Content) : Act Manifest := do
  let pointer ← decodePointer content
  let manifest ← decodeManifest (← readFile o.manifestRead (.rootFile pointer.file))
  raiseSome (loadObjection manifest)
  pure manifest

/-- What `_load_or_create_manifest` does with a manifest, loaded or created.  The store fails to
take the mesh id, the cached manifest or the key. -/
def checkManifest (config : NativeConfig) (o : Outcomes) (known : Known) (m : Manifest) :
    Act Manifest := do
  raiseSome (manifestObjection config m)
  if differs config.expectedMeshId m.meshId then raise .meshMismatch
  else
    localStore o.getMeta
    if differs known.stored m.meshId then raise .meshMismatch
    else
      localStore o.setMeta
      pure m

/-- `_load_or_create_manifest`. -/
def loadOrCreateManifest (config : NativeConfig) (o : Outcomes) (known : Known) (now : ℕ)
    (fresh : Text) : Act Manifest := do
  match ← readPointerIfExists o with
  | none =>
    if config.requireExistingMesh then raise .meshNotFound
    else
      let manifest ← createBootstrapManifest config o now fresh
      checkManifest config o known manifest
  | some content =>
    let manifest ← loadManifest o content
    checkManifest config o known manifest

end Python

/-! ## What a call should do -/

/-- A call bootstraps only a mesh that is not there, under the mesh id that the device knows,
and an exception leaves the objects as they were. -/
structure Faithful (before : Objects) (stored : Option Text)
    (r : Except LoadError Manifest × Mailroom) : Prop where
  onlyIfAbsent : r.2.trail ≠ [] → before.get .manifestPointer = none
  keepsMeshId : ∀ id, truthy stored = some id → ∀ path m, (path, .manifest m) ∈ r.2.trail →
    m.meshId = id
  cleanRaise : ∀ e, r.1 = .error e → ∀ path, r.2.objects.get path = before.get path

/-- A minted mesh id is not empty and is used nowhere else. -/
structure Minted (config : NativeConfig) (known : Known) (before : Objects) (fresh : Text) :
    Prop where
  ne_nil : fresh ≠ []
  stored : known.stored ≠ some fresh
  held : known.held ≠ some fresh
  expected : config.expectedMeshId ≠ some fresh
  remote : ∀ m, before.get (.rootFile (.manifest 1)) = some (.manifest m) → m.meshId ≠ fresh

/-- The part writes nothing. -/
def Quiet {α : Type} (x : Act α) : Prop := ∀ s, (x s).2 = s

theorem Quiet.bind {α β : Type} {x : Act α} {f : α → Act β} (hx : Quiet x) (hf : ∀ a, Quiet (f a)) :
    Quiet (x >>= f) := by
  intro s
  have hs := hx s
  cases h : x s with
  | mk r s' =>
    rw [h] at hs
    obtain rfl : s' = s := hs
    cases r with
    | error e => rw [bind_of_error h]
    | ok a =>
      rw [bind_of_ok h]
      exact hf a s'

theorem quiet_pure {α : Type} (a : α) : Quiet (pure a) := fun _ => rfl

theorem quiet_raise {α : Type} (e : LoadError) : Quiet (raise e : Act α) := fun _ => rfl

theorem quiet_readFile (o : ReadOutcome) (path : ObjectPath) : Quiet (readFile o path) := by
  intro s
  cases o with
  | failed => rfl
  | cancelled => rfl
  | answered =>
    simp only [readFile]
    cases s.objects.get path <;> rfl

theorem quiet_localStore (works : Bool) : Quiet (localStore works) := fun _ => rfl

theorem quiet_raiseSome (e : Option LoadError) : Quiet (raiseSome e) := by
  cases e with
  | none => exact quiet_pure ()
  | some e => exact quiet_raise e

theorem quiet_decodePointer (c : Content) : Quiet (decodePointer c) := by
  cases c <;> exact fun _ => rfl

theorem quiet_decodeManifest (c : Content) : Quiet (decodeManifest c) := by
  cases c with
  | manifest m =>
    simp only [decodeManifest]
    split_ifs
    · exact quiet_pure m
    · exact quiet_raise _
  | _ => exact quiet_raise _

theorem faithful_of_quiet {before : Objects} {stored : Option Text}
    {r : Except LoadError Manifest × Mailroom} (h : r.2 = ⟨before, []⟩) :
    Faithful before stored r := by
  refine ⟨fun hne => absurd (by rw [h]) hne, fun id _ path m hm => ?_, fun e _ path => by rw [h]⟩
  rw [h] at hm
  exact absurd hm List.not_mem_nil

/-! ## The bootstrap, step by step -/

section Bootstrap

variable {config : NativeConfig} {o : Outcomes} {known : Known} {now : ℕ} {fresh : Text}
  {before : Objects}

/-- The mailroom after the first write. -/
def firstWritten (config : NativeConfig) (now : ℕ) (fresh : Text) (s : Mailroom) : Mailroom :=
  s.write (.rootFile (.manifest 1)) (.manifest (firstManifest config now fresh))

/-- The mailroom after both writes. -/
def bothWritten (config : NativeConfig) (now : ℕ) (fresh : Text) (s : Mailroom) : Mailroom :=
  (firstWritten config now fresh s).write .manifestPointer (.pointer ⟨1, .manifest 1⟩)

/-- The first manifest stands at its place. -/
def Bootstrapped (config : NativeConfig) (now : ℕ) (fresh : Text) (s : Mailroom) : Prop :=
  s.objects.get (.rootFile (.manifest 1)) = some (.manifest (firstManifest config now fresh)) ∧
    (.rootFile (.manifest 1), .manifest (firstManifest config now fresh)) ∈ s.trail

theorem bootstrapped_firstWritten (s : Mailroom) :
    Bootstrapped config now fresh (firstWritten config now fresh s) :=
  ⟨Record.get_set_self _ _ _, List.mem_cons_self ..⟩

theorem bootstrapped_bothWritten (s : Mailroom) :
    Bootstrapped config now fresh (bothWritten config now fresh s) := by
  refine ⟨?_, List.mem_cons_of_mem _ (List.mem_cons_self ..)⟩
  rw [bothWritten, Mailroom.write, Record.get_set_ne _ _ (by simp)]
  exact (bootstrapped_firstWritten s).1

theorem get_pointer_bothWritten (s : Mailroom) :
    (bothWritten config now fresh s).objects.get .manifestPointer =
      some (.pointer ⟨1, .manifest 1⟩) :=
  Record.get_set_self _ _ _

/-- How a bootstrap ends: without an effect, with an exception after an effect, or well. -/
theorem createBootstrapManifest_cases (config : NativeConfig) (o : Outcomes) (now : ℕ)
    (fresh : Text) (s : Mailroom) :
    (o.manifestWrite = .failed false ∧
      (createBootstrapManifest config o now fresh s) = (.error .transient, s)) ∨
    (o.manifestWrite ≠ .failed false ∧ ¬ (o.manifestWrite = .done ∧ o.pointerWrite = .done) ∧
      ∃ s', (createBootstrapManifest config o now fresh s) = (.error .transient, s') ∧
        Bootstrapped config now fresh s') ∨
    ((o.manifestWrite = .done ∧ o.pointerWrite = .done) ∧
      (createBootstrapManifest config o now fresh s) =
        (.ok (firstManifest config now fresh), bothWritten config now fresh s)) := by
  rw [createBootstrapManifest]
  cases hw : o.manifestWrite with
  | failed applied =>
    cases applied with
    | false => exact .inl ⟨rfl, bind_of_error rfl⟩
    | true =>
      exact .inr (.inl ⟨by simp, by simp, _, bind_of_error rfl, bootstrapped_firstWritten s⟩)
  | done =>
    cases hp : o.pointerWrite with
    | failed applied =>
      refine .inr (.inl ⟨by simp, by simp, ?_⟩)
      cases applied with
      | false => exact ⟨_, rfl, bootstrapped_firstWritten s⟩
      | true => exact ⟨_, rfl, bootstrapped_bothWritten s⟩
    | done => exact .inr (.inr ⟨⟨rfl, rfl⟩, rfl⟩)

theorem not_faithful_of_raise (hmint : Minted config known before fresh) {e : LoadError}
    {s : Mailroom} (hs : Bootstrapped config now fresh s) :
    ¬ Faithful before known.stored (.error e, s) := by
  intro h
  have hsame := h.cleanRaise e rfl (.rootFile (.manifest 1))
  rw [hs.1] at hsame
  exact hmint.remote _ hsame.symm rfl

theorem not_faithful_of_stored (hmint : Minted config known before fresh) {id : Text}
    (hid : truthy known.stored = some id) {r : Except LoadError Manifest} {s : Mailroom}
    (hs : Bootstrapped config now fresh s) : ¬ Faithful before known.stored (r, s) := by
  intro h
  have heq : fresh = id := h.keepsMeshId id hid _ _ hs.2
  exact hmint.stored (by rw [heq]; exact (truthy_eq_some hid).1)

theorem faithful_of_bothWritten (hp : before.get .manifestPointer = none)
    (hstored : truthy known.stored = none) (m : Manifest) (s : Mailroom) :
    Faithful before known.stored (.ok m, s) := by
  refine ⟨fun _ => hp, fun id hid => ?_, fun e he => absurd he (by simp)⟩
  rw [hstored] at hid
  exact absurd hid (by simp)

theorem differs_of_ne {expected : Option Text} {id meshId : Text} (h : truthy expected = some id)
    (hne : expected ≠ some meshId) : differs expected meshId = true := by
  rw [differs, h, Option.any_some, decide_eq_true_eq]
  rintro rfl
  exact hne (truthy_eq_some h).1

theorem differs_of_none {expected : Option Text} {meshId : Text} (h : truthy expected = none) :
    differs expected meshId = false := by
  rw [differs, h, Option.any_none]

theorem Swift.manifestObjection_firstManifest :
    Swift.manifestObjection config (firstManifest config now fresh) = none := by
  cases hv : config.schemaVersion <;>
    simp [Swift.manifestObjection, firstManifest, hasBadRetention, computeContentHash, hv]

theorem Python.manifestObjection_firstManifest :
    Python.manifestObjection config (firstManifest config now fresh) = none := by
  cases hv : config.schemaVersion <;> simp [Python.manifestObjection, firstManifest, hv]

end Bootstrap

/-! ## Swift -/

namespace Swift

variable {config : NativeConfig} {o : Outcomes} {known : Known} {now : ℕ} {fresh : Text}
  {before : Objects}

/-- What a call of the Swift engine needs.  The first read finds the pointer; or nothing is
written, because the first write fails without an effect; or there is no pointer, the device
knows no mesh, and nothing fails. -/
def Safe (o : Outcomes) (known : Known) (before : Objects) : Prop :=
  (o.pointerRead = .answered ∧ before.get .manifestPointer ≠ none) ∨
  o.manifestWrite = .failed false ∨
  (before.get .manifestPointer = none ∧ truthy known.stored = none ∧ known.held = none ∧
    o.manifestWrite = .done ∧ o.pointerWrite = .done ∧ o.pointerReread = .answered ∧
    o.manifestRead = .answered ∧ o.getMeta = true ∧ o.setMeta = true)

theorem quiet_assertExpectedMeshId (meshId : Text) :
    Quiet (assertExpectedMeshId o known meshId) := by
  rw [assertExpectedMeshId]
  split_ifs
  · exact quiet_raise _
  · exact quiet_raise _
  · exact (quiet_localStore _).bind fun _ => quiet_raise _
  · exact (quiet_localStore _).bind fun _ => quiet_localStore _

theorem quiet_loadManifest (config : NativeConfig) (o : Outcomes) (known : Known) :
    Quiet (loadManifest config o known) := by
  refine (quiet_readFile _ _).bind fun c => (quiet_decodePointer c).bind fun p => ?_
  refine (quiet_readFile _ _).bind fun c' => (quiet_decodeManifest c').bind fun m => ?_
  refine (quiet_raiseSome _).bind fun _ => ?_
  exact (quiet_assertExpectedMeshId _).bind fun _ => quiet_pure m

theorem readsNothing_eq_false_iff :
    readsNothing o ⟨before, []⟩ = false ↔
      o.pointerRead = .answered ∧ before.get .manifestPointer ≠ none := by
  rw [readsNothing]
  cases ho : o.pointerRead with
  | failed => simp [readFile]
  | cancelled => simp [readFile]
  | answered => cases hp : before.get .manifestPointer <;> simp [readFile, hp]

/-- After a bootstrap that wrote both objects, loading ends well exactly if nothing fails and
the device knows no mesh. -/
theorem loadManifest_bothWritten (o : Outcomes) (now : ℕ) (hmint : Minted config known before fresh)
    (s : Mailroom) :
    (∃ m, (loadManifest config o known (bothWritten config now fresh s)).1 = .ok m) ↔
      truthy known.stored = none ∧ known.held = none ∧ o.pointerReread = .answered ∧
        o.manifestRead = .answered ∧ o.getMeta = true ∧ o.setMeta = true := by
  have hptr : (bothWritten config now fresh s).objects.get .manifestPointer = _ :=
    get_pointer_bothWritten s
  have hman : (bothWritten config now fresh s).objects.get (.rootFile (.manifest 1)) = _ :=
    (bootstrapped_bothWritten s).1
  have hcheck : manifestObjection config (firstManifest config now fresh) = none :=
    manifestObjection_firstManifest
  have hid : (firstManifest config now fresh).meshId = fresh := rfl
  have hret : (firstManifest config now fresh).retention = none := rfl
  cases hr : o.pointerReread with
  | failed => simp [loadManifest, bind_apply, readFile, hr]
  | cancelled => simp [loadManifest, bind_apply, readFile, hr]
  | answered =>
    cases hm : o.manifestRead with
    | failed => simp [loadManifest, bind_apply, readFile, hr, hm, hptr, decodePointer, pure_apply]
    | cancelled =>
      simp [loadManifest, bind_apply, readFile, hr, hm, hptr, decodePointer, pure_apply]
    | answered =>
      simp only [loadManifest, bind_apply, readFile, hr, hm, hptr, decodePointer, pure_apply, hman,
        decodeManifest, hret, Option.all_none, if_true, raiseSome, hcheck, hid, assertExpectedMeshId,
        hmint.ne_nil, if_false]
      cases hh : known.held with
      | some e =>
        have hne : e ≠ fresh := fun heq => hmint.held (by rw [hh, heq])
        simp [hne, raise]
      | none =>
        cases hs : truthy known.stored with
        | some id =>
          have hd : differs known.stored fresh = true := differs_of_ne hs hmint.stored
          cases o.getMeta <;> simp [bind_apply, localStore, hd, raise]
        | none =>
          have hd : differs known.stored fresh = false := differs_of_none hs
          cases o.getMeta <;> cases o.setMeta <;> simp [bind_apply, localStore, hd]

/-- **A call of the Swift engine is faithful exactly if it is safe.** -/
theorem faithful_iff (hmint : Minted config known before fresh) :
    Faithful before known.stored (loadOrCreateManifest config o known now fresh ⟨before, []⟩) ↔
      Safe o known before := by
  cases hn : readsNothing o ⟨before, []⟩ with
  | false =>
    have hcreate : createIfNothing config o now fresh ⟨before, []⟩ = (.ok (), ⟨before, []⟩) := by
      simp only [createIfNothing, hn, Bool.false_eq_true, if_false]
    rw [loadOrCreateManifest, bind_of_ok hcreate]
    exact ⟨fun _ => .inl (readsNothing_eq_false_iff.mp hn), fun _ =>
      faithful_of_quiet (quiet_loadManifest config o known _)⟩
  | true =>
    have hfirst : ¬ (o.pointerRead = .answered ∧ before.get .manifestPointer ≠ none) := by
      intro h
      rw [← readsNothing_eq_false_iff, hn] at h
      exact absurd h (by simp)
    rw [loadOrCreateManifest]
    have hcreate : createIfNothing config o now fresh ⟨before, []⟩ =
        (createBootstrapManifest config o now fresh >>= fun _ => pure ()) ⟨before, []⟩ := by
      simp only [createIfNothing, hn, if_true]
    rcases createBootstrapManifest_cases config o now fresh ⟨before, []⟩ with ⟨hw, hb⟩ |
      ⟨hw, hnot, s', hb, hs'⟩ | ⟨⟨hw, hp⟩, hb⟩
    · rw [bind_of_error (hcreate.trans (bind_of_error hb))]
      exact ⟨fun _ => .inr (.inl hw), fun _ => faithful_of_quiet rfl⟩
    · rw [bind_of_error (hcreate.trans (bind_of_error hb))]
      refine iff_of_false (not_faithful_of_raise hmint hs') ?_
      rintro (h | h | ⟨-, -, -, h₁, h₂, -⟩)
      · exact hfirst h
      · exact hw h
      · exact hnot ⟨h₁, h₂⟩
    · rw [bind_of_ok (hcreate.trans (bind_of_ok hb))]
      have hboot : Bootstrapped config now fresh (bothWritten config now fresh ⟨before, []⟩) :=
        bootstrapped_bothWritten _
      have hstay := quiet_loadManifest config o known (bothWritten config now fresh ⟨before, []⟩)
      have hload := loadManifest_bothWritten o now hmint ⟨before, []⟩
      generalize loadManifest config o known (bothWritten config now fresh ⟨before, []⟩) = r at hload hstay
      obtain ⟨r, s'⟩ := r
      obtain rfl : s' = _ := hstay
      constructor
      · intro h
        have hstored : truthy known.stored = none := by
          cases hs : truthy known.stored with
          | none => rfl
          | some id => exact absurd h (not_faithful_of_stored hmint hs hboot)
        have habsent : before.get .manifestPointer = none :=
          h.onlyIfAbsent (List.ne_nil_of_mem hboot.2)
        cases r with
        | error e => exact absurd h (not_faithful_of_raise hmint hboot)
        | ok m =>
          obtain ⟨-, hheld, hrest⟩ := hload.mp ⟨m, rfl⟩
          exact .inr (.inr ⟨habsent, hstored, hheld, hw, hp, hrest⟩)
      · rintro (h | h | ⟨habsent, hstored, hheld, -, -, hrest⟩)
        · exact absurd h hfirst
        · rw [hw] at h
          exact absurd h (by simp)
        · obtain ⟨m, hm⟩ := hload.mpr ⟨hstored, hheld, hrest⟩
          obtain rfl : r = .ok m := hm
          exact faithful_of_bothWritten habsent hstored m _

end Swift

/-! ## Python -/

namespace Python

variable {config : NativeConfig} {o : Outcomes} {known : Known} {now : ℕ} {fresh : Text}
  {before : Objects}

/-- What a call of the Python engine needs.  The read of the pointer fails, or finds something
that is not `null`; or the engine only joins existing meshes; or nothing is written, because the
first write fails without an effect; or there is no pointer, the device knows and expects no
mesh, and nothing fails. -/
def Safe (config : NativeConfig) (o : Outcomes) (known : Known) (before : Objects) : Prop :=
  o.pointerRead ≠ .answered ∨
  (o.pointerRead = .answered ∧ before.get .manifestPointer ≠ none ∧
    before.get .manifestPointer ≠ some .null) ∨
  config.requireExistingMesh = true ∨ o.manifestWrite = .failed false ∨
  (before.get .manifestPointer = none ∧ truthy known.stored = none ∧
    truthy config.expectedMeshId = none ∧ o.manifestWrite = .done ∧ o.pointerWrite = .done ∧
    o.getMeta = true ∧ o.setMeta = true)

theorem quiet_loadManifest (c : Content) : Quiet (loadManifest o c) := by
  refine (quiet_decodePointer c).bind fun p => (quiet_readFile _ _).bind fun c' => ?_
  exact (quiet_decodeManifest c').bind fun m => (quiet_raiseSome _).bind fun _ => quiet_pure m

theorem quiet_checkManifest (config : NativeConfig) (o : Outcomes) (known : Known) (m : Manifest) :
    Quiet (checkManifest config o known m) := by
  refine (quiet_raiseSome _).bind fun _ => ?_
  split_ifs
  · exact quiet_raise _
  · exact (quiet_localStore _).bind fun _ => quiet_raise _
  · exact (quiet_localStore _).bind fun _ => (quiet_localStore _).bind fun _ => quiet_pure m

/-- What the read of the pointer gives: an exception, nothing, or something. -/
theorem readPointerIfExists_cases (o : Outcomes) (before : Objects) :
    ((o.pointerRead ≠ .answered ∨ before.get .manifestPointer = some .malformed) ∧
      ∃ e, readPointerIfExists o ⟨before, []⟩ = (.error e, ⟨before, []⟩)) ∨
    (o.pointerRead = .answered ∧
      (before.get .manifestPointer = none ∨ before.get .manifestPointer = some .null) ∧
      readPointerIfExists o ⟨before, []⟩ = (.ok none, ⟨before, []⟩)) ∨
    (o.pointerRead = .answered ∧ before.get .manifestPointer ≠ none ∧
      before.get .manifestPointer ≠ some .null ∧
      ∃ c, readPointerIfExists o ⟨before, []⟩ = (.ok (some c), ⟨before, []⟩)) := by
  cases ho : o.pointerRead with
  | failed => exact .inl ⟨by simp, .transient, by simp [readPointerIfExists, readFile, ho]⟩
  | cancelled => exact .inl ⟨by simp, .cancelled, by simp [readPointerIfExists, readFile, ho]⟩
  | answered =>
    cases hp : before.get .manifestPointer with
    | none => exact .inr (.inl ⟨rfl, .inl rfl, by simp [readPointerIfExists, readFile, ho, hp]⟩)
    | some c =>
      cases c with
      | null => exact .inr (.inl ⟨rfl, .inr rfl, by simp [readPointerIfExists, readFile, ho, hp]⟩)
      | malformed =>
        exact .inl ⟨.inr rfl, .malformed, by simp [readPointerIfExists, readFile, ho, hp]⟩
      | _ =>
        refine .inr (.inr ⟨rfl, by simp, by simp, ?_⟩)
        simp [readPointerIfExists, readFile, ho, hp]

/-- A minted manifest is accepted exactly if nothing fails and no mesh is known or expected. -/
theorem checkManifest_firstManifest (o : Outcomes) (now : ℕ)
    (hmint : Minted config known before fresh) (s : Mailroom) :
    (∃ m, (checkManifest config o known (firstManifest config now fresh) s).1 = .ok m) ↔
      truthy known.stored = none ∧ truthy config.expectedMeshId = none ∧ o.getMeta = true ∧
        o.setMeta = true := by
  have hcheck : manifestObjection config (firstManifest config now fresh) = none :=
    manifestObjection_firstManifest
  have hid : (firstManifest config now fresh).meshId = fresh := rfl
  simp only [checkManifest, bind_apply, raiseSome, hcheck, hid, pure_apply]
  cases he : truthy config.expectedMeshId with
  | some id =>
    have hd : differs config.expectedMeshId fresh = true := differs_of_ne he hmint.expected
    simp [hd, raise]
  | none =>
    have hd : differs config.expectedMeshId fresh = false := differs_of_none he
    cases hs : truthy known.stored with
    | some id =>
      have hd' : differs known.stored fresh = true := differs_of_ne hs hmint.stored
      cases o.getMeta <;> simp [bind_apply, localStore, hd, hd', raise]
    | none =>
      have hd' : differs known.stored fresh = false := differs_of_none hs
      cases o.getMeta <;> cases o.setMeta <;> simp [bind_apply, localStore, hd, hd', pure_apply]

/-- **A call of the Python engine is faithful exactly if it is safe.** -/
theorem faithful_iff (hmint : Minted config known before fresh) :
    Faithful before known.stored (loadOrCreateManifest config o known now fresh ⟨before, []⟩) ↔
      Safe config o known before := by
  rw [loadOrCreateManifest]
  rcases readPointerIfExists_cases o before with
    ⟨hno, e, hread⟩ | ⟨ho, hnone, hread⟩ | ⟨ho, hsome, hnull, c, hread⟩
  · rw [bind_of_error hread]
    refine ⟨fun _ => ?_, fun _ => faithful_of_quiet rfl⟩
    by_cases ho : o.pointerRead = .answered
    · have hbad := hno.resolve_left fun h => h ho
      exact .inr (.inl ⟨ho, by rw [hbad]; simp, by rw [hbad]; simp⟩)
    · exact .inl ho
  · rw [bind_of_ok hread]
    dsimp only
    split_ifs with hjoin
    · exact ⟨fun _ => .inr (.inr (.inl hjoin)), fun _ => faithful_of_quiet rfl⟩
    · have hread' : ¬ (o.pointerRead = .answered ∧ before.get .manifestPointer ≠ none ∧
          before.get .manifestPointer ≠ some .null) := by
        rintro ⟨-, h₁, h₂⟩
        exact hnone.elim h₁ h₂
      rcases createBootstrapManifest_cases config o now fresh ⟨before, []⟩ with
        ⟨hw, hb⟩ | ⟨hw, hnot, s', hb, hs'⟩ | ⟨⟨hw, hp⟩, hb⟩
      · rw [bind_of_error hb]
        exact ⟨fun _ => .inr (.inr (.inr (.inl hw))), fun _ => faithful_of_quiet rfl⟩
      · rw [bind_of_error hb]
        refine iff_of_false (not_faithful_of_raise hmint hs') ?_
        rintro (h | h | h | h | ⟨-, -, -, h₁, h₂, -⟩)
        · exact h ho
        · exact hread' h
        · exact hjoin h
        · exact hw h
        · exact hnot ⟨h₁, h₂⟩
      · rw [bind_of_ok hb]
        have hboot : Bootstrapped config now fresh (bothWritten config now fresh ⟨before, []⟩) :=
          bootstrapped_bothWritten _
        have hstay := quiet_checkManifest config o known (firstManifest config now fresh)
          (bothWritten config now fresh ⟨before, []⟩)
        have hload := checkManifest_firstManifest o now hmint
          (bothWritten config now fresh ⟨before, []⟩)
        generalize checkManifest config o known (firstManifest config now fresh)
          (bothWritten config now fresh ⟨before, []⟩) = r at hload hstay
        obtain ⟨r, s'⟩ := r
        obtain rfl : s' = _ := hstay
        constructor
        · intro h
          have habsent : before.get .manifestPointer = none :=
            h.onlyIfAbsent (List.ne_nil_of_mem hboot.2)
          cases r with
          | error e => exact absurd h (not_faithful_of_raise hmint hboot)
          | ok m =>
            obtain ⟨hstored, hexp, hrest⟩ := hload.mp ⟨m, rfl⟩
            exact .inr (.inr (.inr (.inr ⟨habsent, hstored, hexp, hw, hp, hrest⟩)))
        · rintro (h | h | h | h | ⟨habsent, hstored, hexp, -, -, hrest⟩)
          · exact absurd ho h
          · exact absurd h hread'
          · exact absurd h hjoin
          · rw [hw] at h
            exact absurd h (by simp)
          · obtain ⟨m, hm⟩ := hload.mpr ⟨hstored, hexp, hrest⟩
            obtain rfl : r = .ok m := hm
            exact faithful_of_bothWritten habsent hstored m _
  · rw [bind_of_ok hread]
    dsimp only
    have hquiet : Quiet (loadManifest o c >>= checkManifest config o known) :=
      (quiet_loadManifest c).bind fun m => quiet_checkManifest config o known m
    exact ⟨fun _ => .inr (.inl ⟨ho, hsome, hnull⟩), fun _ => faithful_of_quiet (hquiet _)⟩

end Python

/-! ## Both engines -/

/-- **When a native client leaves an existing mesh alone.**  For every configuration, every
outcome of every `await`, every known mesh and every content of the remote, a call of either
engine is faithful exactly if it is safe; the mesh id that it may mint is new. -/
theorem load_faithful_iff (config : NativeConfig) (o : Outcomes) (known : Known) (now : ℕ)
    (fresh : Text) (before : Objects) (hmint : Minted config known before fresh) :
    (Faithful before known.stored
      (Swift.loadOrCreateManifest config o known now fresh ⟨before, []⟩) ↔
        Swift.Safe o known before) ∧
    (Faithful before known.stored
      (Python.loadOrCreateManifest config o known now fresh ⟨before, []⟩) ↔
        Python.Safe config o known before) :=
  ⟨Swift.faithful_iff hmint, Python.faithful_iff hmint⟩

/-- An engine without a schema and without a key. -/
def plainConfig : NativeConfig := ⟨none, [115], false, false, false, none⟩

/-- Nothing fails. -/
def allWell : Outcomes := ⟨.answered, .done, .done, .answered, .answered, true, true⟩

/-- A mesh with a pointer. -/
def existingMesh : Objects := Record.set ∅ .manifestPointer (.pointer ⟨4, .manifest 4⟩)

theorem minted_existingMesh : Minted plainConfig ⟨none, none⟩ existingMesh [109] := by
  refine ⟨by simp, by simp, by simp, by simp [plainConfig], fun m hm => ?_⟩
  rw [existingMesh, Record.get_set_ne _ _ (by simp)] at hm
  exact absurd hm (by simp)

/-- The Swift engine: the read of an existing pointer fails once, and the pointer is written
over.  The Python engine: a device of the mesh `"k"` finds no pointer, and writes the manifest of
another mesh before it raises. -/
theorem load_replaces_mesh :
    ¬ Faithful existingMesh none (Swift.loadOrCreateManifest plainConfig
      { allWell with pointerRead := .failed } ⟨none, none⟩ 7 [109] ⟨existingMesh, []⟩) ∧
    ¬ Faithful ∅ (some [107]) (Python.loadOrCreateManifest plainConfig allWell
      ⟨some [107], none⟩ 7 [109] ⟨∅, []⟩) := by
  constructor
  · intro h
    have htrail : (Swift.loadOrCreateManifest plainConfig { allWell with pointerRead := .failed }
        ⟨none, none⟩ 7 [109] ⟨existingMesh, []⟩).2.trail ≠ [] := by
      have hlen : (Swift.loadOrCreateManifest plainConfig { allWell with pointerRead := .failed }
        ⟨none, none⟩ 7 [109] ⟨existingMesh, []⟩).2.trail.length = 2 := rfl
      intro hnil
      rw [hnil] at hlen
      exact absurd hlen (by simp)
    have habsent := h.onlyIfAbsent htrail
    rw [existingMesh, Record.get_set_self] at habsent
    exact absurd habsent (by simp)
  · intro h
    have hmem : (ObjectPath.rootFile (.manifest 1), Content.manifest (firstManifest plainConfig 7 [109]))
        ∈ (Python.loadOrCreateManifest plainConfig allWell ⟨some [107], none⟩ 7 [109]
          ⟨∅, []⟩).2.trail := List.mem_cons_of_mem _ (List.mem_cons_self ..)
    have hid := h.keepsMeshId [107] rfl _ _ hmem
    exact absurd hid (by decide)

/-- With a pointer there, both engines leave the mesh alone when nothing fails. -/
theorem load_faithful_existing :
    Faithful existingMesh none (Swift.loadOrCreateManifest plainConfig allWell ⟨none, none⟩ 7 [109]
      ⟨existingMesh, []⟩) ∧
    Faithful existingMesh none (Python.loadOrCreateManifest plainConfig allWell ⟨none, none⟩ 7 [109]
      ⟨existingMesh, []⟩) := by
  obtain ⟨hswift, hpython⟩ := load_faithful_iff plainConfig allWell ⟨none, none⟩ 7 [109]
    existingMesh minted_existingMesh
  have hptr : existingMesh.get .manifestPointer = some (.pointer ⟨4, .manifest 4⟩) :=
    Record.get_set_self _ _ _
  refine ⟨hswift.mpr (.inl ⟨rfl, ?_⟩), hpython.mpr (.inr (.inl ⟨rfl, ?_, ?_⟩))⟩
  · rw [hptr]
    simp
  · rw [hptr]
    simp
  · rw [hptr]
    simp

end Interocitor.Native
