import Interocitor.Core.Reader
import Interocitor.Native.Bootstrap

/-!
# `SyncEngine.swift`: pulling and rehydrating

In the Swift engine every `pull` looks at the epoch, not only that of a reader.  If the local state
is of an earlier epoch than the manifest, `pull` calls `rehydrate`, which flushes, restores the
snapshot that the manifest names, and pulls.

There are two ways not to get ahead.  A manifest of a later epoch need not name a snapshot: then
`rehydrate` restores nothing, writes no epoch, and the pull at its end finds the epochs as they were.
And a snapshot has an epoch of its own, as in the core (`Core.Reader`).

What a pull does once the epochs agree, what a snapshot makes of rows, receipts and clock, and
whether a flush can publish what is queued, are left to an `Exchange`: none of it calls `pull`.  The
objects that are read stay as they are, and every read is answered.

* `pulls_terminate_iff`: when a pull of a reader and one of a Swift engine return.
-/

namespace Interocitor.Native.Swift

open CodeUnits OrderedRecord

/-! ## The methods -/

/-- An engine: what `pull` and `rehydrate` read, and everything else. -/
structure Session (R : Type) where
  config : NativeConfig
  adapter : Bool
  remotePoisonError : Option LoadError
  manifest : Option Manifest
  meshId : Option Text
  epoch : Option ℕ
  outbox : List ChangeEntry
  rest : R

/-- The parts of the engine that do not call `pull`. -/
structure Exchange (R : Type) where
  publish : Session R → Except LoadError R
  replaced : Snapshot → R → R
  pullChanges : Session R → Except LoadError Unit × Session R

section Methods

variable {R : Type} (objects : Objects) (x : Exchange R)

/-- `requireAdapter`. -/
def requireAdapter (s : Session R) : Option LoadError :=
  s.remotePoisonError.or (if s.adapter then none else some .adapterRequired)

/-- `poisonRemote`. -/
def poisonRemote (e : LoadError) (s : Session R) : Session R :=
  { s with remotePoisonError := s.remotePoisonError.or (some e) }

/-- `loadOrCreateManifest`; an objection to the mesh id poisons the remote. -/
def load (s : Session R) : Except LoadError Unit × Session R :=
  match (loadOrCreateManifest s.config allWell ⟨s.meshId, s.manifest.map fun m => m.meshId⟩ 0 []
      ⟨objects, []⟩).1 with
  | .ok manifest => (.ok (), { s with
      meshId := some manifest.meshId
      manifest := some manifest })
  | .error e => (.error e, if e = .meshMismatch ∨ e = .missingMeshId then poisonRemote e s else s)

/-- `flush`, without replicas. -/
def flush (s : Session R) : Except LoadError Unit × Session R :=
  if s.adapter = false ∨ s.outbox = [] then (.ok (), s)
  else
    match requireAdapter s with
    | some e => (.error e, s)
    | none =>
      match load objects s with
      | (.error e, s) => (.error e, s)
      | (.ok (), s) =>
        match x.publish s with
        | .error e => (.error e, s)
        | .ok rest => (.ok (), { s with
            outbox := []
            rest := rest })

/-- The mesh id of a snapshot is not the expected one. -/
def meshObjection (s : Session R) (meshId : Text) : Option LoadError :=
  if meshId = [] then some .missingMeshId
  else if (s.manifest.map fun m => m.meshId).any fun e => decide (e ≠ meshId) then
    some .meshMismatch
  else if differs s.meshId meshId then some .meshMismatch
  else none

/-- `restore` inside `rehydrate`. -/
def restore (path : ObjectPath) (s : Session R) : Except LoadError Unit × Session R :=
  match objects.get path with
  | some (.snapshot meshId snapshot) =>
    match meshObjection s meshId with
    | some e => (.error e, s)
    | none => (.ok (), { s with
        meshId := some meshId
        rest := x.replaced snapshot s.rest
        epoch := some snapshot.epoch })
  | some _ => (.error .malformed, s)
  | none => (.error .missing, s)

/-- The two tries of `rehydrate` to restore a snapshot. -/
def restoreWithRetry (path : ObjectPath) (s : Session R) : Except LoadError Unit × Session R :=
  match restore objects x path s with
  | (.ok (), s) => (.ok (), s)
  | (.error firstError, s) =>
    match load objects s with
    | (.error e, s) => (.error e, s)
    | (.ok (), s) =>
      match s.manifest.bind fun m => m.snapshotPath with
      | none => (.error firstError, s)
      | some refreshedPath =>
        if refreshedPath = path then (.error firstError, s)
        else restore objects x refreshedPath s

/-- `rehydrate`; `none` if it does not return. -/
def rehydrate (pull : Session R → Option (Except LoadError Unit × Session R)) (s : Session R) :
    Option (Except LoadError Unit × Session R) :=
  match flush objects x s with
  | (.error e, s) => some (.error e, s)
  | (.ok (), s) =>
    match requireAdapter s with
    | some e => some (.error e, s)
    | none =>
      match s.manifest.bind fun m => m.snapshotPath with
      | none => pull s
      | some path =>
        match restoreWithRetry objects x path s with
        | (.error e, s) => some (.error e, poisonRemote e s)
        | (.ok (), s) => pull s

/-- `pull`; `none` if it goes deeper than its fuel. -/
def pull : ℕ → Session R → Option (Except LoadError Unit × Session R)
  | 0, _ => none
  | fuel + 1, s =>
    match requireAdapter s with
    | some e => some (.error e, s)
    | none =>
      match load objects s with
      | (.error e, s) => some (.error e, s)
      | (.ok (), s) =>
        if s.epoch.getD 0 < (s.manifest.map fun m => m.epoch).getD 0 then
          rehydrate objects x (pull fuel) s
        else some (x.pullChanges s)

/-- A pull returns or throws. -/
def Terminates (s : Session R) : Prop := ∃ fuel, (pull objects x fuel s).isSome = true

end Methods

/-! ## What an engine finds -/

/-- The pointer names a manifest to which the engine has no objection. -/
structure Named (config : NativeConfig) (objects : Objects) (M : Manifest) : Prop where
  found : ∃ p, objects.get .manifestPointer = some (.pointer p) ∧
    objects.get (.rootFile p.file) = some (.manifest M)
  retention : (M.retention.all fun r => r.compactAfterMs.isSome && r.maxOfflineDurationMs.isSome) =
    true
  accepted : manifestObjection config M = none
  meshId : M.meshId ≠ []

/-- An engine of a mesh, which has an adapter and no reason to stop. -/
structure Admits {R : Type} (M : Manifest) (s : Session R) : Prop where
  adapter : s.adapter = true
  notPoisoned : s.remotePoisonError = none
  stored : ∀ e, truthy s.meshId = some e → e = M.meshId
  held : ∀ m, s.manifest = some m → m.meshId = M.meshId

section Finding

variable {R : Type} {objects : Objects} {x : Exchange R} {M : Manifest} {s : Session R}

theorem Admits.requireAdapter (h : Admits M s) : requireAdapter s = none := by
  rw [Swift.requireAdapter, h.notPoisoned, h.adapter]
  rfl

/-- An engine that has loaded a manifest. -/
def loaded (M : Manifest) (s : Session R) : Session R :=
  { s with
    meshId := some M.meshId
    manifest := some M }

theorem Admits.loaded (h : Admits M s) : Admits M (loaded M s) where
  adapter := h.adapter
  notPoisoned := h.notPoisoned
  stored _ he := (Option.some.inj (truthy_eq_some he).1).symm
  held m hm := by rw [← Option.some.inj hm]

theorem Admits.differs (h : Admits M s) : differs s.meshId M.meshId = false := by
  rw [Native.differs]
  cases hstored : truthy s.meshId with
  | none => rfl
  | some e => simp [h.stored e hstored]

theorem Admits.held_any (h : Admits M s) :
    ((s.manifest.map fun m => m.meshId).any fun e => decide (e ≠ M.meshId)) = false := by
  cases hheld : s.manifest with
  | none => rfl
  | some m => simp [h.held m hheld]

theorem load_eq (hn : Named s.config objects M) (h : Admits M s) :
    load objects s = (.ok (), loaded M s) := by
  obtain ⟨p, hpointer, hmanifest⟩ := hn.found
  have hload : loadOrCreateManifest s.config allWell
      ⟨s.meshId, s.manifest.map fun m => m.meshId⟩ 0 [] ⟨objects, []⟩ = (.ok M, ⟨objects, []⟩) := by
    have hfound : createIfNothing s.config allWell 0 [] ⟨objects, []⟩ = (.ok (), ⟨objects, []⟩) := by
      simp [createIfNothing, readsNothing, readFile, allWell, hpointer]
    have hread : readFile allWell.pointerReread .manifestPointer ⟨objects, []⟩ =
        (.ok (.pointer p), ⟨objects, []⟩) := by
      simp [readFile, allWell, hpointer]
    have hread' : readFile allWell.manifestRead (.rootFile p.file) ⟨objects, []⟩ =
        (.ok (.manifest M), ⟨objects, []⟩) := by
      simp [readFile, allWell, hmanifest]
    have hdecode : decodeManifest (.manifest M) ⟨objects, []⟩ = (.ok M, ⟨objects, []⟩) := by
      rw [decodeManifest, if_pos hn.retention]
      rfl
    have hcheck : assertExpectedMeshId allWell ⟨s.meshId, s.manifest.map fun m => m.meshId⟩ M.meshId
        ⟨objects, []⟩ = (.ok (), ⟨objects, []⟩) := by
      rw [assertExpectedMeshId, if_neg hn.meshId, h.held_any, if_neg Bool.noConfusion,
        bind_of_ok (show localStore allWell.getMeta ⟨objects, []⟩ = (.ok (), ⟨objects, []⟩) from rfl),
        h.differs, if_neg Bool.noConfusion]
      rfl
    rw [loadOrCreateManifest, bind_of_ok hfound, loadManifest, bind_of_ok hread]
    rw [bind_of_ok (show decodePointer (.pointer p) ⟨objects, []⟩ = (.ok p, ⟨objects, []⟩) from rfl)]
    rw [bind_of_ok hread', bind_of_ok hdecode, hn.accepted]
    rw [bind_of_ok (show raiseSome none ⟨objects, []⟩ = (.ok (), ⟨objects, []⟩) from rfl),
      bind_of_ok hcheck]
    rfl
  rw [load, hload]
  rfl

/-- The snapshot of a mesh at a path. -/
def snapshotAt (objects : Objects) (meshId : Text) (path : ObjectPath) : Option Snapshot :=
  match objects.get path with
  | some (.snapshot id snapshot) => if id = meshId then some snapshot else none
  | _ => none

/-- An engine after a snapshot was restored. -/
def restored (x : Exchange R) (M : Manifest) (snapshot : Snapshot) (s : Session R) : Session R :=
  { s with
    meshId := some M.meshId
    rest := x.replaced snapshot s.rest
    epoch := some snapshot.epoch }

theorem Admits.restored {snapshot : Snapshot} (h : Admits M s) :
    Admits M (restored x M snapshot s) where
  adapter := h.adapter
  notPoisoned := h.notPoisoned
  stored _ he := (Option.some.inj (truthy_eq_some he).1).symm
  held := h.held

theorem restore_eq (hne : M.meshId ≠ []) (h : Admits M s) (hm : s.manifest = some M)
    (path : ObjectPath) :
    match snapshotAt objects M.meshId path with
    | some snapshot => restore objects x path s = (.ok (), restored x M snapshot s)
    | none => ∃ e, restore objects x path s = (.error e, s) := by
  rw [snapshotAt, restore]
  cases hpath : objects.get path with
  | none => exact ⟨.missing, rfl⟩
  | some content =>
    cases content with
    | snapshot id snapshot =>
      dsimp only
      split_ifs with hid
      · subst hid
        have hno : meshObjection s M.meshId = none := by
          rw [meshObjection, if_neg hne, h.held_any, if_neg Bool.noConfusion, h.differs,
            if_neg Bool.noConfusion]
        rw [hno]
        rfl
      · obtain ⟨e, he⟩ : ∃ e, meshObjection s id = some e := by
          rw [meshObjection, hm]
          split_ifs with hnil hheld
          · exact ⟨_, rfl⟩
          · exact ⟨_, rfl⟩
          · exact ⟨_, rfl⟩
          · exact absurd (by simpa using fun hM : M.meshId = id => hid hM.symm) hheld
        rw [he]
        exact ⟨e, rfl⟩
    | _ => exact ⟨.malformed, rfl⟩

/-- The second try finds the manifest that was in hand already. -/
theorem restoreWithRetry_eq (hn : Named s.config objects M) (h : Admits M s)
    (hm : s.manifest = some M) {path : ObjectPath} (hpath : M.snapshotPath = some path) :
    match snapshotAt objects M.meshId path with
    | some snapshot => restoreWithRetry objects x path s = (.ok (), restored x M snapshot s)
    | none => ∃ e s', restoreWithRetry objects x path s = (.error e, s') := by
  have hrestore := @restore_eq R objects x M s hn.meshId h hm path
  rw [restoreWithRetry]
  cases hsnapshot : snapshotAt objects M.meshId path with
  | some snapshot =>
    rw [hsnapshot] at hrestore
    dsimp only at hrestore ⊢
    rw [hrestore]
  | none =>
    rw [hsnapshot] at hrestore
    obtain ⟨e, he⟩ := hrestore
    refine ⟨e, loaded M s, ?_⟩
    rw [he]
    dsimp only
    rw [load_eq hn h]
    dsimp only
    have hpath' : ((loaded M s).manifest.bind fun m => m.snapshotPath) = some path := hpath
    rw [hpath']
    dsimp only
    rw [if_pos rfl]

/-! ## The recursion -/

/-- What is queued can be published, if anything is. -/
def Publishable (x : Exchange R) (M : Manifest) (s : Session R) : Prop :=
  s.outbox = [] ∨ ∃ rest, x.publish (loaded M s) = .ok rest

/-- **The remote keeps an engine behind**: its manifest is of a later epoch than the local state,
and rehydrating leaves it so, because there is no snapshot or because the snapshot is of an earlier
epoch as well. -/
def Behind (objects : Objects) (x : Exchange R) (M : Manifest) (s : Session R) : Prop :=
  s.epoch.getD 0 < M.epoch ∧ Publishable x M s ∧
    ∀ path, M.snapshotPath = some path →
      ∃ snapshot, snapshotAt objects M.meshId path = some snapshot ∧ snapshot.epoch < M.epoch

/-- An engine that goes on with the manifest it has loaded. -/
structure Ready (config : NativeConfig) (M : Manifest) (s : Session R) : Prop extends
    Admits M s where
  config : s.config = config
  manifest : s.manifest = some M

theorem flush_cases (hn : Named s.config objects M) (h : Admits M s) :
    (Publishable x M s → ∃ s', flush objects x (loaded M s) = (.ok (), s') ∧
      Ready s.config M s' ∧ s'.epoch = s.epoch ∧ s'.outbox = []) ∧
    (¬Publishable x M s → ∃ e s', flush objects x (loaded M s) = (.error e, s')) := by
  have hloaded := h.loaded
  have hagain : load objects (loaded M s) = (.ok (), loaded M s) := load_eq hn hloaded
  have hadapter : (loaded M s).adapter ≠ false := by
    rw [hloaded.adapter]
    exact Bool.noConfusion
  by_cases houtbox : s.outbox = []
  · refine ⟨fun _ => ⟨loaded M s, ?_, ⟨hloaded, rfl, rfl⟩, rfl, houtbox⟩, fun hnot => ?_⟩
    · rw [flush, if_pos (.inr houtbox)]
    · exact absurd (.inl houtbox) hnot
  · have hflush : flush objects x (loaded M s) =
        match x.publish (loaded M s) with
        | .error e => (.error e, loaded M s)
        | .ok rest => (.ok (), { loaded M s with
            outbox := []
            rest := rest }) := by
      have hnot : ¬((loaded M s).adapter = false ∨ (loaded M s).outbox = []) :=
        not_or.mpr ⟨hadapter, houtbox⟩
      rw [flush, if_neg hnot, hloaded.requireAdapter]
      dsimp only
      rw [hagain]
    rw [hflush, Publishable]
    cases hpublish : x.publish (loaded M s) with
    | error e =>
      refine ⟨fun hp => absurd hp ?_, fun _ => ⟨e, _, rfl⟩⟩
      rintro (hnil | ⟨rest, hrest⟩)
      · exact houtbox hnil
      · exact absurd hrest (by simp)
    | ok rest =>
      refine ⟨fun _ => ⟨_, rfl, ⟨?_, rfl, rfl⟩, rfl, rfl⟩, fun hnot => ?_⟩
      · exact { hloaded with }
      · exact absurd (.inr ⟨rest, rfl⟩) hnot

theorem pull_succ (hn : Named s.config objects M) (h : Admits M s) (fuel : ℕ) :
    pull objects x (fuel + 1) s =
      if s.epoch.getD 0 < M.epoch then rehydrate objects x (pull objects x fuel) (loaded M s)
      else some (x.pullChanges (loaded M s)) := by
  rw [pull, h.requireAdapter]
  dsimp only
  rw [load_eq hn h]
  rfl

theorem rehydrate_unpublishable (hn : Named s.config objects M) (h : Admits M s)
    (hnot : ¬Publishable x M s) (next : Session R → Option (Except LoadError Unit × Session R)) :
    (rehydrate objects x next (loaded M s)).isSome = true := by
  obtain ⟨e, s', hflush⟩ := (flush_cases hn h).2 hnot
  rw [rehydrate, hflush]
  rfl

/-- A rehydration that publishes what is queued, from the flush on. -/
theorem rehydrate_publishable (hn : Named s.config objects M) (h : Admits M s)
    (hp : Publishable x M s) :
    ∃ s₁, Ready s.config M s₁ ∧ s₁.epoch = s.epoch ∧ s₁.outbox = [] ∧
      ∀ next, rehydrate objects x next (loaded M s) =
        match M.snapshotPath with
        | none => next s₁
        | some path =>
          match restoreWithRetry objects x path s₁ with
          | (.error e, s) => some (.error e, poisonRemote e s)
          | (.ok (), s) => next s := by
  obtain ⟨s₁, hflush, hready, hepoch, houtbox⟩ := (flush_cases hn h).1 hp
  refine ⟨s₁, hready, hepoch, houtbox, fun next => ?_⟩
  rw [rehydrate, hflush]
  dsimp only
  rw [hready.requireAdapter]
  dsimp only
  rw [hready.manifest, Option.bind_some]

/-- **An engine that is kept behind** pulls again from where it was. -/
theorem Behind.again (hn : Named s.config objects M) (h : Admits M s)
    (hb : Behind objects x M s) : ∃ s', Admits M s' ∧ s'.config = s.config ∧
      Behind objects x M s' ∧ ∀ fuel, pull objects x (fuel + 1) s = pull objects x fuel s' := by
  obtain ⟨hepoch, hp, hsnapshot⟩ := hb
  obtain ⟨s₁, hready, hepoch₁, houtbox₁, hre⟩ := rehydrate_publishable hn h hp
  have hpull : ∀ fuel, pull objects x (fuel + 1) s =
      rehydrate objects x (pull objects x fuel) (loaded M s) := fun fuel => by
    rw [pull_succ hn h, if_pos hepoch]
  cases hpath : M.snapshotPath with
  | none =>
    refine ⟨s₁, hready.toAdmits, hready.config, ⟨hepoch₁ ▸ hepoch, .inl houtbox₁, hsnapshot⟩, ?_⟩
    intro fuel
    rw [hpull, hre, hpath]
  | some path =>
    obtain ⟨snapshot, hat, hless⟩ := hsnapshot path hpath
    have hn₁ : Named s₁.config objects M := hready.config ▸ hn
    have hrestore := @restoreWithRetry_eq R objects x M s₁ hn₁ hready.toAdmits hready.manifest path
      hpath
    rw [hat] at hrestore
    dsimp only at hrestore
    refine ⟨restored x M snapshot s₁, hready.toAdmits.restored, hready.config,
      ⟨hless, .inl houtbox₁, hsnapshot⟩, fun fuel => ?_⟩
    rw [hpull, hre, hpath]
    dsimp only
    rw [hrestore]

/-- **A pull of a Swift engine returns or throws**, exactly if the remote does not keep it behind. -/
theorem pull_terminates_iff (hn : Named s.config objects M) (h : Admits M s) :
    Terminates objects x s ↔ ¬Behind objects x M s := by
  constructor
  · rintro ⟨fuel, hsome⟩ hb
    induction fuel generalizing s with
    | zero => exact absurd hsome Bool.noConfusion
    | succ fuel ih =>
      obtain ⟨s', h', hconfig, hb', hagain⟩ := hb.again hn h
      rw [hagain] at hsome
      exact ih (hconfig ▸ hn) h' hsome hb'
  · intro hb
    refine ⟨2, ?_⟩
    rw [pull_succ hn h]
    split_ifs with hepoch
    · by_cases hp : Publishable x M s
      · obtain ⟨s₁, hready, hepoch₁, houtbox₁, hre⟩ := rehydrate_publishable hn h hp
        have hn₁ : Named s₁.config objects M := hready.config ▸ hn
        rw [hre]
        cases hpath : M.snapshotPath with
        | none =>
          refine absurd ⟨hepoch, hp, fun path hsome => ?_⟩ hb
          rw [hpath] at hsome
          exact absurd hsome (by simp)
        | some path =>
          have hrestore := @restoreWithRetry_eq R objects x M s₁ hn₁ hready.toAdmits hready.manifest
            path hpath
          dsimp only
          cases hat : snapshotAt objects M.meshId path with
          | none =>
            rw [hat] at hrestore
            obtain ⟨e, s', he⟩ := hrestore
            rw [he]
            rfl
          | some snapshot =>
            rw [hat] at hrestore
            dsimp only at hrestore
            rw [hrestore]
            dsimp only
            -- the epoch of the snapshot is that of the manifest now
            rw [pull_succ (by exact hn₁) hready.toAdmits.restored, if_neg]
            · rfl
            · refine fun hless => hb ⟨hepoch, hp, fun path' hpath' => ?_⟩
              rw [hpath] at hpath'
              rw [← Option.some.inj hpath']
              exact ⟨snapshot, hat, hless⟩
      · exact rehydrate_unpublishable hn h hp _
    · rfl

end Finding

end Interocitor.Native.Swift

namespace Interocitor.Native

open CodeUnits OrderedRecord

/-! ## Both engines -/

/-- **Pulls terminate**, in the reader and in the Swift engine, exactly if the remote does not keep
them behind its manifest. -/
theorem pulls_terminate_iff {objects : ObjectPath → Except RemoteError Content} {M m : Manifest}
    {d : Device} {fresh : Bool} (h : Reader.Named objects M) (hd : Reader.Admits M d)
    (hm : (if fresh = true then d.manifest else some M) = some m) {R : Type} {store : Objects}
    {x : Swift.Exchange R} {N : Manifest} {s : Swift.Session R} (hn : Swift.Named s.config store N)
    (hs : Swift.Admits N s) :
    (Reader.Terminates objects d fresh ↔ ¬Reader.Behind objects M m d) ∧
      (Swift.Terminates store x s ↔ ¬Swift.Behind store x N s) :=
  ⟨Reader.pullNow_terminates_iff h hd hm, Swift.pull_terminates_iff hn hs⟩

/-- A manifest of the first epoch after a compaction. -/
def compactedOnce (snapshotPath : Option ObjectPath) : Manifest :=
  let payload : ManifestPayload :=
    { generation := 2
      parentGeneration := 1
      writtenBy := defaultServerId
      writtenAt := 7
      version := 3
      meshId := [109]
      schema := 1
      encrypted := false
      server := ⟨false, defaultServerId⟩
      createdAt := 7
      epoch := 1
      watermarkHlc := []
      snapshotPath := snapshotPath
      retention := some ⟨some (7 * dayMs), some (30 * dayMs)⟩
      lineage := some 1 }
  { payload with contentHash := computeContentHash payload }

/-- The path of its snapshot. -/
def firstSnapshotPath : ObjectPath := .snapshot 1 defaultServerId

/-- A remote with that manifest, and a snapshot of some epoch. -/
def compactedRemote (epoch : ℕ) : ObjectPath → Except RemoteError Content
  | .manifestPointer => .ok (.pointer ⟨2, .manifest 2⟩)
  | .rootFile _ => .ok (.manifest (compactedOnce (some firstSnapshotPath)))
  | .snapshot _ _ => .ok (.snapshot [109] ⟨[115], 7, [], epoch, 1, none, ∅⟩)
  | _ => .error .missing

/-- A remote whose manifest is of the first epoch as well, without a snapshot. -/
def snapshotlessStore : Objects :=
  (Record.set ∅ .manifestPointer (.pointer ⟨2, .manifest 2⟩)).set (.rootFile (.manifest 2))
    (.manifest (compactedOnce none))

/-- An engine of no epoch. -/
def newSession : Swift.Session Unit := ⟨plainConfig, true, none, none, none, none, [], ()⟩

/-- An exchange in which everything works. -/
def plainExchange : Swift.Exchange Unit :=
  ⟨fun s => .ok s.rest, fun _ r => r, fun s => (.ok (), s)⟩

theorem named_compactedRemote (epoch : ℕ) :
    Reader.Named (compactedRemote epoch) (compactedOnce (some firstSnapshotPath)) :=
  ⟨⟨⟨2, .manifest 2⟩, compactedOnce (some firstSnapshotPath), rfl, rfl, by decide⟩, by decide⟩

theorem admits_newReader :
    Reader.Admits (compactedOnce (some firstSnapshotPath))
      (openEngine (defaultConfig [114]) 7 .empty) :=
  ⟨rfl, rfl, fun e he => absurd he (by simp [openEngine, LocalStore.empty, Metadata.empty]),
    fun m hm => absurd hm (by simp [openEngine]), by decide⟩

theorem named_snapshotlessStore :
    Swift.Named newSession.config snapshotlessStore (compactedOnce none) := by
  refine ⟨⟨⟨2, .manifest 2⟩, ?_, ?_⟩, by decide, by decide, by decide⟩
  · rw [snapshotlessStore, Record.get_set_ne _ _ (by simp), Record.get_set_self]
  · rw [snapshotlessStore, Record.get_set_self]

theorem admits_newSession : Swift.Admits (compactedOnce none) newSession :=
  ⟨rfl, rfl, fun e he => absurd he (by simp [newSession]),
    fun m hm => absurd hm (by simp [newSession])⟩

/-- A snapshot of the epoch of its manifest. -/
theorem pulls_terminate_iff_compacted :
    (Reader.Terminates (compactedRemote 1) (openEngine (defaultConfig [114]) 7 .empty) false ↔
      ¬Reader.Behind (compactedRemote 1) (compactedOnce (some firstSnapshotPath))
        (compactedOnce (some firstSnapshotPath)) (openEngine (defaultConfig [114]) 7 .empty)) ∧
    (Swift.Terminates snapshotlessStore plainExchange newSession ↔
      ¬Swift.Behind snapshotlessStore plainExchange (compactedOnce none) newSession) :=
  pulls_terminate_iff (named_compactedRemote 1) admits_newReader rfl named_snapshotlessStore
    admits_newSession

/-- A snapshot of an earlier epoch than its manifest keeps a reader behind, and a manifest without a
snapshot keeps a Swift engine behind. -/
theorem pulls_without_end :
    ¬Reader.Terminates (compactedRemote 0) (openEngine (defaultConfig [114]) 7 .empty) false ∧
      ¬Swift.Terminates snapshotlessStore plainExchange newSession := by
  constructor
  · rw [Reader.pullNow_terminates_iff (named_compactedRemote 0) admits_newReader rfl, not_not]
    exact ⟨by decide, compactedOnce (some firstSnapshotPath), 0, rfl, by decide⟩
  · rw [Swift.pull_terminates_iff named_snapshotlessStore admits_newSession, not_not]
    exact ⟨by decide, .inl rfl, fun path hpath => absurd hpath (by simp [compactedOnce])⟩

end Interocitor.Native
