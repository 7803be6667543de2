import Interocitor.Worker.Files
import Interocitor.Worker.Maintenance

/-!
# `ops.ts`, `maintenance.ts`: the caches and the table

A manifest snapshot is cached in every data centre that has served it, because its bytes never
change once it is written.  But it can go: a `DELETE` covers it, or the sweep of idle meshes.  A
cache cannot be cleared from elsewhere.  The `DELETE` clears the one it came through, the sweep
clears none, and when the mesh is started again its generations are counted from one, so that
there are other bytes under the same name.

* `Agrees`: every `GET` of a manifest snapshot finds what is in the table.
* `Uncached`: what a step takes away is cached nowhere, or only where the step clears it.
* `agrees_step_iff`: one step, `alwaysAgrees_iff`: every sequence of steps.
-/

namespace Interocitor.Worker

open OrderedRecord

/-- What happens to a mount: a request, or the batch of a sweep for one root. -/
inductive Happening (Colo : Type) where
  | request (r : Request Colo)
  | evict (root : Path)

namespace Mount

variable {Colo : Type} [DecidableEq Colo] {run : Runtime} {m : Mount Colo} {path : Path}

/-- The mount after something has happened. -/
def happens (run : Runtime) (m : Mount Colo) : Happening Colo → Mount Colo
  | .request r => (m.handle run r).2
  | .evict root => { m with files := m.files.filter fun p _ => !swept root p }

/-- `opGetFile` of a manifest snapshot returns what is in the table, through every data centre. -/
def Agrees (m : Mount Colo) : Prop :=
  ∀ colo path, classifyPath path = .manifestSnapshot →
    (m.opGetFile colo path .manifestSnapshot).1 = m.files.get path

/-- Manifest snapshots that are deleted are in no cache but the one that is cleared with them, and
those that are swept are in no cache. -/
def Uncached (m : Mount Colo) : Happening Colo → Prop
  | .request (.delete colo target) =>
    classifyPath (normalizePath target) ≠ .evictionRecord →
      ∀ k path, k ≠ colo → classifyPath path = .manifestSnapshot →
        selected (normalizePath target) path = true → m.files.get path ≠ none →
          (m.cache k).get path = none
  | .evict root =>
    ∀ k path, classifyPath path = .manifestSnapshot → swept root path = true →
      m.files.get path ≠ none → (m.cache k).get path = none
  | _ => True

/-- All along a sequence, the caches agree with the table. -/
def AlwaysAgrees (run : Runtime) : Mount Colo → List (Happening Colo) → Prop
  | m, [] => m.Agrees
  | m, h :: rest => m.Agrees ∧ AlwaysAgrees run (m.happens run h) rest

/-- All along a sequence, what goes away is uncached. -/
def AlwaysUncached (run : Runtime) : Mount Colo → List (Happening Colo) → Prop
  | _, [] => True
  | m, h :: rest => m.Uncached h ∧ AlwaysUncached run (m.happens run h) rest

/-! ## One step -/

theorem agrees_iff : m.Agrees ↔ ∀ colo path, classifyPath path = .manifestSnapshot →
    ∀ bytes, (m.cache colo).get path = some bytes → m.files.get path = some bytes := by
  have hyes : isCacheableImmutablePathType .manifestSnapshot = true := rfl
  constructor
  · intro h colo path hT bytes hcached
    have hget := h colo path hT
    simp only [opGetFile, hyes, if_true, hcached] at hget
    exact hget.symm
  · intro h colo path hT
    cases hcached : (m.cache colo).get path with
    | none => exact opGetFile_of_cold hcached
    | some bytes =>
      simp only [opGetFile, hyes, if_true, hcached]
      exact (h colo path hT bytes hcached).symm

variable {bytes : Bytes}

omit [DecidableEq Colo] in
theorem SameAt.cached_file {m' : Mount Colo} (h : SameAt path m m') {colo : Colo}
    (hm : (m.cache colo).get path = some bytes → m.files.get path = some bytes)
    (hcached : (m'.cache colo).get path = some bytes) : m'.files.get path = some bytes := by
  rw [h.file]
  rw [h.cache] at hcached
  exact hm hcached

omit [DecidableEq Colo] in
theorem Shows.cached_file {b : Bytes} (h : m.Shows path bytes)
    (hT : classifyPath path = .manifestSnapshot) {colo : Colo}
    (hcached : (m.cache colo).get path = some b) : m.files.get path = some b := by
  rcases h.cached hT colo with hnone | hsome
  · rw [hnone] at hcached
    exact absurd hcached (by simp)
  · rw [hsome] at hcached
    rw [h.file, hcached]

theorem Agrees.shows (h : m.Agrees) (hT : classifyPath path = .manifestSnapshot)
    (hfile : m.files.get path = some bytes) : m.Shows path bytes := by
  refine ⟨hfile, fun _ colo => ?_⟩
  cases hcached : (m.cache colo).get path with
  | none => exact .inl rfl
  | some b =>
    have hb := agrees_iff.mp h colo path hT b hcached
    rw [hfile] at hb
    exact .inr hb.symm

theorem Agrees.cold (h : m.Agrees) (hT : classifyPath path = .manifestSnapshot)
    (hfile : m.files.get path = none) (colo : Colo) : (m.cache colo).get path = none := by
  cases hcached : (m.cache colo).get path with
  | none => rfl
  | some b =>
    rw [agrees_iff.mp h colo path hT b hcached] at hfile
    exact absurd hfile (by simp)

theorem Agrees.put (h : m.Agrees) (colo : Colo) (target : Path) (body : Option Bytes) :
    (m.handleWriteFile run colo target body).2.Agrees := by
  refine agrees_iff.mpr fun k path hT bytes hcached => ?_
  have hold := agrees_iff.mp h k path hT bytes
  by_cases hsame : target = path
  · subst hsame
    rcases m.handleWriteFile_cases run colo target body with ⟨-, hm⟩ | ⟨b, -, -, -, hput⟩
    · rw [hm] at hcached ⊢
      exact hold hcached
    · rcases hput with ⟨hother, -⟩ | ⟨-, hm⟩
      · rw [hT] at hother
        simp at hother
      · rw [hm] at hcached ⊢
        cases hfile : m.files.get target with
        | some b' =>
          simp only [opPutImmutable, hfile] at hcached ⊢
          exact hfile ▸ hold hcached
        | none =>
          refine Shows.cached_file ((shows_opPutImmutable_snapshot hT).mpr ?_) hT hcached
          exact ⟨.inl hfile, fun k => .inr (.inl (h.cold hT hfile k))⟩
  · exact (sameAt_handleWriteFile fun heq => hsame heq.1).cached_file hold hcached

theorem Agrees.get (h : m.Agrees) (colo : Colo) (target : Path) (record : Option Bytes) :
    (m.handleGetFile colo target record).2.Agrees := by
  refine agrees_iff.mpr fun k path hT bytes hcached => ?_
  have hold := agrees_iff.mp h k path hT bytes
  by_cases hsame : target = path
  · subst hsame
    have hevict : classifyPath target ≠ .evictionRecord := by
      rw [hT]
      simp
    cases hfile : m.files.get target with
    | some b =>
      exact ((h.shows hT hfile).handleGetFile hevict colo record).2.cached_file hT hcached
    | none =>
      have hyes : isCacheableImmutablePathType (classifyPath target) = true := decide_eq_true hT
      have hm : (m.handleGetFile colo target record).2 = m := by
        rw [Mount.handleGetFile, if_neg hevict]
        simp only [opGetFile, hyes, if_true, h.cold hT hfile colo, hfile]
      rw [hm] at hcached ⊢
      exact hold hcached
  · exact (sameAt_handleGetFile hsame colo record).cached_file hold hcached

theorem Agrees.cacheDelete (h : m.Agrees) (colo : Colo) (drop : Path → Bool) :
    (m.cacheDelete colo drop).Agrees := by
  refine agrees_iff.mpr fun k path hT bytes hcached => ?_
  rw [get_cacheDelete] at hcached
  split_ifs at hcached
  exact agrees_iff.mp h k path hT bytes hcached

/-- Some files go, and caches drop some of what goes: then the caches agree if they drop all of
it. -/
theorem agrees_drop_iff (h : m.Agrees) {m' : Mount Colo} {gone : Path → Bool}
    (dropped : Colo → Path → Prop)
    (hfiles : ∀ path, m'.files.get path = if gone path then none else m.files.get path)
    (hkept : ∀ k path, ¬ dropped k path → (m'.cache k).get path = (m.cache k).get path)
    (hdropped : ∀ k path, dropped k path → (m'.cache k).get path = none) :
    m'.Agrees ↔ ∀ k path, ¬ dropped k path → classifyPath path = .manifestSnapshot →
      gone path = true → m.files.get path ≠ none → (m.cache k).get path = none := by
  rw [agrees_iff]
  constructor
  · intro h' k path hk hT hgone _
    cases hcached : (m.cache k).get path with
    | none => rfl
    | some bytes =>
      have hfile := h' k path hT bytes ((hkept k path hk).trans hcached)
      rw [hfiles, if_pos hgone] at hfile
      exact absurd hfile (by simp)
  · intro h' k path hT bytes hcached
    have hk : ¬ dropped k path := fun hd => by
      rw [hdropped k path hd] at hcached
      exact absurd hcached (by simp)
    rw [hkept k path hk] at hcached
    have hfile := agrees_iff.mp h k path hT bytes hcached
    rw [hfiles]
    split_ifs with hgone
    · have hnone := h' k path hk hT hgone (by simp [hfile])
      rw [hnone] at hcached
      exact absurd hcached (by simp)
    · exact hfile

/-- What `opDeletePath` takes from the table and from the cache it came through. -/
theorem get_opDeletePath (m : Mount Colo) (colo : Colo) (target : Path) :
    (∀ path, (m.opDeletePath colo target).2.files.get path =
        if selected target path then none else m.files.get path) ∧
      ∀ k path, ((m.opDeletePath colo target).2.cache k).get path =
        if k = colo ∧ path ∈ m.files.keys.filter (selected target) then none
        else (m.cache k).get path := by
  simp only [opDeletePath]
  split_ifs with hnone
  · refine ⟨fun path => ?_, fun k path => ?_⟩
    · split_ifs with hsel
      · cases hfile : m.files.get path with
        | none => rfl
        | some b =>
          have hmem : path ∈ m.files.keys.filter (selected target) :=
            List.mem_filter.mpr ⟨Record.mem_keys_iff.mpr ⟨b, hfile⟩, hsel⟩
          rw [hnone.2] at hmem
          exact absurd hmem List.not_mem_nil
      · rfl
    · rw [hnone.2, if_neg fun hmem => List.not_mem_nil hmem.2]
  · refine ⟨fun path => ?_, fun k path => ?_⟩
    · show (m.files.filter fun p _ => !selected target p).get path = _
      rw [Record.get_filter]
      cases selected target path <;> cases m.files.get path <;> rfl
    · rw [get_cacheDelete]
      simp only [decide_eq_true_eq]

theorem agrees_delete_iff (h : m.Agrees) (colo : Colo) (target : Path) :
    (m.handleDelete colo target).2.Agrees ↔
      (classifyPath target ≠ .evictionRecord →
        ∀ k path, k ≠ colo → classifyPath path = .manifestSnapshot →
          selected target path = true → m.files.get path ≠ none → (m.cache k).get path = none) := by
  by_cases hevict : classifyPath target = .evictionRecord
  · have hm : (m.handleDelete colo target).2 = m := by rw [handleDelete, if_pos hevict]
    rw [hm]
    exact ⟨fun _ hne => absurd hevict hne, fun _ => h⟩
  · have hm : (m.handleDelete colo target).2 = (m.opDeletePath colo target).2 := by
      rw [handleDelete, if_neg hevict]
      split_ifs <;> rfl
    obtain ⟨hfiles, hcache⟩ := m.get_opDeletePath colo target
    rw [hm, agrees_drop_iff h
      (fun k path => k = colo ∧ path ∈ m.files.keys.filter (selected target)) hfiles
      (fun k path hk => by rw [hcache, if_neg hk]) (fun k path hk => by rw [hcache, if_pos hk])]
    constructor
    · intro hall _ k path hk
      exact hall k path fun hdrop => hk hdrop.1
    · intro hall k path hdrop hT hsel hfile
      refine hall hevict k path (fun hk => hdrop ⟨hk, ?_⟩) hT hsel hfile
      obtain ⟨b, hb⟩ := Option.ne_none_iff_exists'.mp hfile
      exact List.mem_filter.mpr ⟨Record.mem_keys_iff.mpr ⟨b, hb⟩, hsel⟩

theorem agrees_evict_iff (h : m.Agrees) (root : Path) :
    (m.happens run (.evict root)).Agrees ↔ m.Uncached (.evict root) := by
  have hfiles : ∀ path, (m.happens run (.evict root)).files.get path =
      if swept root path then none else m.files.get path := fun path => by
    show (m.files.filter fun p _ => !swept root p).get path = _
    rw [Record.get_filter]
    cases swept root path <;> cases m.files.get path <;> rfl
  rw [agrees_drop_iff h (fun _ _ => False) hfiles (fun _ _ _ => rfl) fun _ _ hk => hk.elim]
  exact ⟨fun hall k path => hall k path id, fun hall k path _ => hall k path⟩

/-- **One step** keeps the caches in agreement with the table exactly if what it takes away is
uncached. -/
theorem agrees_step_iff (run : Runtime) (h : m.Agrees) (event : Happening Colo) :
    (m.happens run event).Agrees ↔ m.Uncached event := by
  cases event with
  | evict root => exact agrees_evict_iff h root
  | request r =>
    cases r with
    | put colo target body => exact iff_of_true (h.put colo _ body) trivial
    | get colo target record => exact iff_of_true (h.get colo _ record) trivial
    | delete colo target => exact agrees_delete_iff h colo _
    | forget colo target => exact iff_of_true (h.cacheDelete colo _) trivial

/-- **The caches agree with the table all along a sequence** exactly if nothing that goes away is
cached elsewhere. -/
theorem alwaysAgrees_iff (run : Runtime) (m : Mount Colo) (h : m.Agrees)
    (events : List (Happening Colo)) : m.AlwaysAgrees run events ↔ m.AlwaysUncached run events := by
  induction events generalizing m with
  | nil => exact iff_of_true h trivial
  | cons event rest ih =>
    rw [AlwaysAgrees, AlwaysUncached]
    constructor
    · rintro ⟨-, hrest⟩
      have hnext : (m.happens run event).Agrees := by
        cases rest with
        | nil => exact hrest
        | cons _ _ => exact hrest.1
      exact ⟨(agrees_step_iff run h event).mp hnext, (ih _ hnext).mp hrest⟩
    · rintro ⟨huncached, hrest⟩
      have hnext := (agrees_step_iff run h event).mpr huncached
      exact ⟨h, (ih _ hnext).mpr hrest⟩

/-! ### A mesh that is started twice -/

/-- `"/m/manifest-1.json"`. -/
def firstManifestPath : Path := ['/', 'm', '/'] ++ manifestDash ++ ['1'] ++ dotJson

/-- No file and nothing cached, in two data centres. -/
def bare : Mount Bool := ⟨∅, fun _ => ∅⟩

/-- A mesh is started, swept, and started again through another data centre. -/
def startedTwice : List (Happening Bool) :=
  [.request (.put true firstManifestPath (some [1])), .evict ['/', 'm'],
    .request (.put false firstManifestPath (some [2]))]

/-- The same, when the first data centre has dropped the manifest before the sweep. -/
def startedTwiceCold : List (Happening Bool) :=
  [.request (.put true firstManifestPath (some [1])), .request (.forget true firstManifestPath),
    .evict ['/', 'm'], .request (.put false firstManifestPath (some [2]))]

theorem agrees_bare : bare.Agrees := by
  refine agrees_iff.mpr fun colo path _ bytes hcached => ?_
  exact absurd hcached (by simp [bare])

/-- Nothing is cached when the sweep comes, and all `GET`s find the table. -/
theorem swept_when_cold : bare.AlwaysAgrees sampleRuntime startedTwiceCold := by
  refine (alwaysAgrees_iff sampleRuntime bare agrees_bare startedTwiceCold).mpr
    ⟨trivial, trivial, fun k path _ _ _ => ?_, trivial, trivial⟩
  cases k <;> rfl

/-- **The manifest of the first life is served in the second one**, where it was cached. -/
theorem swept_manifest_is_served :
    let m := startedTwice.foldl (happens sampleRuntime) bare
    (m.opGetFile true firstManifestPath .manifestSnapshot).1 = some [1] ∧
      m.files.get firstManifestPath = some [2] ∧
      ¬ bare.AlwaysAgrees sampleRuntime startedTwice := by
  intro m
  have hget : (m.opGetFile true firstManifestPath .manifestSnapshot).1 = some [1] := by decide
  have hfile : m.files.get firstManifestPath = some [2] := by decide
  refine ⟨hget, hfile, fun h => ?_⟩
  have hagrees : m.Agrees := h.2.2.2
  have hsame := hagrees true firstManifestPath (by decide)
  rw [hget, hfile] at hsame
  exact absurd hsame (by decide)

end Mount

end Interocitor.Worker
