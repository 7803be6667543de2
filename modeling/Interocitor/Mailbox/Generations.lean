import Interocitor.Core.Lifecycle
import Interocitor.Mailbox.World

/-!
# A compaction moves the mesh forward

The pointer of a mesh names its manifest.  A compaction publishes the next one: a generation and an
epoch later, with the one before as its parent, of the same mesh.  A device that stands at an epoch
takes everything before it for granted, so an epoch must never be used twice; and a lineage that
changes looks like an eviction.

An application has to serialize compactions.  Then, while one is under way, everybody else reads
the pointer and the manifests but does not write them: `undisturbed` is the store as a compaction
sees it.  It may fail any request but a read of the pointer, which an engine would take for an
absent one (see `findPointer`).

* `MovesForward`: what the next manifest owes the one before.
* `wp_compactUnfenced_forward`: `compact` bases the next manifest on the one that it has loaded
  itself, so it moves forward, from any state of the engine.
-/

namespace Interocitor

open CodeUnits OrderedRecord Interaction Eng
open Proc (keeps_bind keeps_pure wp_bind Keeps keeps_get wp_run_ends wp_mono AskKeeps)

/-! ## The registry -/

/-- The pointer and the manifests. -/
def ObjectPath.isRegistry : ObjectPath → Bool
  | .manifestPointer => true
  | .rootFile _ => true
  | _ => false

/-- The pointer and the manifests are the same. -/
def SameRegistry (objects objects' : Objects) : Prop :=
  ∀ path, ObjectPath.isRegistry path = true → objects'.get path = objects.get path

theorem SameRegistry.refl (objects : Objects) : SameRegistry objects objects := fun _ _ => rfl

theorem SameRegistry.trans {a b c : Objects} (h : SameRegistry a b) (h' : SameRegistry b c) :
    SameRegistry a c := fun path hp => (h' path hp).trans (h path hp)

variable {path : ObjectPath}

theorem sameRegistry_set (h : path.isRegistry = false) (objects : Objects) (content : Content) :
    SameRegistry objects (objects.set path content) := by
  intro q hq
  refine Record.get_set_ne _ _ ?_
  rintro rfl
  exact absurd hq (Bool.eq_false_iff.mp h)

theorem sameRegistry_erase (h : path.isRegistry = false) (objects : Objects) :
    SameRegistry objects (objects.erase path) := by
  intro q hq
  rw [Record.get_erase, if_neg]
  rintro rfl
  exact absurd hq (Bool.eq_false_iff.mp h)

/-- The pointer names `m`, under the file name of its generation. -/
structure Registered (m : Manifest) (objects : Objects) : Prop where
  pointer : objects.get .manifestPointer = some (.pointer ⟨m.generation, .manifest m.generation⟩)
  manifest : objects.get (.rootFile (.manifest m.generation)) = some (.manifest m)

variable {m : Manifest} {objects objects' : Objects}

theorem Registered.same (h : Registered m objects) (hsame : SameRegistry objects objects') :
    Registered m objects' :=
  ⟨(hsame _ rfl).trans h.pointer, (hsame _ rfl).trans h.manifest⟩

theorem Registered.unique {m' : Manifest} (h : Registered m objects) (h' : Registered m' objects) :
    m = m' := by
  have hptr := Option.some.inj (h.pointer.symm.trans h'.pointer)
  have hgen : m.generation = m'.generation :=
    congrArg ManifestPointer.currentGeneration (Content.pointer.inj hptr)
  have hman := h.manifest
  rw [hgen, h'.manifest] at hman
  exact (Content.manifest.inj (Option.some.inj hman)).symm

/-- **What the next manifest owes the one before.**  Lineages are compared as engines read
them. -/
structure MovesForward (old new : Manifest) : Prop where
  generation : old.generation < new.generation
  epoch : old.epoch < new.epoch
  parent : new.parentGeneration = old.generation
  meshId : new.meshId = old.meshId
  createdAt : new.createdAt = old.createdAt
  schema : new.schema = old.schema
  encrypted : new.encrypted = old.encrypted
  server : new.server = old.server
  lineage : resolveManifestLineage new.lineage = resolveManifestLineage old.lineage

/-- A manifest has been published that moves forward. -/
def Forwarded (m : Manifest) (objects : Objects) : Prop :=
  ∃ m', Registered m' objects ∧ MovesForward m m'

theorem Forwarded.same (h : Forwarded m objects) (hsame : SameRegistry objects objects') :
    Forwarded m objects' := by
  obtain ⟨m', hreg, hmoves⟩ := h
  exact ⟨m', hreg.same hsame, hmoves⟩

/-- The next manifest is written, but the pointer does not name it yet. -/
structure Staged (m next : Manifest) (objects : Objects) : Prop where
  current : Registered m objects
  written : objects.get (.rootFile (.manifest next.generation)) = some (.manifest next)

variable {m next : Manifest}

theorem Staged.same (h : Staged m next objects) (hsame : SameRegistry objects objects') :
    Staged m next objects' :=
  ⟨h.current.same hsame, (hsame _ rfl).trans h.written⟩

theorem Registered.stage (h : Registered m objects) (hgen : m.generation ≠ next.generation) :
    Staged m next (objects.set (.rootFile (.manifest next.generation)) (.manifest next)) := by
  refine ⟨⟨?_, ?_⟩, Record.get_set_self _ _ _⟩
  · rw [Record.get_set_ne _ _ (by simp)]
    exact h.pointer
  · rw [Record.get_set_ne _ _ (by simp [Ne.symm hgen])]
    exact h.manifest

theorem Staged.point (h : Staged m next objects) :
    Registered next (objects.set .manifestPointer
      (.pointer ⟨next.generation, .manifest next.generation⟩)) := by
  refine ⟨Record.get_set_self _ _ _, ?_⟩
  rw [Record.get_set_ne _ _ (by simp)]
  exact h.written

/-! ## The store during a compaction -/

/-- A read of the pointer is answered. -/
def PointerAnswered : (c : Call) → Reply c → Prop
  | .readFile .manifestPointer, rep => ∃ content, rep = .ok content
  | _, _ => True

/-- The store as one compaction sees it: nobody else writes the registry meanwhile. -/
def undisturbed : Env Call Reply Mailbox where
  rely w w' := SameRegistry w.objects w'.objects
  answer w c rep w' := w.Truthful c rep w' ∧ PointerAnswered c rep
  guar _ _ := True

/-- `I` looks at the registry only. -/
def ReadsRegistry (I : Device → Mailbox → Prop) : Prop :=
  ∀ d w w', SameRegistry w.objects w'.objects → I d w → I d w'

section Frames

variable {I : Device → Mailbox → Prop}

theorem askKeeps_undisturbed (hI : ReadsRegistry I) {c : Call}
    (hc : ∀ (w : Mailbox) rep w', w.Truthful c rep w' → SameRegistry w.objects w'.objects) :
    AskKeeps undisturbed I c := by
  intro d w w₁ rep w₂ h hrely hans
  exact ⟨trivial, hI d w w₂ (SameRegistry.trans hrely (hc w₁ rep w₂ hans.1)) h⟩

theorem sameRegistry_of_eq {w w' : Mailbox} (h : w' = w) : SameRegistry w.objects w'.objects :=
  h ▸ SameRegistry.refl _

theorem quiet_undisturbed (hI : ReadsRegistry I) : Quiet undisturbed I where
  now := askKeeps_undisturbed hI fun _ _ _ h => sameRegistry_of_eq h
  uuid := askKeeps_undisturbed hI fun _ _ _ h => sameRegistry_of_eq h
  isAuthenticated := askKeeps_undisturbed hI fun _ _ _ h => sameRegistry_of_eq h
  authenticate := askKeeps_undisturbed hI fun _ _ _ h => sameRegistry_of_eq h
  readFile _ := askKeeps_undisturbed hI fun _ _ _ h => sameRegistry_of_eq h.1
  listChanges := askKeeps_undisturbed hI fun _ _ _ h => sameRegistry_of_eq h.1
  listMainline := askKeeps_undisturbed hI fun _ _ _ h => sameRegistry_of_eq h.1
  ensureFolder _ := askKeeps_undisturbed hI fun _ _ _ h => sameRegistry_of_eq h

variable {path : ObjectPath}

theorem write_applied_or_not {w w' : Mailbox} {content : Content} {rep : Except NoAnswer Unit}
    (h : w.Truthful (.writeFile path content) rep w') :
    w' = w ∨ w' = w.write path content := applied_or_not h

theorem askKeeps_write_unregistered (hI : ReadsRegistry I) {content : Content}
    (hpath : path.isRegistry = false) : AskKeeps undisturbed I (.writeFile path content) := by
  refine askKeeps_undisturbed hI fun w rep w' h => ?_
  rcases applied_or_not h with rfl | rfl
  · exact SameRegistry.refl _
  · exact sameRegistry_set hpath _ _

theorem askKeeps_delete_unregistered (hI : ReadsRegistry I) (hpath : path.isRegistry = false) :
    AskKeeps undisturbed I (.deleteFile path) := by
  refine askKeeps_undisturbed hI fun w rep w' h => ?_
  rcases applied_or_not h with rfl | rfl
  · exact SameRegistry.refl _
  · exact sameRegistry_erase hpath _

end Frames

/-! ## Loading, flushing and pulling -/

variable {m₀ : Manifest}

/-- The pointer names `m₀`. -/
def Names (m₀ : Manifest) (_ : Device) (w : Mailbox) : Prop := Registered m₀ w.objects

/-- The pointer names `m₀`, and the engine holds it as it reads it. -/
def Holding (m₀ m : Manifest) (d : Device) (w : Mailbox) : Prop :=
  Registered m₀ w.objects ∧ d.manifest = some m

theorem readsRegistry_names : ReadsRegistry (Names m₀) := fun _ _ _ hsame h => h.same hsame

theorem readsRegistry_holding : ReadsRegistry (Holding m₀ m) :=
  fun _ _ _ hsame h => ⟨h.1.same hsame, h.2⟩

section Loading

variable {I : Device → Mailbox → Prop}

theorem pointerFound_undisturbed (hI : ∀ d w, I d w → Registered m₀ w.objects) :
    PointerFound undisturbed I := by
  intro d w w₁ rep w₂ h hrely hans
  have hreg := (hI d w h).same hrely
  obtain ⟨content, rfl⟩ := hans.2
  have hget : w₁.objects.get .manifestPointer = some content := hans.1.2
  rw [hreg.pointer] at hget
  obtain rfl := Option.some.inj hget
  exact ⟨_, rfl⟩

theorem completed_of_loads (hI : ∀ d w, I d w → Registered m₀ w.objects) {w : Mailbox}
    (h : Loads undisturbed I w m) : completedManifest m₀ = .ok m := by
  obtain ⟨d, v, v₁, p, v₂, v₃, m₁, hv, hr₁, hans₁, hr₂, hans₂, hcompleted⟩ := h
  have hreg := (hI d v hv).same hr₁
  have hp : v₁.objects.get .manifestPointer = some (.pointer p) := hans₁.1.2
  rw [hreg.pointer] at hp
  obtain rfl := Content.pointer.inj (Option.some.inj hp)
  obtain rfl : v₂ = v₁ := hans₁.1.1
  have hm : v₃.objects.get (.rootFile (.manifest m₀.generation)) = some (.manifest m₁) := hans₂.1.2
  rw [(hreg.same hr₂).manifest] at hm
  obtain rfl := Content.manifest.inj (Option.some.inj hm)
  exact hcompleted

end Loading

theorem loadFrame_names : LoadFrame undisturbed (Names m₀) where
  toQuiet := quiet_undisturbed readsRegistry_names
  bootstrap := .inl (pointerFound_undisturbed fun _ _ h => h)
  session _ _ _ _ _ _ _ h := h
  manifest _ _ _ _ h := h
  manifestCache _ _ _ h := h
  meshId _ _ _ _ h := h

theorem pullFrame_names : PullFrame undisturbed (Names m₀) where
  toLoadFrame := loadFrame_names
  merged _ _ _ _ _ _ _ h := h
  progress _ _ _ _ h := h
  clock _ _ _ h := h
  syncTimes _ _ _ h := h
  deviceRecords _ _ := askKeeps_write_unregistered readsRegistry_names rfl

theorem connectFrame_names : ConnectFrame undisturbed (Names m₀) where
  toPullFrame := pullFrame_names
  promoted _ _ h := h
  quarantine _ _ _ _ _ h := h
  observation _ _ _ _ _ h := h
  changeFile _ _ _ _ _ _ := askKeeps_write_unregistered readsRegistry_names rfl
  head _ := askKeeps_write_unregistered readsRegistry_names rfl
  acknowledge _ _ _ h := h
  replaced _ _ _ _ _ _ h := h
  restored _ _ _ _ h := h
  cleared _ _ h := h
  rebuilt _ _ _ _ _ h := h
  connects _ _ h := h

theorem flushFrame_holding (hm : completedManifest m₀ = .ok m) :
    FlushFrame undisturbed (Holding m₀ m) where
  toQuiet := quiet_undisturbed readsRegistry_holding
  bootstrap := .inl (pointerFound_undisturbed fun _ _ h => h.1)
  session _ _ _ _ _ _ _ h := h
  manifest d w m' hobtained h := by
    have hloads := hobtained.loads (pointerFound_undisturbed fun _ _ h => h.1)
    have heq := completed_of_loads (fun _ _ h => h.1) hloads
    exact ⟨h.1, congrArg some (Except.ok.inj (heq.symm.trans hm))⟩
  manifestCache _ _ _ h := h
  meshId _ _ _ _ h := h
  promoted d w h := by
    refine ⟨h.1, ?_⟩
    rw [promoted_eq]
    exact h.2
  quarantine _ _ _ _ _ h := h
  observation _ _ _ _ _ h := h
  changeFile _ _ _ _ _ _ := askKeeps_write_unregistered readsRegistry_holding rfl
  head _ := askKeeps_write_unregistered readsRegistry_holding rfl
  acknowledge _ _ _ h := h
  syncTimes _ _ _ h := h
  deviceRecords _ _ := askKeeps_write_unregistered readsRegistry_holding rfl

/-! ## Connecting -/

section Connecting

theorem keeps_modify_names (f : Device → Device) :
    Keeps undisturbed (Names m₀) (Proc.modify f : Eng Unit) :=
  Proc.keeps_modify fun _ _ h => h

theorem keeps_tryConnectFastPath : Keeps undisturbed (Names m₀) tryConnectFastPath := by
  have hquiet : Quiet undisturbed (Names m₀) := quiet_undisturbed readsRegistry_names
  refine keeps_bind keeps_get fun d => ?_
  split
  · exact keeps_pure _
  split
  · exact keeps_pure _
  refine keeps_bind ?_ fun verified => ?_
  · refine keeps_attempt ?_ fun _ => keeps_pure _
    exact keeps_bind (keeps_doLoadOrCreateManifest loadFrame_names true _) fun _ =>
      keeps_pure _
  refine keeps_bind keeps_get fun d => ?_
  dsimp only
  split
  · exact keeps_pure _
  refine keeps_bind (keeps_now hquiet.now) fun now => ?_
  refine keeps_bind (keeps_offlineRetentionState now) fun state => ?_
  split
  · exact keeps_pure _
  refine keeps_attempt ?_ fun _ => keeps_pure _
  refine keeps_bind (keeps_readFile (hquiet.readFile _)) fun content => ?_
  split
  · split
    · refine keeps_bind (keeps_listChanges hquiet.listChanges) fun files => ?_
      split
      · exact keeps_pure _
      · refine keeps_bind (keeps_modify_names _) fun _ => ?_
        exact keeps_bind (keeps_markSuccessfulRemoteSync hquiet.now pullFrame_names.syncTimes)
          fun _ => keeps_pure _
    · exact keeps_pure _
  · exact keeps_pure _

theorem keeps_applyJoinExistingMeshPolicy (bootstrapped : Bool) :
    Keeps undisturbed (Names m₀) (applyJoinExistingMeshPolicy bootstrapped) := by
  refine keeps_bind keeps_get fun d => ?_
  split
  · exact keeps_pure _
  · dsimp only
    split_ifs
    · exact keeps_setMeta fun _ _ h => h
    · exact keeps_pure _
    · exact keeps_setMeta fun _ _ h => h
    · split
      · exact keeps_setMeta fun _ _ h => h
      · exact keeps_modify_names _

theorem keeps_applyMeshEvictionPolicy (bootstrapped : Bool) (remembered : Text × Option ℤ) :
    Keeps undisturbed (Names m₀) (applyMeshEvictionPolicy bootstrapped remembered) := by
  have hquiet : Quiet undisturbed (Names m₀) := quiet_undisturbed readsRegistry_names
  refine keeps_bind keeps_get fun d => ?_
  split
  · exact keeps_pure _
  split
  · exact keeps_pure _
  refine keeps_bind (keeps_setMeta fun _ _ h => h) fun _ => ?_
  split
  · refine keeps_bind ?_ fun _ => ?_
    · exact keeps_attempt (keeps_bind (keeps_readFile (hquiet.readFile _)) fun _ =>
        keeps_pure _) fun _ => keeps_pure _
    split
    · exact keeps_bind (keeps_modify_names _) fun _ => keeps_pure _
    · exact keeps_pure _
  · exact keeps_pure _

theorem keeps_connect : Keeps undisturbed (Names m₀) connect := by
  have hquiet : Quiet undisturbed (Names m₀) := quiet_undisturbed readsRegistry_names
  have hsession : IgnoresSession (Names m₀) := pullFrame_names.session
  refine keeps_bind keeps_get fun d => ?_
  split
  · exact keeps_pure _
  refine keeps_bind keeps_requireAdapter fun _ => ?_
  refine keeps_bind (keeps_authenticateStage hquiet hsession) fun authenticated => ?_
  split
  swap
  · exact keeps_pure _
  refine keeps_bind keeps_tryConnectFastPath fun fast => ?_
  split
  · exact keeps_pure _
  refine keeps_bind (keeps_ensureFolders hquiet hsession _) fun ensured => ?_
  split
  swap
  · exact keeps_pure _
  refine keeps_bind (keeps_bind keeps_metadata fun _ => keeps_pure _) fun remembered => ?_
  refine keeps_bind (keeps_connectStage hsession
    (keeps_doLoadOrCreateManifest loadFrame_names true _)) fun loaded => ?_
  split
  · exact keeps_pure _
  rw [connectToManifest_eq]
  refine keeps_bind (keeps_applyJoinExistingMeshPolicy _) fun _ => ?_
  refine keeps_bind (keeps_applyMeshEvictionPolicy _ _) fun refill => ?_
  refine keeps_bind
    (keeps_quarantineExpiredOfflineWrites connectFrame_names.toFlushFrame) fun expired => ?_
  exact keeps_connectFenced connectFrame_names _ _ _

end Connecting

/-! ## Publishing -/

theorem readsRegistry_forwarded : ReadsRegistry fun _ w => Forwarded m₀ w.objects :=
  fun _ _ _ hsame h => h.same hsame

theorem resolveManifestLineage_pos (lineage : Option ℤ) : 0 < resolveManifestLineage lineage := by
  unfold resolveManifestLineage
  split
  · split_ifs with h
    · exact h
    · exact Int.one_pos
  · exact Int.one_pos

theorem resolveManifestLineage_some {n : ℤ} (h : 0 < n) : resolveManifestLineage (some n) = n := by
  rw [resolveManifestLineage, if_pos h]

/-- The next manifest moves forward from the one that was loaded. -/
theorem movesForward_compacted (hm : completedManifest m₀ = .ok m) {serverId : Text} {now : ℕ}
    {hlc : Hlc} {retention : RetentionPolicy}
    (hnext : next.toManifestPayload = compactedPayload m serverId now hlc path retention) :
    MovesForward m₀ next := by
  obtain ⟨policy, -, rfl⟩ := exists_completedManifest_eq hm
  obtain ⟨payload, hash⟩ := next
  obtain rfl : payload = _ := hnext
  refine ⟨Nat.lt_succ_self _, Nat.lt_succ_self _, rfl, rfl, rfl, rfl, rfl, rfl, ?_⟩
  exact resolveManifestLineage_some (resolveManifestLineage_pos m₀.lineage)

/-- Nothing is published, or what is published moves forward. -/
def Progressed (m₀ : Manifest) (objects : Objects) : Prop :=
  Registered m₀ objects ∨ Forwarded m₀ objects

theorem keeps_prune_forwarded (active : ObjectPath) :
    Keeps undisturbed (fun _ w => Forwarded m₀ w.objects)
      (pruneSupersededSnapshots active) := by
  have hquiet : Quiet undisturbed fun _ w => Forwarded m₀ w.objects :=
    quiet_undisturbed readsRegistry_forwarded
  refine keeps_bind ?_ fun files => ?_
  · exact keeps_attempt (keeps_listMainline hquiet.listMainline) fun _ => keeps_pure _
  · refine Proc.keeps_forEach fun path hpath => ?_
    have hsnapshot : path.isSnapshot = true :=
      (Bool.and_eq_true_iff.mp (List.mem_filter.mp hpath).2).1
    refine keeps_attempt (keeps_deleteFile (askKeeps_delete_unregistered readsRegistry_forwarded ?_))
      fun _ => keeps_pure _
    cases path with
    | snapshot epoch serverId => rfl
    | _ => exact absurd hsnapshot (by simp [ObjectPath.isSnapshot])

/-- A manifest that moves forward is written, and then the pointer.  The manifest stands under its
own name, so the pointer names the old one until it is written itself. -/
theorem wp_publishNext (hmoves : MovesForward m₀ next) {α : Type} {rest : Eng α}
    (hrest : Keeps undisturbed (fun _ w => Forwarded m₀ w.objects) rest) {d : Device}
    {w : Mailbox} (h : Names m₀ d w) :
    (do
      writeFile (.rootFile (.manifest next.generation)) (.manifest next)
      writeFile .manifestPointer (.pointer ⟨next.generation, .manifest next.generation⟩)
      rest : Eng α).wp undisturbed
      (fun _ _ w' => Forwarded m₀ w'.objects) (fun _ _ w' => Progressed m₀ w'.objects) d w := by
  have hother : m₀.generation ≠ next.generation := hmoves.generation.ne
  rw [wp_bind, wp_writeFile]
  intro w₁ hr₁ rep w₂ hans
  have h₁ : Registered m₀ w₁.objects := Registered.same h hr₁
  refine ⟨trivial, ?_⟩
  cases rep with
  | error e =>
    have hkept : Registered m₀ w₂.objects := by
      rcases write_applied_or_not hans.1 with rfl | rfl
      · exact h₁
      · exact (h₁.stage hother).current
    cases e <;> exact .inl hkept
  | ok _ =>
    obtain rfl : w₂ = w₁.write _ _ := hans.1
    show (_ >>= _ : Eng _).wp _ _ _ _ _
    rw [wp_bind, wp_writeFile]
    intro w₃ hr₃ rep w₄ hans'
    have h₃ : Staged m₀ next w₃.objects := (h₁.stage hother).same hr₃
    refine ⟨trivial, ?_⟩
    cases rep with
    | error e =>
      have hkept : Progressed m₀ w₄.objects := by
        rcases write_applied_or_not hans'.1 with rfl | rfl
        · exact .inl h₃.current
        · exact .inr ⟨next, h₃.point, hmoves⟩
      cases e <;> exact hkept
    | ok _ =>
      obtain rfl : w₄ = w₃.write _ _ := hans'.1
      have hforward : Forwarded m₀ (w₃.write .manifestPointer
          (.pointer ⟨next.generation, .manifest next.generation⟩)).objects :=
        ⟨next, h₃.point, hmoves⟩
      exact hrest.wp hforward (fun _ _ _ hx => hx) fun _ _ _ hx => .inr hx

theorem wp_compactWith_forward (hm : completedManifest m₀ = .ok m) {d : Device} {w : Mailbox}
    (h : Names m₀ d w) (hlc : Hlc) (retention : RetentionPolicy) :
    (compactWith m hlc retention pullNow).wp undisturbed
      (fun _ _ w' => Forwarded m₀ w'.objects) (fun _ _ w' => Progressed m₀ w'.objects) d w := by
  have hquiet : Quiet undisturbed (Names m₀) := quiet_undisturbed readsRegistry_names
  rw [compactWith, wp_bind, wp_config]
  split
  · exact .inl h
  · rw [wp_bind]
    refine (keeps_pullNow pullFrame_names).wp h ?_ fun _ _ _ hx => .inl hx
    intro _ d₁ w₁ h₁
    rw [wp_bind, wp_store, wp_bind]
    refine (keeps_now hquiet.now).wp h₁ ?_ fun _ _ _ hx => .inl hx
    intro now d₂ w₂ h₂
    rw [wp_bind]
    have hid : Keeps undisturbed (Names m₀) (generateId snapshotKind) :=
      keeps_generateId hquiet.uuid
    refine hid.wp h₂ ?_ fun _ _ _ hx => .inl hx
    intro snapshotId d₃ w₃ h₃
    split
    · exact .inl h₃
    · rw [wp_bind]
      have hsnapshot : Keeps undisturbed (Names m₀)
          (writeFile (.snapshot (m.epoch + 1) d.config.serverId)
            (.snapshot m.meshId (buildSnapshot m hlc now snapshotId d₁.store))) :=
        keeps_writeFile (askKeeps_write_unregistered readsRegistry_names rfl)
      refine hsnapshot.wp h₃ ?_ fun _ _ _ hx => .inl hx
      intro _ d₄ w₄ h₄
      refine wp_publishNext (movesForward_compacted hm rfl) ?_ h₄
      refine keeps_bind (keeps_setMeta fun _ _ h => h) fun _ => ?_
      refine keeps_bind (Proc.keeps_forEach fun name _ => ?_) fun _ => ?_
      · exact keeps_attempt (keeps_deleteFile (askKeeps_delete_unregistered
          readsRegistry_forwarded rfl)) fun _ => keeps_pure _
      · exact keeps_bind (keeps_prune_forwarded _) fun _ => keeps_pure _

/-! ## The whole call -/

variable {d : Device} {w : Mailbox}

theorem wp_load_holding (h : Names m₀ d w) :
    (doLoadOrCreateManifest true {}).wp undisturbed
      (fun _ d' w' => ∃ m, completedManifest m₀ = .ok m ∧ Holding m₀ m d' w')
      (fun _ d' w' => Names m₀ d' w') d w := by
  refine wp_mono (wp_doLoadOrCreateManifest loadFrame_names.toManifestFrame h {} fun _ =>
    loadFrame_names.meshId) ?_ fun _ _ _ hx => hx
  rintro _ d' w' ⟨hnames, m, hheld, hobtained, -⟩
  have hfound : PointerFound undisturbed (Names m₀) := pointerFound_undisturbed fun _ _ h => h
  exact ⟨m, completed_of_loads (fun _ _ h => h) (hobtained.loads hfound), hnames, hheld⟩

/-- **A compaction of the core moves the mesh forward**, in whatever state the engine is: the
manifest it starts from is the one that it has just loaded. -/
theorem wp_compactUnfenced_forward (hm : completedManifest m₀ = .ok m) (h : Holding m₀ m d w) :
    compactUnfenced.wp undisturbed
      (fun _ _ w' => Forwarded m₀ w'.objects) (fun _ _ w' => Progressed m₀ w'.objects) d w := by
  have hflush := flushFrame_holding hm
  rw [compactUnfenced, wp_bind]
  refine (keeps_flushPendingBatch hflush.promoted).wp h ?_ fun _ _ _ hx => .inl hx.1
  intro _ d₁ w₁ h₁
  rw [wp_bind]
  refine (keeps_doFlush hflush).wp h₁ ?_ fun _ _ _ hx => .inl hx.1
  intro _ d₂ w₂ h₂
  rw [wp_bind]
  refine wp_requireAdapter_of ?_ fun _ => .inl h₂.1
  rw [wp_bind, Proc.wp_get, h₂.2]
  dsimp only
  rw [wp_bind]
  refine keeps_compactionRetention.wp (I := Names m₀) h₂.1 ?_ fun _ _ _ hx => .inl hx
  intro retention d₃ w₃ h₃
  rw [wp_bind]
  refine wp_mono (wp_compactWith_forward hm h₃ _ retention) ?_ fun _ _ _ hx => hx
  intro next d₄ w₄ h₄
  rw [wp_bind, Proc.wp_modify]
  have hrest : Keeps undisturbed (fun _ w => Forwarded m₀ w.objects) acknowledgeManifest :=
    keeps_acknowledgeManifest (quiet_undisturbed readsRegistry_forwarded) fun _ _ =>
      askKeeps_write_unregistered readsRegistry_forwarded rfl
  exact hrest.wp h₄ (fun _ _ _ hx => hx) fun _ _ _ hx => .inr hx

/-- Whatever becomes of a call of `compact`, the pointer names the old manifest or one that moves
forward from it. -/
theorem wp_compact_progressed (h : Names m₀ d w) :
    compact.wp undisturbed (fun _ _ w' => Progressed m₀ w'.objects)
      (fun _ _ w' => Progressed m₀ w'.objects) d w := by
  rw [compact_eq, wp_bind]
  refine wp_mono (wp_load_holding h) ?_ fun _ _ _ hx => .inl hx
  rintro _ d₁ w₁ ⟨m, hm, h₁⟩
  rw [wp_bind]
  refine (keeps_quarantineExpiredOfflineWrites (flushFrame_holding hm)).wp h₁ ?_ fun _ _ _ hx =>
    .inl hx.1
  intro expired d₂ w₂ h₂
  split
  · exact (keeps_resetExpiredClientFromRemote connectFrame_names).wp (I := Names m₀) h₂.1
      (fun _ _ _ hx => .inl hx) fun _ _ _ hx => .inl hx
  · exact wp_mono (wp_compactUnfenced_forward hm h₂) (fun _ _ _ hx => .inr hx) fun _ _ _ hx => hx

/-! ## Runs -/

section Runs

variable {d₁ d₂ d' : Device} {w₁ w₂ w' : Mailbox} {r : Except Failure Unit} {bootstrapped : Bool}

theorem registered_of_pullNow (h : Registered m₀ w.objects)
    (hrun : Prog.Run undisturbed (pullNow d) w r d' w') : Registered m₀ w'.objects := by
  have hstart : Names m₀ d w := h
  exact wp_run_ends (P := Names m₀) (keeps_pullNow pullFrame_names d w hstart) hrun

theorem registered_of_flushQueued {includePendingBatch : Bool} (h : Registered m₀ w.objects)
    (hrun : Prog.Run undisturbed (flushQueued includePendingBatch d) w r d' w') :
    Registered m₀ w'.objects := by
  have hstart : Names m₀ d w := h
  exact wp_run_ends (P := Names m₀)
    (keeps_flushQueued connectFrame_names.toFlushFrame _ d w hstart) hrun

theorem registered_of_connect (h : Registered m₀ w.objects)
    (hrun : Prog.Run undisturbed (connect d) w r d' w') : Registered m₀ w'.objects := by
  have hstart : Names m₀ d w := h
  exact wp_run_ends (P := Names m₀) (keeps_connect d w hstart) hrun

theorem progressed_of_compact (h : Registered m₀ w.objects)
    (hrun : Prog.Run undisturbed (compact d) w r d' w') : Progressed m₀ w'.objects := by
  have hstart : Names m₀ d w := h
  exact wp_run_ends (P := fun _ w => Progressed m₀ w.objects) (wp_compact_progressed hstart) hrun

/-- A call of `compact` that gets past the check of the offline limit publishes, if it ends
normally. -/
theorem forwarded_of_compactUnfenced (h : Registered m₀ w.objects)
    (hload : Prog.Run undisturbed (doLoadOrCreateManifest true {} d) w (.ok bootstrapped) d₁ w₁)
    (hcheck : Prog.Run undisturbed (quarantineExpiredOfflineWrites d₁) w₁ (.ok false) d₂ w₂)
    (hrun : Prog.Run undisturbed (compactUnfenced d₂) w₂ r d' w') :
    Progressed m₀ w'.objects ∧ (r.isOk = true → Forwarded m₀ w'.objects) := by
  have hstart : Names m₀ d w := h
  obtain ⟨m, hm, h₁⟩ := Proc.wp_run_ok (wp_load_holding hstart) hload
  have h₂ : Holding m₀ m d₂ w₂ := wp_run_ends (P := Holding m₀ m)
    (keeps_quarantineExpiredOfflineWrites (flushFrame_holding hm) d₁ w₁ h₁) hcheck
  have hwp := wp_compactUnfenced_forward hm h₂
  cases r with
  | ok a =>
    have hforward := Proc.wp_run_ok hwp hrun
    exact ⟨.inr hforward, fun _ => hforward⟩
  | error e => exact ⟨Proc.wp_run_error hwp hrun, fun hok => absurd hok Bool.noConfusion⟩

end Runs

end Interocitor
