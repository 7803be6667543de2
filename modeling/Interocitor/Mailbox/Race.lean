import Interocitor.Mailbox.World

/-!
# A pull that races other engines

A pull lists the change files and then reads the ones it has no receipt for, up to four
of them ahead of the one being merged.  Meanwhile other engines write and delete: a
compaction deletes every change file that its snapshot covers.  A file that is gone when
its turn comes fails the read, and `pull` treats a failed read like a payload that cannot
be decoded: it poisons the remote and stops synchronising.

The world here remembers the files that the pull has listed and not read yet, with what
they held.  Other engines do what they like as long as every object stays well formed.

The store of the engine does not fail here; in the code, a store that does while a change is
decoded or merged poisons the remote as well.

* `pull_does_not_poison`: a pull never poisons a healthy mesh in a run in which nobody
  deletes or replaces a file that it waits for, no request for such a file fails, and the
  listed changes have ordinary names and are not in conflict.
* `compaction_poisons_a_pull`: a compaction by another engine between the listing and the
  first read poisons a healthy mesh.
-/

namespace Interocitor

open CodeUnits OrderedRecord Interaction Eng List
open Proc (wp_bind wp_mono wp_get Keeps wp_when wp_pure)

/-! ## Healthy meshes -/

/-- An object of the mesh `mesh`, of the shape that its place asks for. -/
def wellFormed (mesh : Text) : ObjectPath → Content → Bool
  | .manifestPointer, .pointer _ => true
  | .rootFile _, .manifest m => decide (m.meshId = mesh)
  | .deviceFile _, .device _ => true
  | .snapshot _ _, .snapshot meshId _ => decide (meshId = mesh)
  | .change name, .change meshId _ => decide (meshId = mesh ∧ name ≠ headName)
  | .change name, .head _ => decide (name = headName)
  | .evicted, _ => true
  | _, _ => false

/-- Every object is well formed. -/
def Healthy (mesh : Text) (objects : Objects) : Prop :=
  ∀ p ∈ objects.entries, wellFormed mesh p.1 p.2 = true

theorem Healthy.get {mesh : Text} {objects : Objects} (h : Healthy mesh objects)
    {path : ObjectPath} {content : Content} (hget : objects.get path = some content) :
    wellFormed mesh path content = true :=
  h (path, content) (Record.mem_entries_iff.mpr hget)

/-- The mesh ids that an engine knows are those of the mesh. -/
structure Member (mesh : Text) (d : Device) : Prop where
  held : ∀ e, truthy (d.manifest.map fun m => m.meshId) = some e → e = mesh
  stored : ∀ e, truthy d.store.metadata.meshId = some e → e = mesh

/-! ## The world of a racing pull -/

/-- The mailbox, and the change files that the pull has listed and not read yet, with
what they held then. -/
structure Race where
  mailbox : Mailbox
  awaited : List (Text × Content)

namespace Race

/-- The files of a listing that the pull of `d` is going to read. -/
def awaitedOf (d : Device) (objects : Objects) (names : List Text) : List (Text × Content) :=
  (unseenFiles (.load d.store.metadata.changeObservation) names).filterMap fun name =>
    (objects.get (.change name)).map fun content => (name, content)

/-- What the pull waits for after an answer. -/
def awaitedAfter (d : Device) (w : Race) : (c : Call) → Reply c → List (Text × Content)
  | .listChanges, .ok names => awaitedOf d w.mailbox.objects names
  | .readFile (.change name), _ => w.awaited.filter fun p => decide (p.1 ≠ name)
  | _, _ => w.awaited

/-- A read that was sent ahead of its turn may have arrived at any time since the
listing. -/
def ReadAhead (w : Race) : (c : Call) → Reply c → Prop
  | .readFile (.change name), .ok content => (name, content) ∈ w.awaited
  | _, _ => False

/-- Other engines keep every object well formed; the store may fail but does not lie. -/
def racing (mesh : Text) (d : Device) : Env Call Reply Race where
  rely w w₁ := Healthy mesh w₁.mailbox.objects ∧ w₁.awaited = w.awaited
  answer w c rep w' :=
    (w.mailbox.Truthful c rep w'.mailbox ∨ w.ReadAhead c rep ∧ w'.mailbox = w.mailbox) ∧
      w'.awaited = w.awaitedAfter d c rep
  guar _ _ := True

/-- Merge the entries of change files in order. -/
def mergeContents (schemaVersion : ℕ) (schema : Option DatabaseSchemaDefinition) :
    LocalStore → List Content → Except MergeError LocalStore
  | store, .change _ entry :: rest =>
    match mergeEntry store entry schemaVersion schema with
    | .error e => .error e
    | .ok store => mergeContents schemaVersion schema store rest
  | store, _ => .ok store

/-- The changes that the pull of `d` is going to merge are not in conflict. -/
def NoConflict (d : Device) (store : LocalStore) (awaited : List (Text × Content)) : Prop :=
  ∃ store', mergeContents ((d.manifest.map fun m => m.schema).getD 1) d.config.schema store
    (awaited.map Prod.snd) = .ok store'

/-- The changes that the pull of `d` is going to merge: their files can be recorded, their ops
are ordinary, and they are not in conflict. -/
structure Mergeable (d : Device) (awaited : List (Text × Content)) : Prop where
  recordable : ∀ p ∈ awaited, isRecordable p.1 = true
  ordinary : ∀ p ∈ awaited, ∀ meshId entry, p.2 = .change meshId entry →
    ∀ op ∈ entry.ops, op.Ordinary
  noConflict : NoConflict d d.store awaited

/-- The requests whose failure poisons the remote do not fail, and what is listed can be
merged. -/
def Served (d : Device) (w : Race) : (c : Call) → Reply c → Prop
  | .readFile (.change name), rep =>
    (∃ content, (name, content) ∈ w.awaited) → ∀ e, rep ≠ .error (.failed e)
  | .readFile .manifestPointer, rep => d.manifest = none → ∀ e, rep ≠ .error (.failed e)
  | .listChanges, .ok names => Mergeable d (awaitedOf d w.mailbox.objects names)
  | _, _ => True

/-- Nobody deletes or replaces a file that the pull waits for. -/
def undisturbed (mesh : Text) (d : Device) : Env Call Reply Race where
  rely w w₁ := (racing mesh d).rely w w₁ ∧ ∀ p ∈ w.awaited,
    w₁.mailbox.objects.get (.change p.1) = w.mailbox.objects.get (.change p.1)
  answer w c rep w' := (racing mesh d).answer w c rep w' ∧ w.Served d c rep
  guar _ _ := True

variable {mesh : Text} {d₀ d : Device} {w : Race}

/-! ## The files that a pull waits for -/

theorem there_awaitedOf (objects : Objects) (names : List Text) :
    ∀ p ∈ awaitedOf d objects names, objects.get (.change p.1) = some p.2 := by
  intro p hp
  obtain ⟨name, -, hname⟩ := mem_filterMap.mp hp
  obtain ⟨content, hget, rfl⟩ := Option.map_eq_some_iff.mp hname
  exact hget

theorem names_awaitedOf {objects : Objects} {names : List Text}
    (h : names.Perm (changeNames objects)) :
    (awaitedOf d objects names).map Prod.fst =
      unseenFiles (.load d.store.metadata.changeObservation) names := by
  have hthere : ∀ name ∈ unseenFiles (.load d.store.metadata.changeObservation) names,
      ∃ content, objects.get (.change name) = some content := fun name hname =>
    mem_changeNames.mp (h.mem_iff.mp (mem_unseenFiles.mp hname).1)
  rw [awaitedOf]
  generalize unseenFiles (.load d.store.metadata.changeObservation) names = l at hthere
  induction l with
  | nil => rfl
  | cons name l ih =>
    obtain ⟨content, hget⟩ := hthere name mem_cons_self
    rw [filterMap_cons, hget, Option.map_some, map_cons,
      ih fun n hn => hthere n (mem_cons_of_mem _ hn)]

/-- The state of a pull that still has to read the files `names`. -/
structure Waiting (mesh : Text) (d₀ : Device) (names : List Text) (d : Device) (w : Race) :
    Prop where
  poison : d.remotePoisonError = none
  stored : ∀ e, truthy d.store.metadata.meshId = some e → e = mesh
  config : d.config = d₀.config
  awaited : w.awaited.map Prod.fst = names
  there : ∀ p ∈ w.awaited, w.mailbox.objects.get (.change p.1) = some p.2
  recordable : ∀ p ∈ w.awaited, isRecordable p.1 = true
  noConflict : NoConflict d₀ d.store w.awaited

variable {name : Text}

theorem Waiting.split {rest : List Text} (h : Waiting mesh d₀ (name :: rest) d w) :
    ∃ content awaited, w.awaited = (name, content) :: awaited ∧ awaited.map Prod.fst = rest := by
  obtain ⟨p, awaited, heq, hp, hrest⟩ := map_eq_cons_iff.mp h.awaited
  exact ⟨p.2, awaited, by rw [heq, ← hp], hrest⟩

variable {awaited : List (Text × Content)}

/-- The read of the next file answers with what was listed, or not at all. -/
theorem read_awaited {content : Content} {w₁ w₂ : Race} {rep : Except NoAnswer Content}
    (heq : w.awaited = (name, content) :: awaited) (hnodup : (w.awaited.map Prod.fst).Nodup)
    (hthere : w.mailbox.objects.get (.change name) = some content)
    (hr : (undisturbed mesh d₀).rely w w₁)
    (hans : (undisturbed mesh d₀).answer w₁ (.readFile (.change name)) rep w₂) :
    (rep = .ok content ∨ rep = .error .stalled) ∧ w₂.awaited = awaited ∧
      w₂.mailbox = w₁.mailbox := by
  obtain ⟨⟨-, hsame⟩, hkept⟩ := hr
  obtain ⟨⟨htruth, hafter⟩, hserved⟩ := hans
  have hmem : (name, content) ∈ w.awaited := heq ▸ mem_cons_self
  have hget : w₁.mailbox.objects.get (.change name) = some content :=
    (hkept _ hmem).trans hthere
  rw [heq, map_cons, nodup_cons] at hnodup
  -- the name occurs once among the awaited files
  have honce : ∀ c, (name, c) ∈ w₁.awaited → c = content := by
    intro c hc
    rw [hsame, heq, mem_cons] at hc
    rcases hc with hc | hc
    · exact (Prod.mk.inj hc).2
    · exact absurd (mem_map.mpr ⟨_, hc, rfl⟩) hnodup.1
  have hrest : w₂.awaited = awaited := by
    rw [hafter]
    show w₁.awaited.filter _ = _
    rw [hsame, heq, filter_cons_of_neg (by simp), filter_eq_self]
    intro p hp
    refine decide_eq_true fun hname => hnodup.1 ?_
    exact mem_map.mpr ⟨p, hp, hname⟩
  have hok : ∀ c, rep = .ok c → c = content := by
    rintro c rfl
    rcases htruth with htruth | hahead
    · exact Option.some.inj ((show w₁.mailbox.objects.get _ = some c from htruth.2).symm.trans hget)
    · exact honce c hahead.1
  have hbox : w₂.mailbox = w₁.mailbox := by
    rcases htruth with htruth | hahead
    · exact htruth.1
    · exact hahead.2
  refine ⟨?_, hrest, hbox⟩
  cases rep with
  | ok c => exact .inl (by rw [hok c rfl])
  | error e =>
    cases e with
    | stalled => exact .inr rfl
    | failed e => exact absurd rfl (hserved ⟨content, hsame ▸ hmem⟩ e)

/-! ## Reading them -/

theorem noConflict_cons {store : LocalStore} {meshId : Text} {entry : ChangeEntry}
    (h : NoConflict d₀ store ((name, .change meshId entry) :: awaited)) :
    ∃ store', mergeEntry store entry ((d₀.manifest.map fun m => m.schema).getD 1)
      d₀.config.schema = .ok store' ∧ NoConflict d₀ store' awaited := by
  obtain ⟨final, hfinal⟩ := h
  rw [map_cons, mergeContents] at hfinal
  split at hfinal
  · exact absurd hfinal (by simp)
  · rename_i store' hmerge
    exact ⟨store', hmerge, final, hfinal⟩

theorem NoConflict.congr {s t : LocalStore} (hrows : s.rows = t.rows)
    (h : NoConflict d₀ s awaited) : NoConflict d₀ t awaited := by
  induction awaited generalizing s t with
  | nil => exact ⟨t, rfl⟩
  | cons p awaited ih =>
    obtain ⟨name, content⟩ := p
    cases content with
    | change meshId entry =>
      obtain ⟨store', hmerge, hrest⟩ := noConflict_cons h
      have hnext : store'.rows = ({ t with rows := store'.rows } : LocalStore).rows := rfl
      obtain ⟨final, hfinal⟩ := ih hnext hrest
      refine ⟨final, ?_⟩
      rw [map_cons, mergeContents, mergeEntry_congr hrows hmerge]
      exact hfinal
    | _ => exact ⟨t, rfl⟩

theorem change_of_healthy {objects : Objects} {content : Content} (h : Healthy mesh objects)
    (hget : objects.get (.change name) = some content) (hname : name ≠ headName) :
    ∃ entry, content = .change mesh entry := by
  have hwell := h.get hget
  cases content with
  | change meshId entry => exact ⟨entry, by rw [(of_decide_eq_true hwell).1]⟩
  | head latest => exact absurd (of_decide_eq_true hwell) hname
  | _ => exact absurd hwell Bool.false_ne_true

/-- One turn of the loop: the file is read and merged, or the read never ends. -/
theorem wp_pullFile_undisturbed (hmesh : mesh ≠ [])
    (hheld : ∀ e, truthy (d₀.manifest.map fun m => m.meshId) = some e → e = mesh) {rest : List Text}
    (hnodup : (name :: rest).Nodup) (hhead : name ≠ headName)
    (h : Waiting mesh d₀ (name :: rest) d w) (progress : Hlc × ChangeObservationLedger) :
    (pullFile d₀.manifest name progress).wp (undisturbed mesh d₀) (fun _ => Waiting mesh d₀ rest)
      (fun failure d' _ => failure = .stalled ∧ d'.remotePoisonError = none) d w := by
  obtain ⟨content, awaited, hawaited, hrest⟩ := h.split
  have hthere := h.there _ (hawaited ▸ mem_cons_self)
  rw [pullFile, wp_bind, wp_readFile]
  intro w₁ hr rep w₂ hans
  refine ⟨trivial, ?_⟩
  obtain ⟨hrep, hafter, hbox⟩ :=
    read_awaited hawaited (h.awaited ▸ hnodup) hthere hr hans
  rcases hrep with rfl | rfl
  · have hget : w₁.mailbox.objects.get (.change name) = some content :=
      (hr.2 _ (hawaited ▸ mem_cons_self)).trans hthere
    obtain ⟨entry, rfl⟩ := change_of_healthy hr.1.1 hget hhead
    obtain ⟨store', hmerge, hconf⟩ := noConflict_cons (hawaited ▸ h.noConflict)
    show (_ >>= _ : Eng _).wp _ _ _ _ _
    rw [wp_bind, decodeChangePayload, wp_bind]
    refine wp_assertExpectedMeshId_accepted hmesh hheld h.stored ?_
    rw [wp_pure, wp_bind, wp_now]
    intro w₃ hr₃ wall w₄ hans₄
    refine ⟨trivial, ?_⟩
    have hrows : d.store.rows =
        (d.withMeta fun m => { m with meshId := some mesh }).store.rows := rfl
    rw [wp_bind, wp_get, show (d.withMeta fun m =>
        { m with meshId := some mesh }).config = d₀.config from h.config,
      mergeEntry_congr hrows hmerge]
    obtain ⟨ledger, hledger⟩ := progress.2.exists_observe entry.hlc
      (h.recordable _ (hawaited ▸ mem_cons_self))
    show (_ >>= _ : Eng _).wp _ _ _ _ _
    rw [wp_bind, wp_modifyStore, hledger]
    -- while the clock is read, nobody touches the files that are left
    have hsame : w₄.awaited = awaited := by
      rw [hans₄.1.2]
      show w₃.awaited = awaited
      rw [hr₃.1.2, hafter]
    have hobjects : w₄.mailbox = w₃.mailbox := by
      rcases hans₄.1.1 with htruth | hahead
      · exact htruth
      · exact hahead.1.elim
    refine ⟨h.poison, ?_, h.config, by rw [hsame, hrest], ?_, ?_, ?_⟩
    · intro e he
      have hmesh' : truthy (some mesh) = some e := he
      rw [truthy_of_ne_nil hmesh] at hmesh'
      exact (Option.some.inj hmesh').symm
    · intro p hp
      rw [hsame] at hp
      rw [hobjects, hr₃.2 p (hafter ▸ hp), hbox, hr.2 p (hawaited ▸ mem_cons_of_mem _ hp)]
      exact h.there p (hawaited ▸ mem_cons_of_mem _ hp)
    · intro p hp
      rw [hsame] at hp
      exact h.recordable p (hawaited ▸ mem_cons_of_mem _ hp)
    · rw [hsame]
      refine hconf.congr ?_
      rfl
  · exact ⟨rfl, h.poison⟩

theorem wp_pullFiles_undisturbed (hmesh : mesh ≠ [])
    (hheld : ∀ e, truthy (d₀.manifest.map fun m => m.meshId) = some e → e = mesh)
    {names : List Text} (hnodup : names.Nodup)
    (hnames : ∀ name ∈ names, name ≠ headName)
    (h : Waiting mesh d₀ names d w) (progress : Hlc × ChangeObservationLedger) :
    (pullFiles d₀.manifest names progress).wp (undisturbed mesh d₀)
      (fun _ d' _ => d'.remotePoisonError = none) (fun _ d' _ => d'.remotePoisonError = none) d w := by
  induction names generalizing d w progress with
  | nil => exact h.poison
  | cons name rest ih =>
    have hhead := hnames name mem_cons_self
    rw [pullFiles, wp_bind, wp_attempt]
    refine wp_mono (wp_pullFile_undisturbed hmesh hheld hnodup hhead h progress) ?_ ?_
    · intro progress' d' w' h'
      exact ih hnodup.of_cons (fun n hn => hnames n (mem_cons_of_mem _ hn)) h' progress'
    · rintro failure d' w' ⟨rfl, hpoison⟩
      exact hpoison

/-! ## Before the listing -/

/-- The state of a pull before it lists the files. -/
structure Before (mesh : Text) (d₀ d : Device) (_ : Race) : Prop where
  poison : d.remotePoisonError = none
  stored : ∀ e, truthy d.store.metadata.meshId = some e → e = mesh
  config : d.config = d₀.config
  rows : d.store.rows = d₀.store.rows
  observation : d.store.metadata.changeObservation = d₀.store.metadata.changeObservation

theorem Before.withMeshId (hmesh : mesh ≠ []) (h : Before mesh d₀ d w) :
    Before mesh d₀ (d.withMeta fun m => { m with meshId := some mesh }) w := by
  refine ⟨h.poison, fun e he => ?_, h.config, h.rows, h.observation⟩
  have hsome : truthy (some mesh) = some e := he
  rw [truthy_of_ne_nil hmesh] at hsome
  exact (Option.some.inj hsome).symm

/-- A manifest of the mesh passes or is refused, and nothing is poisoned. -/
theorem wp_checkManifest_member (hmesh : mesh ≠ []) (hnone : d.manifest = none)
    (h : Before mesh d₀ d w) {m : Manifest} (hm : m.meshId = mesh) :
    (checkManifest true m).wp (undisturbed mesh d₀)
      (fun _ => Before mesh d₀)
      (fun _ d' _ => d'.remotePoisonError = none) d w := by
  rw [checkManifest]
  split
  · exact h.poison
  · rename_i m' hcompleted
    have hm' : m'.meshId = mesh := (meshId_completedManifest hcompleted).trans hm
    rw [wp_bind, wp_when]
    refine ⟨fun _ => ?_, fun hn => absurd rfl hn⟩
    rw [assertManifestMesh, wp_bind, wp_get, wp_attempt, hm']
    refine wp_assertExpectedMeshId_accepted hmesh ?_ h.stored ?_
    · rw [hnone]
      intro e he
      exact absurd he (by simp)
    · rw [wp_bind, wp_config]
      split
      · exact h.poison
      · exact h.withMeshId hmesh

theorem wp_loadOrCreateManifest_member (hmesh : mesh ≠ []) (hnone : d₀.manifest = none)
    (hnone' : d.manifest = none) (h : Before mesh d₀ d w) :
    (loadOrCreateManifest true true).wp (undisturbed mesh d₀)
      (fun _ => Before mesh d₀)
      (fun _ d' _ => d'.remotePoisonError = none) d w := by
  rw [loadOrCreateManifest, wp_bind, findPointer, if_pos rfl, readPointerIfExists, wp_attempt,
    readPointer, wp_bind, wp_readFile]
  intro w₁ hr rep w₂ hans
  refine ⟨trivial, ?_⟩
  have htruth : w₁.mailbox.ReadAnswer .manifestPointer rep := by
    rcases hans.1.1 with htruth | hahead
    · exact htruth.2
    · exact hahead.1.elim
  cases rep with
  | error e =>
    cases e with
    | stalled => exact h.poison
    | failed e => exact absurd rfl (hans.2 hnone e)
  | ok content =>
    have hwell := hr.1.1.get htruth
    cases content with
    | pointer p =>
      show (_ >>= _ : Eng _).wp _ _ _ _ _
      rw [wp_bind, readManifest, wp_bind, wp_readFile]
      intro w₃ hr₃ rep w₄ hans₄
      refine ⟨trivial, ?_⟩
      have htruth₄ : w₃.mailbox.ReadAnswer (.rootFile p.file) rep := by
        rcases hans₄.1.1 with htruth | hahead
        · exact htruth.2
        · exact hahead.1.elim
      have h₄ : Before mesh d₀ d w₄ :=
        { h with }
      cases rep with
      | error e => cases e <;> exact h.poison
      | ok content =>
        have hwell₄ := hr₃.1.1.get htruth₄
        cases content with
        | manifest m =>
          show (_ >>= _ : Eng _).wp _ _ _ _ _
          rw [wp_bind]
          exact wp_mono (wp_checkManifest_member hmesh hnone' h₄ (of_decide_eq_true hwell₄))
            (fun _ _ _ hq => hq)
            fun _ _ _ hx => hx
        | _ => exact absurd hwell₄ Bool.false_ne_true
    | _ => exact absurd hwell Bool.false_ne_true

theorem wp_load_member (hmesh : mesh ≠ []) (hpoison : d₀.remotePoisonError = none)
    (hmember : Member mesh d₀) :
    (doLoadOrCreateManifest false {}).wp (undisturbed mesh d₀) (fun _ => Before mesh d₀)
      (fun _ d' _ => d'.remotePoisonError = none) d₀ w := by
  have hstart : ∀ w, Before mesh d₀ d₀ w := fun w =>
    ⟨hpoison, hmember.stored, rfl, rfl, rfl⟩
  rw [doLoadOrCreateManifest, wp_bind, wp_get]
  cases hman : d₀.manifest with
  | some m =>
    rw [if_pos (by rw [hpoison]; rfl)]
    exact hstart w
  | none =>
    rw [if_neg (by simp), wp_bind]
    refine wp_requireAdapter_of ?_ fun _ => hpoison
    rw [wp_bind]
    refine wp_mono (wp_loadOrCreateManifest_member hmesh hman hman (hstart w)) ?_ fun _ _ _ hx => hx
    rintro ⟨m, bootstrapped⟩ d₁ w₁ h₁
    rw [wp_bind, Proc.wp_modify, wp_bind, wp_when]
    refine ⟨fun _ => ?_, fun hn => absurd rfl hn⟩
    exact { h₁ with }

/-! ## The pull -/

theorem quiet_device {P : Device → Prop} : Quiet (undisturbed mesh d₀) (fun d _ => P d) where
  now _ _ _ _ _ h _ _ := ⟨trivial, h⟩
  uuid _ _ _ _ _ h _ _ := ⟨trivial, h⟩
  isAuthenticated _ _ _ _ _ h _ _ := ⟨trivial, h⟩
  authenticate _ _ _ _ _ h _ _ := ⟨trivial, h⟩
  readFile _ _ _ _ _ _ h _ _ := ⟨trivial, h⟩
  listChanges _ _ _ _ _ h _ _ := ⟨trivial, h⟩
  listMainline _ _ _ _ _ h _ _ := ⟨trivial, h⟩
  ensureFolder _ _ _ _ _ _ h _ _ := ⟨trivial, h⟩

/-- A listing that succeeds begins the wait for the files that are unseen. -/
theorem wp_listChangesIfExists_undisturbed (h : Before mesh d₀ d w) :
    listChangesIfExists.wp (undisturbed mesh d₀)
      (fun listing d' w' => d'.remotePoisonError = none ∧ ∀ names, listing = some names →
        Waiting mesh d₀ (unseenFiles (.load d₀.store.metadata.changeObservation) names) d' w')
      (fun _ d' _ => d'.remotePoisonError = none) d w := by
  rw [listChangesIfExists, wp_attempt, wp_bind, wp_listChanges]
  intro w₁ hr rep w₂ hans
  refine ⟨trivial, ?_⟩
  cases rep with
  | ok names =>
    have htruth : w₂.mailbox = w₁.mailbox ∧ names.Perm (changeNames w₁.mailbox.objects) := by
      rcases hans.1.1 with htruth | hahead
      · exact htruth
      · exact hahead.1.elim
    have hawaited : w₂.awaited = awaitedOf d₀ w₁.mailbox.objects names := hans.1.2
    refine ⟨h.poison, fun names' heq => ?_⟩
    obtain rfl := Option.some.inj heq
    have hmergeable : Mergeable d₀ (awaitedOf d₀ w₁.mailbox.objects names) := hans.2
    refine ⟨h.poison, h.stored, h.config, ?_, ?_, ?_, ?_⟩
    · rw [hawaited, names_awaitedOf htruth.2]
    · rw [hawaited, htruth.1]
      exact there_awaitedOf _ _
    · rw [hawaited]
      exact hmergeable.recordable
    · rw [hawaited]
      exact hmergeable.noConflict.congr h.rows.symm
  | error e =>
    cases e with
    | stalled => exact h.poison
    | failed e =>
      show (if _ then _ else _ : Eng _).wp _ _ _ _ _
      split
      · exact h.poison
      · exact ⟨h.poison, fun _ heq => absurd heq (by simp)⟩

theorem wp_pull_undisturbed (hmesh : mesh ≠ []) (hpoison : d₀.remotePoisonError = none)
    (hmember : Member mesh d₀) :
    (pull (do let _ ← doLoadOrCreateManifest false {})).wp (undisturbed mesh d₀)
      (fun _ d' _ => d'.remotePoisonError = none) (fun _ d' _ => d'.remotePoisonError = none)
      d₀ w := by
  rw [pull, wp_bind, wp_get, wp_bind, wp_bind]
  refine wp_mono (wp_load_member hmesh hpoison hmember) ?_ fun _ _ _ hx => hx
  intro _ d₁ w₁ h₁
  rw [wp_pure, wp_bind, wp_metadata, wp_bind]
  have hhead : Keeps (undisturbed mesh d₀) (fun d' _ => Before mesh d₀ d' w₁)
      readHeadIfExists := keeps_readHeadIfExists quiet_device
  refine hhead.wp h₁ ?_ fun _ _ _ hx => hx.poison
  intro _ d₂ w₂ h₂
  have h₂' : Before mesh d₀ d₂ w₂ := { h₂ with }
  rw [wp_bind]
  refine wp_mono (wp_listChangesIfExists_undisturbed h₂') ?_ fun _ _ _ hx => hx
  rintro listing d₃ w₃ ⟨hp₃, hwait⟩
  cases listing with
  | none => exact hp₃
  | some names =>
    show (_ >>= _ : Eng _).wp _ _ _ _ _
    rw [wp_bind, h₁.observation]
    refine wp_mono (wp_pullFiles_undisturbed hmesh hmember.held (nodup_unseenFiles _ _) ?_
      (hwait names rfl) _) ?_ fun _ _ _ hx => hx
    · exact fun name hname => (mem_unseenFiles.mp hname).2.1
    · intro progress d₄ w₄ hp₄
      exact hp₄

/-- `poisonRemote` was not called. -/
def NotPoisoned (d : Device) (_ : Race) : Prop := d.remotePoisonError = none

theorem keeps_handled (e : EngineError) : Keeps (undisturbed mesh d₀) NotPoisoned
    (do handleRemoteAccessError e; fail e : Eng Unit) := by
  refine Proc.keeps_bind (Proc.keeps_modify fun d w hd => ?_) fun _ => keeps_fail _
  show Device.remotePoisonError _ = none
  split
  · split
    · exact hd
    · exact hd
  · exact hd

/-- **A pull does not poison a healthy mesh** in any run in which nobody touches a file
that it waits for, no request for such a file fails, and the listed changes have ordinary
names and are not in conflict: it completes, or fails in a way that can be retried. -/
theorem pull_does_not_poison (hmesh : mesh ≠ []) (hmember : Member mesh d₀)
    (hpoison : d₀.remotePoisonError = none) {r : Except Failure Unit} {d' : Device} {w' : Race}
    (hrun : Prog.Run (undisturbed mesh d₀) (pullNow d₀) w r d' w') :
    d'.remotePoisonError = none := by
  have hquiet : Quiet (undisturbed mesh d₀) NotPoisoned := quiet_device
  have hrecords : DeviceRecords (undisturbed mesh d₀) NotPoisoned :=
    fun _ _ _ _ _ _ _ h _ _ => ⟨trivial, h⟩
  refine Proc.wp_run_ends (P := NotPoisoned) ?_ hrun
  rw [pullNow, wp_bind]
  refine wp_requireAdapter_of ?_ fun _ => hpoison
  rw [wp_attempt, wp_bind]
  refine wp_mono (wp_pull_undisturbed hmesh hpoison hmember) ?_ ?_
  · intro hlc d₁ w₁ h₁
    rw [wp_bind, Proc.wp_modify, wp_bind, wp_get]
    have hrest : Keeps (undisturbed mesh d₀) NotPoisoned (do
        Proc.when (d₁.connected = true) markSuccessfulRemoteSync
        acknowledgeManifest) := by
      refine Proc.keeps_bind (Proc.keeps_when ?_) fun _ => ?_
      · exact keeps_markSuccessfulRemoteSync hquiet.now fun _ _ _ h => h
      · exact keeps_acknowledgeManifest hquiet hrecords
    refine hrest.wp h₁ (fun _ _ _ h => h) fun failure d₂ w₂ h₂ => ?_
    cases failure with
    | stalled => exact h₂
    | thrown e => exact keeps_handled e d₂ w₂ h₂
  · intro failure d₁ w₁ h₁
    cases failure with
    | stalled => exact h₁
    | thrown e => exact keeps_handled e d₁ w₁ h₁

/-! ## A compaction in between -/

/-- Others do nothing but the compaction that turns `before` into `after`. -/
def duringCompaction (d : Device) (before after : Mailbox) : Env Call Reply Race where
  rely w w₁ := w₁ = w ∨ w.mailbox = before ∧ w₁ = ⟨after, w.awaited⟩
  answer := (racing [] d).answer
  guar _ _ := True

/-- The change of a device `"b"`: its first row is deleted. -/
def racedEntry : ChangeEntry :=
  ⟨changeKind ++ [95, 49], 5, [98], hlcSerialize (hlcInit 5 [98]),
    [.delete [116] [114] (hlcSerialize (hlcInit 5 [98]))]⟩

/-- The first manifest of the mesh `"mesh"`. -/
def racedManifest : Manifest :=
  let payload := bootstrapPayload (defaultConfig [98]) 0 meshKind 1
  { payload with contentHash := computeContentHash payload }

/-- A mesh with one change file. -/
def racedMailbox : Mailbox :=
  ⟨(((∅ : Objects).set .manifestPointer (.pointer ⟨1, .manifest 1⟩)).set
    (.rootFile (.manifest 1)) (.manifest racedManifest)).set
    (.change (changeFileName racedEntry)) (.change meshKind racedEntry), []⟩

/-- The device that wrote the change, and compacts. -/
def racingCompactor : Device :=
  { openEngine (defaultConfig [98]) 5
      { LocalStore.empty with
        metadata :=
          { Metadata.empty with
            meshId := some meshKind
            changeObservation := some ⟨0, [], [changeFileName racedEntry], ∅⟩ } } with
    manifest := some racedManifest
    connected := true }

/-- A device that has not seen the change yet, and pulls. -/
def racingPuller : Device :=
  { openEngine (defaultConfig [97]) 5
      { LocalStore.empty with metadata := { Metadata.empty with meshId := some meshKind } } with
    manifest := some racedManifest
    connected := true }

/-- The mailbox after the compaction. -/
def compactedMailbox : Mailbox :=
  ((compact racingCompactor).exec (Mailbox.reply 6 fun _ => none) racedMailbox).2.2

theorem healthy_racedMailbox : Healthy meshKind racedMailbox.objects := by
  unfold Healthy
  decide

theorem healthy_compactedMailbox : Healthy meshKind compactedMailbox.objects := by
  unfold Healthy
  decide

/-- The compaction is a run of `compact`, and it removes the change file. -/
theorem run_compact_racingCompactor : ∃ b', Prog.Run Mailbox.faulty (compact racingCompactor)
    racedMailbox (.ok ()) b' compactedMailbox := by
  refine ⟨((compact racingCompactor).exec (Mailbox.reply 6 fun _ => none) racedMailbox).2.1, ?_⟩
  have hanswer : ∀ w c, Mailbox.faulty.answer w c (Mailbox.reply 6 (fun _ => none) w c).1
      (Mailbox.reply 6 (fun _ => none) w c).2 :=
    Mailbox.truthful_reply fun _ h => absurd h (by simp)
  exact Prog.run_exec (fun _ => rfl) hanswer (compact racingCompactor) racedMailbox

theorem run_pullNow_racingPuller :
    Prog.Run (duringCompaction racingPuller racedMailbox compactedMailbox) (pullNow racingPuller)
      ⟨racedMailbox, []⟩ (.error (.thrown (.remote .missing)))
      { racingPuller with remotePoisonError := some (.remote .missing), connected := false }
      ⟨compactedMailbox, []⟩ := by
  let E := duringCompaction racingPuller racedMailbox compactedMailbox
  let name := changeFileName racedEntry
  let awaited := [(name, Content.change meshKind racedEntry)]
  have hhead : E.answer ⟨racedMailbox, []⟩ (.readFile changesHead) (.error (.failed .missing))
      ⟨racedMailbox, []⟩ := ⟨.inl ⟨rfl, rfl⟩, rfl⟩
  have hlist : E.answer ⟨racedMailbox, []⟩ .listChanges (.ok [name]) ⟨racedMailbox, awaited⟩ :=
    ⟨.inl ⟨rfl, List.Perm.refl _⟩, rfl⟩
  have hgone : E.answer ⟨compactedMailbox, awaited⟩ (.readFile (.change name))
      (.error (.failed .missing)) ⟨compactedMailbox, []⟩ := ⟨.inl ⟨rfl, rfl⟩, rfl⟩
  have hcompaction : E.rely ⟨racedMailbox, awaited⟩ ⟨compactedMailbox, awaited⟩ :=
    .inr ⟨rfl, rfl⟩
  refine Prog.Run.ask (.inl rfl) hhead ?_
  refine Prog.Run.ask (.inl rfl) hlist ?_
  refine Prog.Run.ask hcompaction hgone ?_
  exact Prog.Run.done _ _ _

theorem member_racingPuller : Member meshKind racingPuller where
  held _ he := (Option.some.inj he).symm
  stored _ he := (Option.some.inj he).symm

/-- **A compaction poisons a pull.**  Every object is well formed before and after the
compaction of another device.  The pull lists one change file; the compaction deletes it;
the read fails, and the remote is poisoned. -/
theorem compaction_poisons_a_pull :
    Member meshKind racingPuller ∧ racingPuller.remotePoisonError = none ∧
      Healthy meshKind racedMailbox.objects ∧ Healthy meshKind compactedMailbox.objects ∧
      (∃ b', Prog.Run Mailbox.faulty (compact racingCompactor) racedMailbox (.ok ()) b'
        compactedMailbox) ∧
      ∃ a' w', Prog.Run (duringCompaction racingPuller racedMailbox compactedMailbox)
        (pullNow racingPuller) ⟨racedMailbox, []⟩ (.error (.thrown (.remote .missing))) a' w' ∧
          a'.remotePoisonError = some (.remote .missing) := by
  exact ⟨member_racingPuller, rfl, healthy_racedMailbox, healthy_compactedMailbox,
    run_compact_racingCompactor, _, _, run_pullNow_racingPuller, rfl⟩

theorem mergeable_racedEntry :
    Mergeable racingPuller [(changeFileName racedEntry, .change meshKind racedEntry)] where
  recordable p hp := by
    rw [mem_singleton.mp hp]
    decide
  ordinary p hp meshId entry hcontent op hop := by
    rw [mem_singleton.mp hp] at hcontent
    obtain ⟨-, rfl⟩ := Content.change.inj hcontent
    rw [mem_singleton.mp hop]
    exact ⟨by decide, by decide, not_mem_nil⟩
  noConflict := ⟨_, rfl⟩

/-- The same pull, left alone, completes. -/
theorem undisturbed_pull_completes :
    ∃ d' w', Prog.Run (undisturbed meshKind racingPuller) (pullNow racingPuller) ⟨racedMailbox, []⟩
      (.ok ()) d' w' ∧ d'.remotePoisonError = none := by
  let E := undisturbed meshKind racingPuller
  let name := changeFileName racedEntry
  let content := Content.change meshKind racedEntry
  have hrely : ∀ awaited, E.rely ⟨racedMailbox, awaited⟩ ⟨racedMailbox, awaited⟩ := fun _ =>
    ⟨⟨healthy_racedMailbox, rfl⟩, fun _ _ => rfl⟩
  have hhead : E.answer ⟨racedMailbox, []⟩ (.readFile changesHead) (.error (.failed .missing))
      ⟨racedMailbox, []⟩ := ⟨⟨.inl ⟨rfl, rfl⟩, rfl⟩, fun ⟨_, h⟩ => absurd h not_mem_nil⟩
  have hlist : E.answer ⟨racedMailbox, []⟩ .listChanges (.ok [name])
      ⟨racedMailbox, [(name, content)]⟩ :=
    ⟨⟨.inl ⟨rfl, List.Perm.refl _⟩, rfl⟩, mergeable_racedEntry⟩
  have hread : E.answer ⟨racedMailbox, [(name, content)]⟩ (.readFile (.change name)) (.ok content)
      ⟨racedMailbox, []⟩ := ⟨⟨.inl ⟨rfl, rfl⟩, rfl⟩, fun _ _ h => absurd h (by simp)⟩
  have hnow : E.answer ⟨racedMailbox, []⟩ .now (6 : ℕ) ⟨racedMailbox, []⟩ :=
    ⟨⟨.inl rfl, rfl⟩, trivial⟩
  obtain ⟨d', w', hrun⟩ : ∃ d' w', Prog.Run E (pullNow racingPuller) ⟨racedMailbox, []⟩ (.ok ())
      d' w' :=
    ⟨_, _, .ask (hrely _) hhead (.ask (hrely _) hlist (.ask (hrely _) hread
      (.ask (hrely _) hnow (.ask (hrely _) hnow (.done _ _ _)))))⟩
  exact ⟨d', w', hrun, pull_does_not_poison (by decide) member_racingPuller rfl hrun⟩

end Race

end Interocitor
