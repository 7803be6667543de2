import Interocitor.Mailbox.World

/-!
# When `connect()` bootstraps a mesh

`loadOrCreateManifest` creates the first manifest of a mesh when it finds no pointer.
It looks for the pointer through `readJsonIfExists`, which answers "no pointer" to
every failed read, and a parsed value counts as a pointer only if it is truthy, so a
mesh that exists may be bootstrapped a second time: a rate limit on the one read of the
pointer is enough for the pointer to be replaced and the snapshot behind it forgotten.

* `loadOrCreateManifest_keeps_mesh_iff`: for each answer to the read of the pointer,
  an existing mesh is left alone in every run exactly if the answer delivers a pointer
  or never comes.
* `rate_limited_pointer_is_replaced`: a run in which a rate-limited read replaces the
  pointer.
-/

namespace Interocitor

open CodeUnits OrderedRecord Interaction Eng
open Proc (wp_bind wp_mono keeps_bind)

/-! ## The property -/

/-- The read of the manifest pointer is answered by `rep`, every other request as a
store that does not lie may answer it. -/
def PointerAnswer (rep : Except NoAnswer Content) (w : Mailbox) :
    (c : Call) → Reply c → Mailbox → Prop
  | .readFile .manifestPointer, rep', w' => w' = w ∧ rep' = rep
  | c, rep', w' => w.Truthful c rep' w'

/-- A store in which the read of the manifest pointer is answered by `rep`. -/
def pointerAnswers (rep : Except NoAnswer Content) : Env Call Reply Mailbox :=
  ⟨Eq, fun w c rep' w' => PointerAnswer rep w c rep' w', fun _ _ => True⟩

/-- If there was a pointer, nothing was written and no object has changed. -/
def MeshKept (w w' : Mailbox) : Prop :=
  w.objects.get .manifestPointer ≠ none → w'.written = w.written ∧ w'.objects = w.objects

/-- The answer delivers a pointer, or never comes. -/
def PointerRead : Except NoAnswer Content → Prop
  | .ok .null => False
  | .ok .falsy => False
  | .ok .malformed => False
  | .ok _ => True
  | .error (.failed _) => False
  | .error .stalled => True

/-! ## Answers that leave the mesh alone -/

section Kept

variable {rep : Except NoAnswer Content} {w : Mailbox} {d : Device}

theorem askKeeps_readFile_pointerAnswers (path : ObjectPath) :
    Proc.AskKeeps (pointerAnswers rep) (fun (_ : Device) w' => w' = w) (.readFile path) := by
  rintro d w' w₁ rep' w₂ rfl rfl ha
  refine ⟨trivial, ?_⟩
  cases path with
  | _ => exact ha.1

/-- An answer with a pointer makes `readPointerIfExists` find one. -/
theorem wp_readPointerIfExists (hrep : PointerRead rep) :
    readPointerIfExists.wp (pointerAnswers rep)
      (fun pointer _ w' => w' = w ∧ pointer.isSome = true) (fun _ _ w' => w' = w) d w := by
  rw [readPointerIfExists, readPointer, wp_attempt, wp_bind, wp_readFile]
  rintro w₁ rfl rep' w₂ ⟨rfl, rfl⟩
  refine ⟨trivial, ?_⟩
  cases rep' with
  | error e =>
    cases e with
    | failed e => exact hrep.elim
    | stalled => exact rfl
  | ok content =>
    cases content with
    | null => exact hrep.elim
    | falsy => exact hrep.elim
    | malformed => exact hrep.elim
    | _ => exact ⟨rfl, rfl⟩

theorem wp_loadOrCreateManifest_kept (hrep : PointerRead rep) (assertLocalMeshId : Bool) :
    (loadOrCreateManifest assertLocalMeshId true).wp (pointerAnswers rep)
      (fun _ _ w' => w' = w) (fun _ _ w' => w' = w) d w := by
  rw [loadOrCreateManifest, wp_bind]
  refine wp_mono (wp_readPointerIfExists hrep) ?_ fun _ _ _ hw => hw
  rintro pointer d w' ⟨rfl, hsome⟩
  obtain ⟨p, rfl⟩ := Option.isSome_iff_exists.mp hsome
  have hkeeps : Proc.Keeps (pointerAnswers rep) (fun (_ : Device) w'' => w'' = w')
      (do let manifest ← readManifest (.rootFile p.file)
          pure (← checkManifest assertLocalMeshId manifest, false)) :=
    keeps_bind (keeps_readManifest (askKeeps_readFile_pointerAnswers _)) fun manifest =>
      keeps_bind (keeps_checkManifest (fun _ _ _ _ _ _ _ hw => hw) (fun _ _ _ _ hw => hw) _ _)
        fun _ => Proc.keeps_pure _
  exact hkeeps d w' rfl

end Kept

/-! ## Answers that replace the mesh -/

section Replaced

variable {rep : Except NoAnswer Content} {w : Mailbox} {d : Device}

/-- A store that answers the read of the pointer by `rep` and otherwise works. -/
def pointerReply (rep : Except NoAnswer Content) (w : Mailbox) : (c : Call) → Reply c × Mailbox
  | .readFile .manifestPointer => (rep, w)
  | c => w.reply 0 (fun _ => none) c

theorem pointerAnswer_pointerReply (w : Mailbox) (c : Call) :
    PointerAnswer rep w c (pointerReply rep w c).1 (pointerReply rep w c).2 := by
  have htruthful : w.Truthful c (w.reply 0 (fun _ => none) c).1 (w.reply 0 (fun _ => none) c).2 :=
    Mailbox.truthful_reply (by simp) w c
  cases c with
  | readFile path =>
    cases path with
    | manifestPointer => exact ⟨rfl, rfl⟩
    | _ => exact htruthful
  | _ => exact htruthful

/-- An answer without a pointer makes `readPointerIfExists` find none. -/
theorem wp_readPointerIfExists_none (hrep : ¬PointerRead rep) :
    readPointerIfExists.wp (Env.ofReply (pointerReply rep))
      (fun pointer _ w' => w' = w ∧ pointer = none) (fun _ _ _ => False) d w := by
  rw [readPointerIfExists, readPointer, wp_attempt, wp_bind, wp_readFile]
  rintro w₁ rfl rep' w₂ heq
  obtain ⟨rfl, rfl⟩ := Prod.mk.inj heq
  refine ⟨trivial, ?_⟩
  cases rep' with
  | error e =>
    cases e with
    | failed e => exact ⟨rfl, rfl⟩
    | stalled => exact (hrep trivial).elim
  | ok content =>
    cases content with
    | null => exact ⟨rfl, rfl⟩
    | falsy => exact ⟨rfl, rfl⟩
    | malformed => exact ⟨rfl, rfl⟩
    | _ => exact (hrep trivial).elim

theorem wp_bootstrapManifest_written :
    bootstrapManifest.wp (Env.ofReply (pointerReply rep))
      (fun _ _ w' => w'.written.length = w.written.length + 2) (fun _ _ _ => False) d w := by
  have hmesh : ∀ meshId d w, (meshIdOr meshId).wp (Env.ofReply (pointerReply rep))
      (fun _ _ w' => w' = w) (fun _ _ _ => False) d w := by
    intro meshId d w
    rw [meshIdOr]
    split
    · exact rfl
    · rw [wp_generateId]
      rintro w₁ rfl uuid w₂ heq
      exact ⟨trivial, (Prod.mk.inj heq).2⟩
  rw [bootstrapManifest, wp_bind, wp_metadata, createBootstrapManifest, wp_bind,
    wp_config, wp_bind, wp_now]
  rintro w₁ rfl now w₂ heq
  obtain ⟨-, rfl⟩ := Prod.mk.inj heq
  refine ⟨trivial, ?_⟩
  rw [wp_bind]
  refine wp_mono (hmesh _ _ _) ?_ fun _ _ _ hx => hx
  rintro meshId d w' rfl
  rw [wp_bind, wp_writeFile]
  rintro w₁ rfl rep₁ w₂ heq
  obtain ⟨rfl, rfl⟩ := Prod.mk.inj heq
  refine ⟨trivial, ?_⟩
  change (_ >>= _ : Eng _).wp _ _ _ _ _
  rw [wp_bind, wp_writeFile]
  rintro w₁ rfl rep₂ w₂ heq
  obtain ⟨rfl, rfl⟩ := Prod.mk.inj heq
  refine ⟨trivial, ?_⟩
  change (_ ++ _ : List _).length = _
  simp [Mailbox.write]

theorem wp_loadOrCreateManifest_written (hrep : ¬PointerRead rep) (assertLocalMeshId : Bool) :
    (loadOrCreateManifest assertLocalMeshId true).wp (Env.ofReply (pointerReply rep))
      (fun _ _ w' => w'.written.length = w.written.length + 2)
      (fun _ _ w' => w'.written.length = w.written.length + 2) d w := by
  rw [loadOrCreateManifest, wp_bind]
  refine wp_mono (wp_readPointerIfExists_none hrep) ?_ fun _ _ _ hx => hx.elim
  rintro pointer d w' ⟨rfl, rfl⟩
  rw [wp_bind]
  refine wp_mono wp_bootstrapManifest_written ?_ fun _ _ _ hx => hx.elim
  intro manifest d w'' hw''
  have hkeeps := keeps_bind
    (keeps_checkManifest (E := Env.ofReply (pointerReply rep))
      (I := fun _ v => v.written.length = w'.written.length + 2)
      (fun _ _ _ _ _ _ _ hw => hw) (fun _ _ _ _ hw => hw) assertLocalMeshId manifest)
    fun checked => Proc.keeps_pure (checked, true)
  exact hkeeps d w'' hw''

end Replaced

/-! ## The exact condition -/

/-- **When an existing mesh is left alone.**  Whatever the local state, and for each
answer that the read of the pointer can get: in every run, a mesh that has a pointer
keeps all its objects and nothing is written, exactly if the answer delivers a pointer
or never comes.  A denied, rate-limited or broken read, a malformed pointer and a JSON
`null`, `false`, `0` or empty text all lead to a second bootstrap. -/
theorem loadOrCreateManifest_keeps_mesh_iff (assertLocalMeshId : Bool) (d : Device) (w : Mailbox)
    (rep : Except NoAnswer Content) :
    (∀ r d' w', Prog.Run (pointerAnswers rep) (loadOrCreateManifest assertLocalMeshId true d) w
        r d' w' → MeshKept w w') ↔
      w.objects.get .manifestPointer = none ∨ PointerRead rep := by
  constructor
  · intro hall
    by_contra hnot
    obtain ⟨hpointer, hread⟩ := not_or.mp hnot
    obtain ⟨r, d', w', hrun, hlength⟩ := Proc.exists_run_ends (E := pointerAnswers rep)
      (P := fun _ w' => w'.written.length = w.written.length + 2) (fun _ => rfl)
      pointerAnswer_pointerReply (wp_loadOrCreateManifest_written hread assertLocalMeshId)
    have hkept := hall r d' w' hrun hpointer
    rw [hkept.1] at hlength
    omega
  · rintro (hnone | hread) r d' w' hrun hpointer
    · exact absurd hnone hpointer
    · obtain rfl : w' = w := Proc.wp_run_ends (P := fun _ w' => w' = w)
        (wp_loadOrCreateManifest_kept hread assertLocalMeshId) hrun
      exact ⟨rfl, rfl⟩

/-- A mesh in its seventh generation. -/
def seventhGeneration : Mailbox where
  objects := Record.set ∅ .manifestPointer (.pointer ⟨7, .manifest 7⟩)
  written := []

/-- A read that is refused for the moment. -/
def rateLimited : Except NoAnswer Content := .error (.failed (.access .rateLimited))

/-- **A rate-limited read replaces the pointer.**  The store does not lie: the pointer
is there, and the read of it is refused for the moment. -/
theorem rate_limited_pointer_is_replaced :
    seventhGeneration.ReadAnswer .manifestPointer rateLimited ∧
      seventhGeneration.objects.get .manifestPointer = some (.pointer ⟨7, .manifest 7⟩) ∧
      ∃ r d' w', Prog.Run (pointerAnswers rateLimited)
          (loadOrCreateManifest false true (openEngine (defaultConfig []) 0 .empty))
          seventhGeneration r d' w' ∧
        w'.objects.get .manifestPointer = some (.pointer ⟨1, .manifest 1⟩) ∧
        ¬MeshKept seventhGeneration w' := by
  refine ⟨trivial, rfl, _, _, _, Prog.run_exec (fun _ => rfl) pointerAnswer_pointerReply _ _, rfl, ?_⟩
  intro hkept
  have hget := congrArg (Record.get · .manifestPointer) (hkept (by decide)).2
  have hgeneration : (⟨1, .manifest 1⟩ : ManifestPointer) = ⟨7, .manifest 7⟩ :=
    Content.pointer.inj (Option.some.inj hget)
  exact absurd hgeneration (by decide)

end Interocitor
