import Interocitor.Awaits.Methods

/-!
# Replicas do not matter

A flush mirrors what it has published to the replicas, and goes on whatever they answer.
Here two worlds are compared that answer alike, except at the replicas: a replica may be
reachable in one of them and refuse everything in the other.  As long as it answers at all,
a flush ends alike in both, with the same result, the same memory and the same store.

* `Aw.Deaf`: methods that do not tell two worlds apart.
* `Aw.exec_mirror`: mirroring to a replica changes nothing, and never throws.
* `Aw.deaf_flushQueued`: a flush does not tell them apart.
-/

namespace Interocitor

open CodeUnits OrderedRecord Interaction

/-- An answer that comes, good or bad. -/
def Answering : (c : Call) → Reply c → Prop
  | .now, _ => True
  | .uuid, _ => True
  | .isAuthenticated, _ => True
  | .authenticate, rep => rep ≠ .error .stalled
  | .readFile _, rep => rep ≠ .error .stalled
  | .writeFile _ _, rep => rep ≠ .error .stalled
  | .deleteFile _, rep => rep ≠ .error .stalled
  | .listChanges, rep => rep ≠ .error .stalled
  | .listMainline, rep => rep ≠ .error .stalled
  | .ensureFolder _, rep => rep ≠ .error .stalled

variable {α W : Type}

/-! ## A replica that answers -/

/-- A program that keeps `I`, and does not wait forever. -/
def Calm (E : Env Call Reply W) (I : Device → W → Prop) (m : Eng α) : Prop :=
  ∀ d w, I d w → m.wp E (fun _ => I) (fun f d w => f ≠ .stalled ∧ I d w) d w

section Calm

variable {E : Env Call Reply W} {I : Device → W → Prop}

theorem calm_pure (a : α) : Calm E I (pure a) := fun _ _ h => h

theorem calm_fail (e : EngineError) : Calm E I (Eng.fail e : Eng α) :=
  fun _ _ h => ⟨by simp, h⟩

theorem calm_bind {β : Type} {m : Eng β} {f : β → Eng α} (hm : Calm E I m)
    (hf : ∀ b, Calm E I (f b)) : Calm E I (m >>= f) := by
  intro d w h
  rw [Proc.wp_bind]
  exact Proc.wp_mono (hm d w h) (fun b d w hb => hf b d w hb) fun _ _ _ hx => hx

theorem calm_when {c : Prop} [Decidable c] {m : Eng Unit} (hm : Calm E I m) :
    Calm E I (Proc.when c m) := by
  rw [Proc.when]
  split
  · exact hm
  · exact calm_pure ()

theorem calm_forEach {β : Type} {l : List β} {f : β → Eng Unit} (h : ∀ b ∈ l, Calm E I (f b)) :
    Calm E I (Proc.forEach l f) :=
  fun _ _ hI => Proc.wp_forEach (fun b hb s w hs => h b hb s w hs) hI

theorem calm_attempt {m : Eng α} {f : EngineError → Eng α} (hm : Calm E I m)
    (hf : ∀ e, Calm E I (f e)) : Calm E I (Eng.attempt m f) := by
  intro d w h
  rw [wp_attempt]
  refine Proc.wp_mono (hm d w h) (fun _ _ _ hq => hq) fun failure d w hx => ?_
  cases failure with
  | thrown e => exact hf e d w hx.2
  | stalled => exact absurd rfl hx.1

theorem calm_answered {rep : Except NoAnswer α} (h : rep ≠ .error .stalled) :
    Calm E I (Eng.answered rep) := by
  intro d w hI
  rw [wp_answered]
  cases rep with
  | ok a => exact hI
  | error e =>
    cases e with
    | stalled => exact absurd rfl h
    | failed e => exact ⟨by simp, hI⟩

/-- A remote that answers every request, and an otherwise quiet world. -/
structure Responsive (E : Env Call Reply W) : Prop where
  rely : ∀ w w₁, E.rely w w₁ → w₁ = w
  answer : ∀ w c rep w', E.answer w c rep w' → E.guar w w' ∧ w' = w ∧ Answering c rep

theorem calm_request (h : Responsive E) {c : Call} {g : Reply c → Eng α}
    (hg : ∀ rep, Answering c rep → Calm E I (g rep)) : Calm E I (Proc.ask c >>= g) := by
  intro d w hI
  rw [Proc.wp_bind, Proc.wp_ask]
  intro w₁ hr rep w₂ ha
  obtain rfl := h.rely w w₁ hr
  obtain ⟨hguar, rfl, hanswering⟩ := h.answer w₁ c rep w₂ ha
  exact ⟨hguar, hg rep hanswering d w₂ hI⟩

theorem calm_authenticateReplica (h : Responsive E) : Calm E I authenticateReplica := by
  refine calm_request h fun authenticated _ => calm_when ?_
  exact calm_request h fun rep hrep => calm_answered hrep

theorem calm_flushReplica (h : Responsive E) (manifest : Option Manifest)
    (entries : List ChangeEntry) : Calm E I (flushReplica manifest entries) := by
  have hwrite : ∀ path content, Calm E I (Eng.writeFile path content) :=
    fun _ _ => calm_request h fun rep hrep => calm_answered hrep
  refine calm_bind (calm_request h fun rep hrep => calm_answered hrep) fun _ => ?_
  refine calm_bind (calm_forEach fun entry _ => ?_) fun _ => calm_when (calm_bind ?_ fun prior => ?_)
  · rw [writeChangeFile]
    split
    · exact calm_fail _
    · exact hwrite _ _
  · refine calm_attempt (calm_bind (calm_request h fun rep hrep => calm_answered hrep)
      fun content => ?_) fun _ => calm_pure _
    split
    · exact calm_pure _
    · exact calm_fail _
    · exact calm_pure _
  · dsimp only
    split
    · exact calm_pure _
    · exact hwrite _ _

end Calm

namespace Aw

/-- Every replica answers, and has nothing to do with the rest of the world. -/
structure ReplicasAnswer (reply : W → (a : Await) → Answer a × W) : Prop where
  world : ∀ w i c, (reply w (.remote (some i) c)).2 = w
  answering : ∀ w i c, Answering c (reply w (.remote (some i) c)).1

theorem responsive {reply : W → (a : Await) → Answer a × W} (h : ReplicasAnswer reply) (i : ℕ) :
    Responsive (atReplica (Env.ofReply reply) (some i)) where
  rely _ _ hr := hr.symm
  answer w c rep w' ha := by
    have ha' : (rep, w') = reply w (.remote (some i) c) := ha
    refine ⟨trivial, ?_, ?_⟩
    · rw [← h.world w i c, ← ha']
    · have hanswering := h.answering w i c
      rwa [← ha'] at hanswering

theorem exec_mirror {reply : W → (a : Await) → Answer a × W} (h : ReplicasAnswer reply)
    (manifest : Option Manifest) (entries : List ChangeEntry) (i : ℕ) (s : Memory) (w : W) :
    (mirror manifest entries i s).exec reply w = (.ok (), s, w) := by
  -- whatever it does at the replica, the memory and the world are the same afterwards
  have hcalm : ∀ m : Eng Unit,
      (∀ n, Calm (atReplica (Env.ofReply reply) (some i)) (fun d w' => d.memory n = s ∧ w' = w) m) →
      ∀ s' w', s' = s ∧ w' = w → (remotely (some i) m).wp (Env.ofReply reply)
        (fun _ s' w' => s' = s ∧ w' = w) (fun f s' w' => f ≠ .stalled ∧ s' = s ∧ w' = w) s' w' := by
    intro m hm s' w' hs
    rw [wp_remotely]
    exact hm s'.replicas (s'.over .empty) w' hs
  have hwp : (mirror manifest entries i).wp (Env.ofReply reply) (fun _ s' w' => s' = s ∧ w' = w)
      (fun _ _ _ => False) s w := by
    rw [mirror, wp_attempt]
    have hbody : (do
        remotely (some i) authenticateReplica
        remotely (some i) (flushReplica manifest entries) : Aw Unit).wp (Env.ofReply reply)
        (fun _ s' w' => s' = s ∧ w' = w) (fun f s' w' => f ≠ .stalled ∧ s' = s ∧ w' = w) s w := by
      rw [Proc.wp_bind]
      refine Proc.wp_mono (hcalm _ (fun n => calm_authenticateReplica (responsive h i)) s w
        ⟨rfl, rfl⟩) (fun _ s' w' hs => ?_) fun _ _ _ hx => hx
      exact hcalm _ (fun n => calm_flushReplica (responsive h i) manifest entries) s' w' hs
    refine Proc.wp_mono hbody (fun _ _ _ hq => hq) fun failure s' w' hx => ?_
    cases failure with
    | thrown e => exact hx.2
    | stalled => exact absurd rfl hx.1
  have hend := Prog.wp_run hwp (Prog.run_exec (fun _ => rfl) (fun _ _ => rfl) _ w)
  generalize (mirror manifest entries i s).exec reply w = out at hend ⊢
  obtain ⟨r, s', w'⟩ := out
  cases r with
  | error e => exact hend.elim
  | ok u =>
    obtain ⟨rfl, rfl⟩ := hend
    rfl

/-! ## Two worlds -/

/-- Two worlds that answer alike, except at the replicas. -/
structure Alike (reply₁ reply₂ : W → (a : Await) → Answer a × W) : Prop where
  transact : ∀ w f, reply₁ w (.transact f) = reply₂ w (.transact f)
  primary : ∀ w c, reply₁ w (.remote none c) = reply₂ w (.remote none c)

/-- A method that does not tell two worlds apart. -/
def Deaf (reply₁ reply₂ : W → (a : Await) → Answer a × W) (m : Aw α) : Prop :=
  ∀ s w, (m s).exec reply₁ w = (m s).exec reply₂ w

section Deaf

variable {reply₁ reply₂ : W → (a : Await) → Answer a × W}

theorem deaf_pure (a : α) : Deaf reply₁ reply₂ (pure a) := fun _ _ => rfl

theorem deaf_fail (e : EngineError) : Deaf reply₁ reply₂ (fail e : Aw α) := fun _ _ => rfl

theorem deaf_get : Deaf reply₁ reply₂ (Proc.get : Aw Memory) := fun _ _ => rfl

theorem deaf_modify (f : Memory → Memory) : Deaf reply₁ reply₂ (Proc.modify f : Aw Unit) :=
  fun _ _ => rfl

theorem deaf_bind {β : Type} {m : Aw β} {f : β → Aw α} (hm : Deaf reply₁ reply₂ m)
    (hf : ∀ b, Deaf reply₁ reply₂ (f b)) : Deaf reply₁ reply₂ (m >>= f) := by
  intro s w
  change ((m s).andThen _).exec reply₁ w = ((m s).andThen _).exec reply₂ w
  rw [Prog.exec_andThen, Prog.exec_andThen, hm s w]
  generalize (m s).exec reply₂ w = out
  obtain ⟨r, s', w'⟩ := out
  cases r with
  | ok b => exact hf b s' w'
  | error e => rfl

theorem deaf_attempt {m : Aw α} {f : EngineError → Aw α} (hm : Deaf reply₁ reply₂ m)
    (hf : ∀ e, Deaf reply₁ reply₂ (f e)) : Deaf reply₁ reply₂ (attempt m f) := by
  intro s w
  change ((m s).andThen _).exec reply₁ w = ((m s).andThen _).exec reply₂ w
  rw [Prog.exec_andThen, Prog.exec_andThen, hm s w]
  generalize (m s).exec reply₂ w = out
  obtain ⟨r, s', w'⟩ := out
  cases r with
  | ok a => rfl
  | error e =>
    cases e with
    | thrown e => exact hf e s' w'
    | stalled => rfl

theorem deaf_when {c : Prop} [Decidable c] {m : Aw Unit} (hm : Deaf reply₁ reply₂ m) :
    Deaf reply₁ reply₂ (Proc.when c m) := by
  rw [Proc.when]
  split
  · exact hm
  · exact deaf_pure ()

theorem deaf_forEach {β : Type} {l : List β} {f : β → Aw Unit}
    (h : ∀ b ∈ l, Deaf reply₁ reply₂ (f b)) : Deaf reply₁ reply₂ (Proc.forEach l f) := by
  induction l with
  | nil => exact deaf_pure ()
  | cons b l ih =>
    exact deaf_bind (h b List.mem_cons_self) fun _ => ih fun c hc => h c (List.mem_cons_of_mem _ hc)

theorem deaf_mirror (h₁ : ReplicasAnswer reply₁) (h₂ : ReplicasAnswer reply₂)
    (manifest : Option Manifest) (entries : List ChangeEntry) (i : ℕ) :
    Deaf reply₁ reply₂ (mirror manifest entries i) := fun s w => by
  rw [exec_mirror h₁, exec_mirror h₂]

variable (h : Alike reply₁ reply₂)

include h

theorem deaf_transact (f : LocalStore → LocalStore) : Deaf reply₁ reply₂ (transact f) := by
  refine deaf_bind (fun s w => ?_) fun found => ?_
  · show ((_, s, _) : _ × _ × _) = (_, s, _)
    rw [h.transact]
  · cases found with
    | some store => exact deaf_pure store
    | none => exact deaf_fail _

theorem deaf_read (g : LocalStore → α) : Deaf reply₁ reply₂ (read g) :=
  deaf_bind (deaf_transact h id) fun _ => deaf_pure _

theorem deaf_write (f : LocalStore → LocalStore) : Deaf reply₁ reply₂ (write f) :=
  deaf_bind (deaf_transact h f) fun _ => deaf_pure _

theorem deaf_remotely (m : Eng α) : Deaf reply₁ reply₂ (remotely none m) := by
  intro s w
  have hprog : ∀ (p : Prog Call Reply Device (Except Failure α)) w,
      (onRemote none s.replicas p).exec reply₁ w = (onRemote none s.replicas p).exec reply₂ w := by
    intro p
    induction p with
    | done r d => exact fun _ => rfl
    | ask c d k ih =>
      intro w
      show Prog.exec reply₁ (onRemote none s.replicas (k (reply₁ w (.remote none c)).1)) _ =
        Prog.exec reply₂ (onRemote none s.replicas (k (reply₂ w (.remote none c)).1)) _
      rw [h.primary]
      exact ih _ _
  exact hprog (m (s.over .empty)) w

theorem deaf_now : Deaf reply₁ reply₂ now := by
  intro s w
  show ((_, s, _) : _ × _ × _) = (_, s, _)
  rw [h.primary]

theorem deaf_flushPendingBatch : Deaf reply₁ reply₂ flushPendingBatch :=
  deaf_bind (deaf_transact h _) fun _ => deaf_when (deaf_modify _)

theorem deaf_assertExpectedMeshId (manifest : Option Manifest) (meshId : Text) :
    Deaf reply₁ reply₂ (assertExpectedMeshId manifest meshId) := by
  rw [assertExpectedMeshId]
  split
  · exact deaf_fail _
  · split
    · exact deaf_fail _
    · refine deaf_bind (deaf_read h _) fun stored => ?_
      split
      · exact deaf_fail _
      · exact deaf_write h _

theorem deaf_checkManifest (assertLocalMeshId : Bool) (manifest : Manifest) :
    Deaf reply₁ reply₂ (checkManifest assertLocalMeshId manifest) := by
  rw [checkManifest]
  split
  · exact deaf_fail _
  · refine deaf_bind (deaf_when (deaf_bind deaf_get fun s => ?_)) fun _ => ?_
    · refine deaf_attempt (deaf_assertExpectedMeshId h _ _) fun e => ?_
      exact deaf_bind (deaf_remotely h _) fun _ => deaf_fail _
    · refine deaf_bind (deaf_bind deaf_get fun _ => deaf_pure _) fun config => ?_
      split
      · exact deaf_fail _
      · exact deaf_pure _

theorem deaf_doLoadOrCreateManifest (force : Bool) (options : LoadOptions) :
    Deaf reply₁ reply₂ (doLoadOrCreateManifest force options) := by
  refine deaf_bind deaf_get fun s => ?_
  split
  · exact deaf_pure _
  refine deaf_bind (deaf_remotely h _) fun _ => ?_
  refine deaf_bind (deaf_bind (deaf_remotely h _) fun pointer => ?_) fun loaded => ?_
  · split
    · refine deaf_bind (deaf_remotely h _) fun manifest => ?_
      exact deaf_bind (deaf_checkManifest h _ _) fun _ => deaf_pure _
    · refine deaf_bind (deaf_bind (deaf_read h _) fun meshId => ?_) fun manifest => ?_
      · refine deaf_bind ?_ fun lineage => deaf_remotely h _
        rw [nextLineage]
        split
        · exact deaf_bind (deaf_read h _) fun _ => deaf_pure _
        · exact deaf_pure _
      · exact deaf_bind (deaf_checkManifest h _ _) fun _ => deaf_pure _
  · refine deaf_bind (deaf_modify _) fun _ => ?_
    exact deaf_bind (deaf_when (deaf_write h _)) fun _ => deaf_pure _

theorem deaf_quarantineExpiredOfflineWrites :
    Deaf reply₁ reply₂ quarantineExpiredOfflineWrites := by
  refine deaf_bind (deaf_now h) fun now => ?_
  refine deaf_bind (deaf_bind (deaf_remotely h _) fun policy => ?_) fun state => ?_
  · refine deaf_bind (deaf_read h _) fun last => ?_
    split
    · exact deaf_pure _
    · exact deaf_pure _
  split
  · refine deaf_bind (deaf_flushPendingBatch h) fun _ => ?_
    refine deaf_bind (deaf_read h _) fun queued => ?_
    refine deaf_bind (deaf_read h _) fun existing => ?_
    refine deaf_bind (deaf_write h _) fun _ => ?_
    refine deaf_bind (deaf_write h _) fun _ => ?_
    refine deaf_bind (deaf_write h _) fun _ => ?_
    exact deaf_bind (deaf_modify _) fun _ => deaf_pure _
  · exact deaf_pure _

theorem deaf_recordFlushedChanges (entries : List ChangeEntry) :
    Deaf reply₁ reply₂ (recordFlushedChanges entries) := by
  refine deaf_bind (deaf_read h _) fun stored => ?_
  split
  · exact deaf_fail _
  · refine deaf_bind (deaf_bind (deaf_read h _) fun generation => ?_) fun persisted => ?_
    · split
      · exact deaf_pure _
      · refine deaf_bind (deaf_read h _) fun durable => ?_
        split
        · exact deaf_pure _
        · exact deaf_bind (deaf_write h _) fun _ => deaf_pure _
    · split
      · exact deaf_pure _
      · exact deaf_fail _

/-- **A flush does not tell apart what the replicas answer.** -/
theorem deaf_flushQueued (h₁ : ReplicasAnswer reply₁) (h₂ : ReplicasAnswer reply₂)
    (includePendingBatch : Bool) : Deaf reply₁ reply₂ (flushQueued includePendingBatch) := by
  refine deaf_bind (deaf_when (deaf_flushPendingBatch h)) fun _ => ?_
  refine deaf_bind (deaf_bind deaf_get fun s => ?_) fun _ => deaf_pure _
  split
  · exact deaf_pure _
  refine deaf_bind (deaf_read h _) fun entries => ?_
  split
  · exact deaf_bind (deaf_modify _) fun _ => deaf_pure _
  refine deaf_bind (deaf_doLoadOrCreateManifest h _ _) fun _ => ?_
  refine deaf_bind (deaf_quarantineExpiredOfflineWrites h) fun expired => ?_
  split
  · exact deaf_pure _
  refine deaf_bind (deaf_modify _) fun _ => deaf_bind (deaf_attempt ?_ fun e => ?_) fun _ =>
    deaf_pure _
  · refine deaf_bind deaf_get fun s => deaf_bind ?_ fun _ => ?_
    · refine deaf_bind (deaf_recordFlushedChanges h entries) fun _ => ?_
      refine deaf_bind (deaf_remotely h _) fun _ => deaf_bind deaf_get fun s => ?_
      exact deaf_forEach fun i _ => deaf_mirror h₁ h₂ _ _ i
    · refine deaf_bind (deaf_write h _) fun _ => ?_
      refine deaf_bind (deaf_now h) fun now => ?_
      exact deaf_bind (deaf_write h _) fun _ => deaf_write h _
  · refine deaf_bind (deaf_remotely h _) fun _ => ?_
    exact deaf_bind (deaf_modify _) fun _ => deaf_fail _

end Deaf

end Aw

end Interocitor
