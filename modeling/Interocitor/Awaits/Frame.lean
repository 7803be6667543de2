import Interocitor.Awaits.Methods
import Interocitor.Core.Lifecycle

/-!
# What the methods leave alone, await by await

The counterpart of `Core.Frame` for the methods of `Awaits.Methods`, for properties of the
world and of the configuration: what else an engine keeps in memory does not matter here.

Most transactions of the local store are bookkeeping: they change neither rows nor queued
entries nor receipts.  Most requests publish nothing.  `Ambient` says that an invariant
survives both, and then every method that does no more than that keeps it.
-/

namespace Interocitor

open CodeUnits OrderedRecord Interaction
open Proc (keeps_bind keeps_pure Keeps keeps_when AskKeeps keeps_get keeps_ask)

/-! ## Bookkeeping -/

/-- A transaction that changes neither rows nor queued entries nor receipts. -/
def Bookkeeping (f : LocalStore → LocalStore) : Prop :=
  ∀ store, (f store).rows = store.rows ∧ (f store).outbox = store.outbox ∧
    (f store).pendingBatch = store.pendingBatch ∧
    (f store).metadata.changeObservation = store.metadata.changeObservation

theorem bookkeeping_id : Bookkeeping id := fun _ => ⟨rfl, rfl, rfl, rfl⟩

theorem bookkeeping_setMeta {f : Metadata → Metadata}
    (h : ∀ m, (f m).changeObservation = m.changeObservation) :
    Bookkeeping fun store => { store with metadata := f store.metadata } :=
  fun store => ⟨rfl, rfl, rfl, h store.metadata⟩

/-- A request that publishes neither a change nor a snapshot. -/
def Harmless : Call → Prop
  | .writeFile _ (.change _ _) => False
  | .writeFile _ (.snapshot _ _) => False
  | _ => True

theorem keeps_createBootstrapManifest {W : Type} {E : Env Call Reply W} {I : Device → W → Prop}
    (h : ∀ c, Harmless c → AskKeeps E I c) (meshId : Option Text) (lineage : ℤ) :
    Keeps E I (createBootstrapManifest meshId lineage) := by
  refine keeps_bind keeps_config fun config => ?_
  refine keeps_bind (keeps_now (h _ trivial)) fun now => ?_
  refine keeps_bind ?_ fun meshId => ?_
  · rw [meshIdOr]
    split
    · exact keeps_pure _
    · exact keeps_generateId (h _ trivial)
  · refine keeps_bind (keeps_writeFile (h _ trivial)) fun _ => ?_
    refine keeps_bind (keeps_writeFile (h _ trivial)) fun _ => ?_
    exact keeps_pure _

variable {α W : Type} {E : Env Await Answer W} {I : Memory → W → Prop}

/-- `I` looks at the memory of an engine only for its configuration. -/
def IgnoresMemory (I : Memory → W → Prop) : Prop :=
  ∀ s s' w, s'.config = s.config → I s w → I s' w

/-- Bookkeeping, requests that publish nothing, replicas and changes of the memory keep `I`. -/
structure Ambient (E : Env Await Answer W) (I : Memory → W → Prop) : Prop where
  bookkeeping : ∀ f, Bookkeeping f → AskKeeps E I (.transact f)
  harmless : ∀ c, Harmless c → AskKeeps E I (.remote none c)
  replica : ∀ i c, AskKeeps E I (.remote (some i) c)
  memory : IgnoresMemory I

namespace Aw

theorem askKeeps_at {replica : Option ℕ} {c : Call} (n : ℕ)
    (h : AskKeeps E I (.remote replica c)) :
    AskKeeps (atReplica E replica) (fun (d : Device) w => I (d.memory n) w) c :=
  fun d w w₁ rep w₂ hI hr ha => h (d.memory n) w w₁ rep w₂ hI hr ha

theorem keeps_memory (h : IgnoresMemory I) {f : Memory → Memory}
    (hf : ∀ s, (f s).config = s.config) : Keeps E I (Proc.modify f : Aw Unit) :=
  Proc.keeps_modify fun s w hI => h s (f s) w (hf s) hI

theorem ignoresSession_at (h : IgnoresMemory I) (n : ℕ) :
    IgnoresSession fun (d : Device) w => I (d.memory n) w :=
  fun d w _ _ _ _ _ hI => h (d.memory n) _ w rfl hI

section Ambient

variable (h : Ambient E I)

include h

theorem quiet_at (n : ℕ) : Quiet (atReplica E none) (fun (d : Device) w => I (d.memory n) w) where
  now := askKeeps_at n (h.harmless _ trivial)
  uuid := askKeeps_at n (h.harmless _ trivial)
  isAuthenticated := askKeeps_at n (h.harmless _ trivial)
  authenticate := askKeeps_at n (h.harmless _ trivial)
  readFile _ := askKeeps_at n (h.harmless _ trivial)
  listChanges := askKeeps_at n (h.harmless _ trivial)
  listMainline := askKeeps_at n (h.harmless _ trivial)
  ensureFolder _ := askKeeps_at n (h.harmless _ trivial)

theorem deviceRecords_at (n : ℕ) : DeviceRecords (atReplica E none)
    (fun (d : Device) w => I (d.memory n) w) :=
  fun _ _ => askKeeps_at n (h.harmless _ trivial)

theorem keeps_now : Keeps E I now :=
  keeps_ask (h.harmless _ trivial)

theorem keeps_reading (g : LocalStore → α) : Keeps E I (read g) :=
  keeps_read (h.bookkeeping _ bookkeeping_id)

theorem keeps_getMeta (g : Metadata → α) : Keeps E I (getMeta g) :=
  keeps_reading h _

theorem keeps_setMeta {f : Metadata → Metadata}
    (hf : ∀ m, (f m).changeObservation = m.changeObservation) : Keeps E I (setMeta f) :=
  keeps_write (h.bookkeeping _ (bookkeeping_setMeta hf))

omit h in
theorem keeps_requireAdapter : Keeps E I requireAdapter :=
  keeps_remotely fun _ => Interocitor.keeps_requireAdapter

/-! ## Manifest -/

theorem keeps_poisonRemote (e : EngineError) : Keeps E I (poisonRemote e) :=
  keeps_remotely fun n => keeps_bind (Proc.keeps_modify fun d w hI => by
    split
    · exact h.memory (d.memory n) _ w rfl hI
    · exact hI) fun _ => keeps_pure _

theorem keeps_poisoned (e : EngineError) : Keeps E I (do fail (← poisonRemote e) : Aw α) :=
  keeps_bind (keeps_poisonRemote h e) fun _ => keeps_fail _

theorem keeps_assertExpectedMeshId (manifest : Option Manifest) (meshId : Text) :
    Keeps E I (assertExpectedMeshId manifest meshId) := by
  rw [assertExpectedMeshId]
  split
  · exact keeps_fail _
  · split
    · exact keeps_fail _
    · refine keeps_bind (keeps_getMeta h _) fun stored => ?_
      split
      · exact keeps_fail _
      · exact keeps_setMeta h fun _ => rfl

theorem keeps_bootstrapManifest : Keeps E I bootstrapManifest := by
  refine keeps_bind (keeps_getMeta h _) fun meshId => ?_
  refine keeps_bind ?_ fun lineage => keeps_remotely fun n => ?_
  · rw [nextLineage]
    split
    · exact keeps_bind (keeps_getMeta h _) fun _ => keeps_pure _
    · exact keeps_pure _
  · exact keeps_createBootstrapManifest (fun c hc => askKeeps_at n (h.harmless c hc)) _ _

theorem keeps_checkManifest (assertLocalMeshId : Bool) (manifest : Manifest) :
    Keeps E I (checkManifest assertLocalMeshId manifest) := by
  rw [checkManifest]
  split
  · exact keeps_fail _
  · refine keeps_bind (keeps_when ?_) fun _ => ?_
    · refine keeps_bind keeps_get fun s => ?_
      exact keeps_attempt (keeps_assertExpectedMeshId h _ _) fun e => keeps_poisoned h e
    · refine keeps_bind (keeps_bind keeps_get fun _ => keeps_pure _) fun config => ?_
      split
      · exact keeps_fail _
      · exact keeps_pure _

theorem keeps_loadOrCreateManifest (assertLocalMeshId createIfMissing : Bool) :
    Keeps E I
      (loadOrCreateManifest assertLocalMeshId createIfMissing) := by
  refine keeps_bind (keeps_remotely fun n => keeps_findPointer (quiet_at h n) _) fun pointer => ?_
  split
  · refine keeps_bind (keeps_remotely fun n => keeps_readManifest ((quiet_at h n).readFile _))
      fun manifest => ?_
    exact keeps_bind (keeps_checkManifest h _ _) fun _ => keeps_pure _
  · refine keeps_bind (keeps_bootstrapManifest h) fun manifest => ?_
    exact keeps_bind (keeps_checkManifest h _ _) fun _ => keeps_pure _

theorem keeps_doLoadOrCreateManifest (force : Bool) (options : LoadOptions) :
    Keeps E I (doLoadOrCreateManifest force options) := by
  refine keeps_bind keeps_get fun s => ?_
  split
  · exact keeps_pure _
  · refine keeps_bind keeps_requireAdapter fun _ => ?_
    refine keeps_bind (keeps_loadOrCreateManifest h _ _) fun loaded => ?_
    refine keeps_bind (keeps_memory h.memory fun _ => rfl) fun _ => ?_
    refine keeps_bind (keeps_when (keeps_setMeta h fun _ => rfl)) fun _ => ?_
    exact keeps_pure _

/-! ## Clock, sessions and retention -/

theorem keeps_refreshHlcFromLocal : Keeps E I refreshHlcFromLocal := by
  refine keeps_bind (keeps_getMeta h _) fun saved => ?_
  split
  · exact keeps_pure _
  · refine keeps_memory h.memory fun s => ?_
    dsimp only
    split <;> rfl

omit h in
theorem keeps_handleRemoteAccessError (hm : IgnoresMemory I) (e : EngineError) :
    Keeps E I (handleRemoteAccessError e) :=
  keeps_remotely fun n => Interocitor.keeps_handleRemoteAccessError (ignoresSession_at hm n) e

theorem keeps_offlineRetentionState (now : ℕ) : Keeps E I (offlineRetentionState now) := by
  refine keeps_bind (keeps_remotely fun _ => keeps_activeRetentionPolicy) fun policy => ?_
  refine keeps_bind (keeps_getMeta h _) fun last => ?_
  split
  · exact keeps_pure _
  · exact keeps_pure _

theorem keeps_preservedRetentionMeta : Keeps E I preservedRetentionMeta := by
  refine keeps_bind (keeps_getMeta h _) fun _ => ?_
  refine keeps_bind (keeps_getMeta h _) fun _ => ?_
  refine keeps_bind (keeps_getMeta h _) fun _ => ?_
  refine keeps_bind (keeps_getMeta h _) fun _ => ?_
  exact keeps_bind (keeps_getMeta h _) fun _ => keeps_pure _

theorem keeps_writePreserved (p : PreservedMeta) : Keeps E I (writePreserved p) := by
  refine keeps_bind (keeps_when (keeps_setMeta h fun _ => rfl)) fun _ => ?_
  refine keeps_bind (keeps_when (keeps_setMeta h fun _ => rfl)) fun _ => ?_
  refine keeps_bind (keeps_when (keeps_setMeta h fun _ => rfl)) fun _ => ?_
  refine keeps_bind (keeps_when (keeps_setMeta h fun _ => rfl)) fun _ => ?_
  exact keeps_when (keeps_setMeta h fun _ => rfl)

theorem keeps_markSuccessfulRemoteSync : Keeps E I markSuccessfulRemoteSync := by
  refine keeps_bind (keeps_now h) fun now => ?_
  refine keeps_bind (keeps_setMeta h fun _ => rfl) fun _ => ?_
  exact keeps_setMeta h fun _ => rfl

theorem keeps_acknowledgeManifest : Keeps E I acknowledgeManifest :=
  keeps_remotely fun n =>
    Interocitor.keeps_acknowledgeManifest (quiet_at h n) (deviceRecords_at h n)

/-! ## Replicas -/

omit h in
theorem keeps_mirror_of_replica {replica : ℕ}
    (hreplica : ∀ c, AskKeeps E I (.remote (some replica) c))
    (manifest : Option Manifest) (entries : List ChangeEntry) :
    Keeps E I (mirror manifest entries replica) := by
  have hask : ∀ n c,
      AskKeeps (atReplica E (some replica)) (fun (d : Device) w => I (d.memory n) w) c :=
    fun n c => askKeeps_at n (hreplica c)
  refine keeps_attempt ?_ fun _ => keeps_pure _
  refine keeps_bind (keeps_remotely fun n => ?_) fun _ => keeps_remotely fun n => ?_
  · refine keeps_bind (keeps_ask (hask n _)) fun authenticated => keeps_when ?_
    exact keeps_bind (keeps_ask (hask n _)) fun rep => keeps_answered rep
  · refine keeps_bind (keeps_ensureFolder (hask n _)) fun _ => ?_
    refine keeps_bind (Proc.keeps_forEach fun entry _ => ?_) fun _ => keeps_when ?_
    · rw [writeChangeFile]
      split
      · exact Interocitor.keeps_fail _
      · exact keeps_writeFile (hask n _)
    · have hquiet : Quiet (atReplica E (some replica)) (fun (d : Device) w => I (d.memory n) w) :=
        ⟨hask n _, hask n _, hask n _, hask n _, fun _ => hask n _, hask n _, hask n _,
          fun _ => hask n _⟩
      exact keeps_writeHead hquiet (fun _ => hask n _) _

theorem keeps_mirror (manifest : Option Manifest) (entries : List ChangeEntry) (replica : ℕ) :
    Keeps E I (mirror manifest entries replica) :=
  keeps_mirror_of_replica (h.replica replica) manifest entries

/-! ## Connect -/

theorem keeps_rememberedMeshIdentity : Keeps E I rememberedMeshIdentity := by
  refine keeps_bind (keeps_getMeta h _) fun _ => ?_
  exact keeps_bind (keeps_getMeta h _) fun _ => keeps_pure _

theorem keeps_applyMeshEvictionPolicy (bootstrapped : Bool) (remembered : Text × Option ℤ) :
    Keeps E I (applyMeshEvictionPolicy bootstrapped remembered) := by
  refine keeps_bind keeps_get fun s => ?_
  split
  · exact keeps_pure _
  · split
    · exact keeps_pure _
    · refine keeps_bind (keeps_setMeta h fun _ => rfl) fun _ => ?_
      split
      · refine keeps_bind (keeps_reading h _) fun _ => ?_
        refine keeps_bind (keeps_reading h _) fun _ => ?_
        refine keeps_bind (keeps_remotely fun n => ?_) fun _ => ?_
        · refine Interocitor.keeps_attempt ?_ fun _ => keeps_pure _
          exact keeps_bind (keeps_readFile ((quiet_at h n).readFile _)) fun _ =>
            keeps_pure _
        split
        · exact keeps_bind (keeps_memory h.memory fun _ => rfl) fun _ => keeps_pure _
        · exact keeps_pure _
      · exact keeps_pure _

theorem keeps_connectUnchanged (ledger : ChangeObservationLedger) :
    Keeps E I (connectUnchanged ledger) := by
  refine keeps_attempt ?_ fun _ => keeps_pure _
  refine keeps_bind (keeps_remotely fun n => keeps_readFile ((quiet_at h n).readFile _))
    fun content => ?_
  split
  · split
    · refine keeps_bind (keeps_remotely fun n => keeps_listChanges (quiet_at h n).listChanges)
        fun files => ?_
      split
      · exact keeps_pure _
      · refine keeps_bind (keeps_memory h.memory fun _ => rfl) fun _ => ?_
        exact keeps_bind (keeps_markSuccessfulRemoteSync h) fun _ => keeps_pure _
    · exact keeps_pure _
  · exact keeps_pure _

theorem keeps_tryConnectFastPath : Keeps E I tryConnectFastPath := by
  refine keeps_bind ?_ fun cached => ?_
  · refine keeps_bind keeps_get fun s => ?_
    split
    · exact keeps_pure _
    · exact keeps_getMeta h _
  split
  · exact keeps_pure _
  refine keeps_bind (keeps_bind keeps_get fun _ => keeps_pure _) fun config => ?_
  split
  · exact keeps_pure _
  refine keeps_bind ?_ fun verified => ?_
  · refine keeps_attempt ?_ fun _ => keeps_pure _
    exact keeps_bind (keeps_doLoadOrCreateManifest h _ _) fun _ => keeps_pure _
  refine keeps_bind keeps_get fun s => ?_
  split
  · exact keeps_pure _
  refine keeps_bind (keeps_getMeta h _) fun ledger => ?_
  split
  · exact keeps_pure _
  refine keeps_bind (keeps_now h) fun now => ?_
  refine keeps_bind (keeps_offlineRetentionState h now) fun state => ?_
  dsimp only
  split
  · exact keeps_pure _
  refine keeps_bind (keeps_reading h _) fun size => ?_
  split
  · exact keeps_pure _
  refine keeps_bind (keeps_reading h _) fun pending => ?_
  split
  · exact keeps_pure _
  · exact keeps_connectUnchanged h ledger

theorem keeps_loadLocalState : Keeps E I loadLocalState := by
  refine keeps_bind (keeps_reading h _) fun pending => ?_
  refine keeps_bind (keeps_memory h.memory fun _ => rfl) fun _ => ?_
  refine keeps_bind (keeps_getMeta h _) fun saved => ?_
  split
  · exact keeps_pure _
  · exact keeps_memory h.memory fun _ => rfl

theorem keeps_finishConnect : Keeps E I finishConnect :=
  keeps_bind (keeps_memory h.memory fun _ => rfl) fun _ => keeps_markSuccessfulRemoteSync h

theorem keeps_connectStage {m : Aw α} (hm : Keeps E I m) : Keeps E I (connectStage m) := by
  refine Proc.keeps_tryCatch (keeps_bind hm fun _ => keeps_pure _) fun failure => ?_
  cases failure with
  | stalled => exact keeps_pure _
  | thrown e => exact keeps_bind (keeps_handleRemoteAccessError h.memory e) fun _ => keeps_fail _

end Ambient

end Aw

end Interocitor
