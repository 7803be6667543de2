import Interocitor.Core.Crdt
import Interocitor.Core.LocalStore

/-!
# The state of an engine and the monad its methods run in

A `Device` is one engine with its local store: the fields of `Interocitor` in
`sync-engine.ts` that the synchronisation logic reads, and the `LocalStore` under it.
Methods are `Eng` computations: they change the device, talk to the mailbox through
the questions of `Core.Remote`, and may throw.

A request that never gets an answer suspends the method for good.  No `catch` of the
method sees that, so `Failure.stalled` passes through `attempt`; only the deadline
around a connect stage notices it.

Not modelled: events, logging, timers, query caches and the in-memory cache of rows,
which `ensureRowsCached` reloads from the local store before every use.  The reader
mode and replicas are left out, and payloads are taken as already decrypted.
-/

namespace Interocitor

open CodeUnits OrderedRecord Interaction

/-! ## Errors -/

/-- What engine methods throw. -/
inductive EngineError where
  | remote (e : RemoteError)
  | malformedJson
  | contentHashMismatch
  | missingMeshId
  | meshMismatch (expected got : Text)
  | unsupportedManifestVersion (version : ℕ)
  | schemaVersionMismatch (local_ remote_ : ℕ)
  | unauthorizedManifestWriter (writer : Text)
  | meshEncryptionMismatch (remoteEncrypted localEncrypted : Bool)
  | invalidRetention
  | invalidChangePayload
  | invalidSnapshotPayload
  | merge (e : MergeError)
  | invalidChangeFilename (name : Text)
  | invalidSnapshotChangeFilename
  | typeError
  | observationStateChanged
  | encodeBeforeManifest
  | notConnected
  | noAdapter
  | unauthorizedCompaction
  | localStore
  deriving DecidableEq

/-- The way a computation ends without a value. -/
inductive Failure where
  | thrown (e : EngineError)
  | stalled
  deriving DecidableEq

/-- The kind of a `RemoteAccessError`. -/
def accessKind : Failure → Option RemoteAccessKind
  | .thrown (.remote (.access kind)) => some kind
  | _ => none

/-! ## State -/

/-- `JoinExistingMeshPolicy`. -/
inductive JoinExistingMeshPolicy where
  | resetToRemote
  | mergeWithRemote
  deriving DecidableEq

/-- `EvictedMeshPolicy`. -/
inductive EvictedMeshPolicy where
  | refill
  | manual
  deriving DecidableEq

/-- The configuration of an engine. -/
structure Config where
  deviceId : Text
  serverId : Text
  serverManaged : Bool
  encrypted : Bool
  schema : Option DatabaseSchemaDefinition
  retention : RetentionPolicy
  retentionConfigured : Bool
  batchWindowMs : ℤ
  joinExistingMeshPolicy : JoinExistingMeshPolicy
  evictedMeshPolicy : EvictedMeshPolicy
  deviceName : Option Text
  deviceType : Option Text

/-- An engine and its local store. -/
structure Device where
  config : Config
  store : LocalStore
  hlc : Hlc
  manifest : Option Manifest
  adapter : Bool
  connected : Bool
  remoteAccessError : Option RemoteAccessKind
  remotePoisonError : Option EngineError
  pendingBatch : Bool
  pendingCount : ℕ
  batchDepth : ℕ
  evictedMeshAwaitingRefill : Bool

/-- Change the local store of a device. -/
def Device.withStore (d : Device) (f : LocalStore → LocalStore) : Device :=
  { d with store := f d.store }

/-- Change the metadata of a device. -/
def Device.withMeta (d : Device) (f : Metadata → Metadata) : Device :=
  d.withStore fun s => { s with metadata := f s.metadata }

/-- Engine methods. -/
abbrev Eng := Proc Call Reply Device Failure

namespace Eng

/-- Throw an error. -/
def fail {α : Type} (e : EngineError) : Eng α := Proc.throw (.thrown e)

/-- `try … catch`: a request without an answer is not caught. -/
def attempt {α : Type} (m : Eng α) (handler : EngineError → Eng α) : Eng α :=
  Proc.tryCatch m fun failure =>
    match failure with
    | .thrown e => handler e
    | .stalled => Proc.throw .stalled

/-- The value of an answer, or the failure it reports. -/
def answered {α : Type} : Except NoAnswer α → Eng α
  | .ok a => pure a
  | .error (.failed e) => fail (.remote e)
  | .error .stalled => Proc.throw .stalled

/-- `Date.now()`. -/
def now : Eng ℕ := Proc.ask Call.now

/-- `adapter.readFile`. -/
def readFile (path : ObjectPath) : Eng Content := do answered (← Proc.ask (Call.readFile path))

/-- `adapter.writeFile`. -/
def writeFile (path : ObjectPath) (content : Content) : Eng Unit := do
  answered (← Proc.ask (Call.writeFile path content))

/-- `adapter.deleteFile`. -/
def deleteFile (path : ObjectPath) : Eng Unit := do
  answered (← Proc.ask (Call.deleteFile path))

/-- `adapter.listFiles(p.changesFolder)`. -/
def listChanges : Eng (List Text) := do answered (← Proc.ask Call.listChanges)

/-- `adapter.listFiles(p.mainlineFolder)`. -/
def listMainline : Eng (List ObjectPath) := do answered (← Proc.ask Call.listMainline)

/-- `adapter.ensureFolder`. -/
def ensureFolder (folder : Folder) : Eng Unit := do
  answered (← Proc.ask (Call.ensureFolder folder))

/-- `"_"`. -/
def underscore : CodeUnit := 95

/-- `generateId`. -/
def generateId (kind : Text) : Eng Text := do
  let uuid : Text ← Proc.ask Call.uuid
  pure (kind ++ underscore :: uuid)

/-- Read the local store. -/
def store : Eng LocalStore := do pure (← Proc.get).store

/-- Change the local store. -/
def modifyStore (f : LocalStore → LocalStore) : Eng Unit :=
  Proc.modify fun d => d.withStore f

/-- `local.getMeta`, all records at once. -/
def metadata : Eng Metadata := do pure (← Proc.get).store.metadata

/-- `local.setMeta`. -/
def setMeta (f : Metadata → Metadata) : Eng Unit :=
  Proc.modify fun d => d.withMeta f

/-- The configuration. -/
def config : Eng Config := do pure (← Proc.get).config

end Eng

/-! ## Rules for the primitives -/

section Rules

variable {α W : Type} {E : Env Call Reply W} {d : Device} {w : W}
  {X : Failure → Device → W → Prop}

@[simp] theorem wp_fail {Q : α → Device → W → Prop} (e : EngineError) :
    (Eng.fail e : Eng α).wp E Q X d w ↔ X (.thrown e) d w := Iff.rfl

@[simp] theorem wp_attempt {Q : α → Device → W → Prop} {m : Eng α}
    {h : EngineError → Eng α} :
    (Eng.attempt m h).wp E Q X d w ↔ m.wp E Q (fun failure d w =>
      match failure with
      | .thrown e => (h e).wp E Q X d w
      | .stalled => X .stalled d w) d w := by
  rw [Eng.attempt, Proc.wp_tryCatch]
  constructor
  · intro hm
    refine Proc.wp_mono hm (fun _ _ _ hq => hq) fun f d w hx => ?_
    cases f <;> exact hx
  · intro hm
    refine Proc.wp_mono hm (fun _ _ _ hq => hq) fun f d w hx => ?_
    cases f <;> exact hx

/-- What an answer leads to. -/
def Answered (Q : α → Device → W → Prop) (X : Failure → Device → W → Prop) (d : Device) (w : W) :
    Except NoAnswer α → Prop
  | .ok a => Q a d w
  | .error (.failed e) => X (.thrown (.remote e)) d w
  | .error .stalled => X .stalled d w

@[simp] theorem wp_answered {Q : α → Device → W → Prop} (rep : Except NoAnswer α) :
    (Eng.answered rep : Eng α).wp E Q X d w ↔ Answered Q X d w rep := by
  cases rep with
  | ok a => exact Iff.rfl
  | error e => cases e <;> exact Iff.rfl

@[simp] theorem wp_now {Q : ℕ → Device → W → Prop} : Eng.now.wp E Q X d w ↔
    ∀ w₁, E.rely w w₁ → ∀ rep : ℕ, ∀ w₂, E.answer w₁ .now rep w₂ → E.guar w₁ w₂ ∧ Q rep d w₂ :=
  Iff.rfl

@[simp] theorem wp_store {Q : LocalStore → Device → W → Prop} :
    Eng.store.wp E Q X d w ↔ Q d.store d w := Iff.rfl

variable {Q : Unit → Device → W → Prop}

@[simp] theorem wp_modifyStore (f : LocalStore → LocalStore) :
    (Eng.modifyStore f).wp E Q X d w ↔ Q () (d.withStore f) w := Iff.rfl

@[simp] theorem wp_metadata {Q : Metadata → Device → W → Prop} :
    Eng.metadata.wp E Q X d w ↔ Q d.store.metadata d w := Iff.rfl

@[simp] theorem wp_setMeta (f : Metadata → Metadata) :
    (Eng.setMeta f).wp E Q X d w ↔ Q () (d.withMeta f) w := Iff.rfl

@[simp] theorem wp_config {Q : Config → Device → W → Prop} :
    Eng.config.wp E Q X d w ↔ Q d.config d w := Iff.rfl

@[simp] theorem wp_readFile {Q : Content → Device → W → Prop} (path : ObjectPath) :
    (Eng.readFile path).wp E Q X d w ↔ ∀ w₁, E.rely w w₁ → ∀ rep : Except NoAnswer Content, ∀ w₂,
      E.answer w₁ (.readFile path) rep w₂ → E.guar w₁ w₂ ∧ Answered Q X d w₂ rep := by
  rw [Eng.readFile, Proc.wp_bind, Proc.wp_ask]
  simp only [wp_answered]

@[simp] theorem wp_writeFile (path : ObjectPath) (content : Content) :
    (Eng.writeFile path content).wp E Q X d w ↔
      ∀ w₁, E.rely w w₁ → ∀ rep : Except NoAnswer Unit, ∀ w₂,
        E.answer w₁ (.writeFile path content) rep w₂ →
          E.guar w₁ w₂ ∧ Answered Q X d w₂ rep := by
  rw [Eng.writeFile, Proc.wp_bind, Proc.wp_ask]
  simp only [wp_answered]

@[simp] theorem wp_listChanges {Q : List Text → Device → W → Prop} :
    Eng.listChanges.wp E Q X d w ↔ ∀ w₁, E.rely w w₁ → ∀ rep : Except NoAnswer (List Text), ∀ w₂,
      E.answer w₁ .listChanges rep w₂ → E.guar w₁ w₂ ∧ Answered Q X d w₂ rep := by
  rw [Eng.listChanges, Proc.wp_bind, Proc.wp_ask]
  simp only [wp_answered]

@[simp] theorem wp_generateId {Q : Text → Device → W → Prop} (kind : Text) :
    (Eng.generateId kind).wp E Q X d w ↔ ∀ w₁, E.rely w w₁ → ∀ uuid : Text, ∀ w₂,
      E.answer w₁ .uuid uuid w₂ →
        E.guar w₁ w₂ ∧ Q (kind ++ Eng.underscore :: uuid) d w₂ :=
  Iff.rfl

end Rules

end Interocitor
