import Interocitor.Core.Frame

/-!
# Engines, await by await

In `Core` a method changes the local store at will and waits only for the remote.  The
source also waits for the store: every `getMeta`, `putRows` or `acknowledgeOutbox` is a
transaction of its own, which may fail, and a process may stop before or after it.  The
modules in `Awaits` are the same methods at that grain.

The local store is part of the world now, and what an engine keeps in memory is its
`Memory`.  A `transact` is one transaction of the store; its answer is the store that the
transaction found, or nothing if it failed.  Requests to a remote say which one: the primary
remote or one of the replicas.

* `Aw`: methods that wait for the store and for the remotes.
* `remotely`: a method of `Core` that does not touch the store, at one of the remotes, and
  `keeps_remotely`, by which it keeps what the original keeps.
-/

namespace Interocitor

open CodeUnits OrderedRecord Interaction
open Proc (Keeps Leads AskKeeps keeps_pure keeps_bind wp_mono)

/-! ## Memory -/

/-- What an engine keeps in memory: a `Device` without its store, and the number of
replicas. -/
structure Memory where
  config : Config
  replicas : ℕ
  hlc : Hlc
  manifest : Option Manifest
  adapter : Bool
  connected : Bool
  remoteAccessError : Option RemoteAccessKind
  remotePoisonError : Option EngineError
  pendingBatch : Bool
  pendingCount : ℕ
  batchDepth : ℕ
  evictedMeshAwaitingRefill : Bool

/-- The device that a memory and a store make. -/
def Memory.over (s : Memory) (store : LocalStore) : Device where
  config := s.config
  store := store
  hlc := s.hlc
  manifest := s.manifest
  adapter := s.adapter
  connected := s.connected
  remoteAccessError := s.remoteAccessError
  remotePoisonError := s.remotePoisonError
  pendingBatch := s.pendingBatch
  pendingCount := s.pendingCount
  batchDepth := s.batchDepth
  evictedMeshAwaitingRefill := s.evictedMeshAwaitingRefill

/-- The memory of a device. -/
def Device.memory (d : Device) (replicas : ℕ) : Memory where
  config := d.config
  replicas := replicas
  hlc := d.hlc
  manifest := d.manifest
  adapter := d.adapter
  connected := d.connected
  remoteAccessError := d.remoteAccessError
  remotePoisonError := d.remotePoisonError
  pendingBatch := d.pendingBatch
  pendingCount := d.pendingCount
  batchDepth := d.batchDepth
  evictedMeshAwaitingRefill := d.evictedMeshAwaitingRefill

/-! ## Awaits -/

/-- What an engine waits for: a remote, the primary one or a replica, or a transaction of
the local store. -/
inductive Await where
  | remote (replica : Option ℕ) (c : Call)
  | transact (f : LocalStore → LocalStore)

/-- The answers.  A transaction answers with the store it found, or fails. -/
@[reducible] def Answer : Await → Type
  | .remote _ c => Reply c
  | .transact _ => Option LocalStore

/-- Methods of an engine, await by await. -/
abbrev Aw := Proc Await Answer Memory Failure

namespace Aw

/-- Throw an error. -/
def fail {α : Type} (e : EngineError) : Aw α := Proc.throw (.thrown e)

/-- `try … catch`. -/
def attempt {α : Type} (m : Aw α) (handler : EngineError → Aw α) : Aw α :=
  Proc.tryCatch m fun failure =>
    match failure with
    | .thrown e => handler e
    | .stalled => Proc.throw .stalled

/-- A transaction of the local store: the store it found. -/
def transact (f : LocalStore → LocalStore) : Aw LocalStore := do
  let found : Option LocalStore ← Proc.ask (Await.transact f)
  match found with
  | some store => pure store
  | none => fail .localStore

/-- A transaction that only reads. -/
def read {α : Type} (g : LocalStore → α) : Aw α := do pure (g (← transact id))

/-- A transaction that writes. -/
def write (f : LocalStore → LocalStore) : Aw Unit := do
  let _ ← transact f

/-- `local.getMeta`. -/
def getMeta {α : Type} (g : Metadata → α) : Aw α := read fun store => g store.metadata

/-- `local.setMeta`. -/
def setMeta (f : Metadata → Metadata) : Aw Unit :=
  write fun store => { store with metadata := f store.metadata }

/-- A program of `Core` in a memory, with its requests sent to one remote. -/
def onRemote {ρ : Type} (replica : Option ℕ) (replicas : ℕ) :
    Prog Call Reply Device ρ → Prog Await Answer Memory ρ
  | .done r d => .done r (d.memory replicas)
  | .ask c d k => .ask (.remote replica c) (d.memory replicas) fun rep =>
    onRemote replica replicas (k rep)

/-- A method of `Core` that does not touch the store, at one of the remotes. -/
def remotely {α : Type} (replica : Option ℕ) (m : Eng α) : Aw α := fun s =>
  onRemote replica s.replicas (m (s.over .empty))

/-- `Date.now()`. -/
def now : Aw ℕ := Proc.ask (Await.remote none .now)

/-- `generateId`. -/
def generateId (kind : Text) : Aw Text := remotely none (Eng.generateId kind)

/-- The configuration. -/
def config : Aw Config := do pure (← Proc.get).config

/-! ## Rules -/

variable {α W : Type} {E : Env Await Answer W} {I : Memory → W → Prop}
  {X : Failure → Memory → W → Prop} {s : Memory} {w : W} {m : Aw α}

@[simp] theorem wp_attempt {Q : α → Memory → W → Prop} {h : EngineError → Aw α} :
    (attempt m h).wp E Q X s w ↔ m.wp E Q (fun failure s w =>
      match failure with
      | .thrown e => (h e).wp E Q X s w
      | .stalled => X .stalled s w) s w := by
  rw [attempt, Proc.wp_tryCatch]
  constructor
  · intro hm
    refine wp_mono hm (fun _ _ _ hq => hq) fun f s w hx => ?_
    cases f <;> exact hx
  · intro hm
    refine wp_mono hm (fun _ _ _ hq => hq) fun f s w hx => ?_
    cases f <;> exact hx

variable {f : LocalStore → LocalStore}

/-- A transaction that succeeds goes on with the store it found. -/
theorem wp_transact {Q : LocalStore → Memory → W → Prop} :
    (transact f).wp E Q X s w ↔ ∀ w₁, E.rely w w₁ → ∀ found w₂,
      E.answer w₁ (.transact f) found w₂ → E.guar w₁ w₂ ∧
        (∀ store, found = some store → Q store s w₂) ∧
        (found = none → X (.thrown .localStore) s w₂) := by
  rw [transact, Proc.wp_bind, Proc.wp_ask]
  constructor
  · intro h w₁ hr found w₂ ha
    obtain ⟨hg, hq⟩ := h w₁ hr found w₂ ha
    refine ⟨hg, fun store hfound => ?_, fun hfound => ?_⟩
    · subst hfound
      exact hq
    · subst hfound
      exact hq
  · intro h w₁ hr found w₂ ha
    obtain ⟨hg, hsome, hnone⟩ := h w₁ hr found w₂ ha
    refine ⟨hg, ?_⟩
    cases found with
    | none => exact hnone rfl
    | some store => exact hsome store rfl

theorem keeps_fail (e : EngineError) : Keeps E I (fail e : Aw α) := fun _ _ h => h

theorem keeps_attempt {f : EngineError → Aw α} (hm : Keeps E I m)
    (hf : ∀ e, Keeps E I (f e)) : Keeps E I (attempt m f) := by
  refine Proc.keeps_tryCatch hm fun failure => ?_
  cases failure with
  | thrown e => exact hf e
  | stalled => exact Proc.keeps_throw _

theorem leads_fail {Inv : W → Prop} {K : Memory → W → Prop} {L : α → Memory → W → Prop}
    (e : EngineError) : Leads E Inv K (fail e : Aw α) L := Proc.leads_throw _

theorem leads_attempt {Inv : W → Prop} {K : Memory → W → Prop} {L : α → Memory → W → Prop}
    {f : EngineError → Aw α} (hm : Leads E Inv K m L)
    (hf : ∀ e, Leads E Inv (fun _ _ => True) (f e) L) : Leads E Inv K (attempt m f) L := by
  refine Proc.leads_tryCatch hm fun failure => ?_
  cases failure with
  | thrown e => exact hf e
  | stalled => exact Proc.leads_throw _

theorem keeps_transact (h : AskKeeps E I (.transact f)) : Keeps E I (transact f) := by
  refine keeps_bind (Proc.keeps_ask h) fun found => ?_
  cases found with
  | none => exact keeps_fail _
  | some store => exact keeps_pure _

theorem keeps_read {g : LocalStore → α} (h : AskKeeps E I (.transact id)) : Keeps E I (read g) :=
  keeps_bind (keeps_transact h) fun _ => keeps_pure _

theorem keeps_write (h : AskKeeps E I (.transact f)) : Keeps E I (write f) :=
  keeps_bind (keeps_transact h) fun _ => keeps_pure _

/-- The requests to one of the remotes. -/
def atReplica (E : Env Await Answer W) (replica : Option ℕ) : Env Call Reply W where
  rely := E.rely
  answer w c rep w' := E.answer w (.remote replica c) rep w'
  guar := E.guar

theorem wp_remotely {Q : α → Memory → W → Prop} {replica : Option ℕ} {m : Eng α} :
    (remotely replica m).wp E Q X s w ↔
      m.wp (atReplica E replica) (fun a d w => Q a (d.memory s.replicas) w)
        (fun e d w => X e (d.memory s.replicas) w) (s.over .empty) w := by
  have hprog : ∀ (p : Prog Call Reply Device (Except Failure α)) w,
      (onRemote replica s.replicas p).wp E (Proc.ends Q X) w ↔
        p.wp (atReplica E replica) (Proc.ends (fun a d w => Q a (d.memory s.replicas) w)
          fun e d w => X e (d.memory s.replicas) w) w := by
    intro p
    induction p with
    | done r d =>
      intro w
      cases r <;> exact Iff.rfl
    | ask c d k ih =>
      intro w
      constructor
      · intro h w₁ hr rep w₂ ha
        obtain ⟨hg, hk⟩ := h w₁ hr rep w₂ ha
        exact ⟨hg, (ih rep w₂).mp hk⟩
      · intro h w₁ hr rep w₂ ha
        obtain ⟨hg, hk⟩ := h w₁ hr rep w₂ ha
        exact ⟨hg, (ih rep w₂).mpr hk⟩
  exact hprog (m (s.over .empty)) w

theorem keeps_remotely {replica : Option ℕ} {m : Eng α}
    (h : ∀ replicas, Keeps (atReplica E replica) (fun d w => I (d.memory replicas) w) m) :
    Keeps E I (remotely replica m) := fun s w hI =>
  wp_remotely.mpr (h s.replicas (s.over .empty) w hI)

end Aw

end Interocitor
