import Interocitor.Foundation.GuardedRuns
import Interocitor.Web.Credentials

/-!
# `web/passphrase-envelope.ts`: one key provider, called from everywhere at once

The key that seals a credential envelope is derived from a passphrase and from the salt of a stored
key record; the first call that needs a key for sealing provisions the record.  Loading a record,
asking for the passphrase, deriving, proving the passphrase and saving are all asynchronous, and
what is remembered between them is the record that was loaded at the start.  Calls of `getKey`
share one resolution while it is in flight, whatever they want the key for; calls of `unlock` are
outside that sharing.

So the provider is a system of processes here.  A process runs from one `await` to the next in one
step, the steps of all processes are interleaved in any order, and what comes from outside (the
passphrase that is asked for, the salt that is drawn, the clock, a rejected promise) is any
argument of the step.  A salt is drawn once.  The record store is a cell, read and written when it
is called; what it was called with and what it answered is known at the next step.

The system does not keep what it is for: a record that is saved or deleted while another call holds
the one before, a `getKey('decrypt')` that finds a provisioning in flight, and a `lock` with a call
in flight all break it (`overlapping_calls_strand_a_key`).  `Calm` says that a step is none of
these.

* `calm_runs_keep_keys`: after a run of calm steps every key that was returned for sealing or was
  cached was the key of the stored record at that moment, every call without a record was refused,
  and no key is cached by a call from before the last `lock`.
-/

namespace Interocitor

open CodeUnits List Option Function

namespace Web

namespace Passphrase

/-! ## Records and keys -/

/-- `PassphraseKeyRecord`; `boundTo` is its `namespace`. -/
structure KeyRecord (Salt Verifier : Type) where
  boundTo : Text
  iterations : ℕ
  salt : Salt
  verifier : Verifier

/-- The cryptography: `deriveKek`, which fails for an empty passphrase, and AES-GCM on the verifier
with the record as additional data. -/
structure Kdf (Key Salt Verifier : Type) where
  deriveKek : Text → Salt → ℕ → Option Key
  sealVerifier : Key → Text → Salt → ℕ → Verifier
  openVerifier : Key → KeyRecord Salt Verifier → Option Bytes
  verifierPlaintext : Bytes
  open_seal : ∀ key name salt n,
    openVerifier key ⟨name, n, salt, sealVerifier key name salt n⟩ = some verifierPlaintext

/-- The errors of the provider. -/
inductive ProviderError where
  /-- `MissingPassphraseKeyRecordError`. -/
  | missingKeyRecord
  /-- `PassphraseLockedError`. -/
  | locked
  /-- `WrongPassphraseError`. -/
  | wrongPassphrase
  /-- `InvalidPassphraseKeyRecordError`. -/
  | invalidKeyRecord
  /-- `PassphraseNamespaceMismatchError`. -/
  | namespaceMismatch
  /-- `PassphraseEnvelopeError`: the passphrase must not be empty. -/
  | emptyPassphrase
  /-- A promise of the platform was rejected. -/
  | rejected
  deriving DecidableEq

/-- The options of a provider. -/
structure Options where
  name : Text
  iterations : ℕ
  minimumIterations : ℕ

section Provider

variable {Key Salt Verifier : Type} (kdf : Kdf Key Salt Verifier) (o : Options)

/-- `assertNamespace`: the error that it throws. -/
def assertNamespace (record : KeyRecord Salt Verifier) : Option ProviderError :=
  if record.boundTo ≠ o.name then some .namespaceMismatch
  else if record.iterations < o.minimumIterations then some .invalidKeyRecord
  else none

/-- `verify`: the error that it throws. -/
def verify (key : Key) (record : KeyRecord Salt Verifier) : Option ProviderError :=
  match kdf.openVerifier key record with
  | none => some .wrongPassphrase
  | some plaintext =>
    if plaintext = kdf.verifierPlaintext then none else some .invalidKeyRecord

/-- The record that is saved for a new key. -/
def newRecord (key : Key) (salt : Salt) : KeyRecord Salt Verifier :=
  ⟨o.name, o.iterations, salt, kdf.sealVerifier key o.name salt o.iterations⟩

/-- **The key of a record**: derived from its salt, and proved by its verifier. -/
def KeyOf (record : KeyRecord Salt Verifier) (key : Key) : Prop :=
  (∃ passphrase, kdf.deriveKek passphrase record.salt record.iterations = some key) ∧
    verify kdf key record = none

theorem keyOf_newRecord {passphrase : Text} {key : Key} {salt : Salt}
    (h : kdf.deriveKek passphrase salt o.iterations = some key) :
    KeyOf kdf (newRecord kdf o key salt) key := by
  refine ⟨⟨passphrase, h⟩, ?_⟩
  rw [verify, newRecord, kdf.open_seal]
  exact if_pos rfl

/-! ## Processes -/

/-- Where a process waits. -/
inductive Phase (Key Salt Verifier : Type) where
  /-- `resolveKey`, for the record. -/
  | loaded (purpose : KeyPurpose) (existing : Option (KeyRecord Salt Verifier))
  /-- `resolveKey`, for its own `lock`. -/
  | relocking (purpose : KeyPurpose) (existing : Option (KeyRecord Salt Verifier))
  /-- `resolveKey`, for the passphrase. -/
  | asking (purpose : KeyPurpose) (existing : Option (KeyRecord Salt Verifier))
  /-- `unlock`, for the record. -/
  | unlocking (passphrase : Text) (existing : Option (KeyRecord Salt Verifier))
  /-- `derive`, for the key of an existing record. -/
  | derivingKey (passphrase : Text) (existing : KeyRecord Salt Verifier)
  /-- `derive`, for the proof of the passphrase. -/
  | verifying (key : Key) (existing : KeyRecord Salt Verifier)
  /-- `derive`, for the key of a new record. -/
  | provisioning (passphrase : Text) (salt : Salt)
  /-- `derive`, for the verifier of a new record. -/
  | sealing (key : Key) (salt : Salt)
  /-- `derive`, for the store to have saved the record. -/
  | saved (key : Key) (record : KeyRecord Salt Verifier)
  /-- `deleteKeyRecord`, for its own `lock`. -/
  | deleting
  /-- `deleteKeyRecord` has ended. -/
  | deleted
  /-- The promise is settled.  The record is the one that the key was found for. -/
  | settled (result : Except ProviderError (Key × KeyRecord Salt Verifier))

namespace Phase

/-- The record that a process goes by. -/
def holds : Phase Key Salt Verifier → Option (KeyRecord Salt Verifier)
  | loaded _ existing => existing
  | relocking _ existing => existing
  | asking _ existing => existing
  | unlocking _ existing => existing
  | derivingKey _ existing => some existing
  | verifying _ existing => some existing
  | provisioning _ _ => none
  | sealing _ _ => none
  | saved _ record => some record
  | deleting => none
  | deleted => none
  | settled (.ok (_, record)) => some record
  | settled (.error _) => none

/-- The salt of a record that is not saved yet. -/
def pending : Phase Key Salt Verifier → Option Salt
  | provisioning _ salt => some salt
  | sealing _ salt => some salt
  | _ => none

/-- The process has ended. -/
def isSettled : Phase Key Salt Verifier → Bool
  | deleted => true
  | settled _ => true
  | _ => false

/-- The process may still put a key into the cache. -/
def mayCache : Phase Key Salt Verifier → Bool
  | deleting => false
  | deleted => false
  | settled _ => false
  | _ => true

/-- The next step of the process writes to the record store, unless the platform rejects. -/
def writes (rejects : Bool) : Phase Key Salt Verifier → Bool
  | sealing _ _ => !rejects
  | deleting => true
  | _ => false

/-- A process that has refused, or will, because there was no record. -/
def Refuses : Phase Key Salt Verifier → Prop
  | loaded .decrypt none => True
  | settled (.error .missingKeyRecord) => True
  | _ => False

/-- The keys in a phase are what they should be. -/
def KeyOk : Phase Key Salt Verifier → Prop
  | verifying key r => ∃ passphrase, kdf.deriveKek passphrase r.salt r.iterations = some key
  | sealing key salt => ∃ passphrase, kdf.deriveKek passphrase salt o.iterations = some key
  | saved key r => KeyOf kdf r key
  | settled (.ok (key, r)) => KeyOf kdf r key
  | _ => True

end Phase

/-- A process, with the number of `lock` calls there had been when its call was made. -/
structure Process (Key Salt Verifier : Type) where
  phase : Phase Key Salt Verifier
  started : ℕ

/-- A caller of `getKey`: what for, whether no record was stored at the call, and the process that
it waits for. -/
structure Caller where
  purpose : KeyPurpose
  unprovisioned : Bool
  process : ℕ

/-- `cache`, with the number of `lock` calls at the start of the call that filled it. -/
structure Cached (Key Salt : Type) where
  key : Key
  salt : Salt
  started : ℕ

/-- What can be seen of the provider from outside. -/
inductive Observation (Key Salt Verifier : Type) where
  /-- A key was cached, by a call that started after so many `lock`s, of so many. -/
  | cached (key : Key) (record : Option (KeyRecord Salt Verifier)) (started locks : ℕ)
  /-- A call of `getKey` returned. -/
  | returned (purpose : KeyPurpose) (unprovisioned : Bool) (result : Except ProviderError Key)
      (record : Option (KeyRecord Salt Verifier))

/-- The provider and its callers.  `drawn` are the salts and `seen` the records there have been. -/
structure State (Key Salt Verifier : Type) where
  record : Option (KeyRecord Salt Verifier)
  cache : Option (Cached Key Salt)
  inFlight : Option ℕ
  processes : ℕ → Option (Process Key Salt Verifier)
  callers : ℕ → Option Caller
  locks : ℕ
  drawn : List Salt
  seen : List (KeyRecord Salt Verifier)
  log : List (Observation Key Salt Verifier)

/-- A new provider, over a store that may have a record. -/
def State.initial (record : Option (KeyRecord Salt Verifier)) : State Key Salt Verifier where
  record := record
  cache := none
  inFlight := none
  processes _ := none
  callers _ := none
  locks := 0
  drawn := record.toList.map KeyRecord.salt
  seen := record.toList
  log := []

/-! ## Steps -/

namespace State

variable (s : State Key Salt Verifier)

/-- What `lock` does to the cache. -/
def dropCache : State Key Salt Verifier := { s with cache := none }

/-- A process goes on to wait elsewhere. -/
def setPhase (p : ℕ) (phase : Phase Key Salt Verifier) : State Key Salt Verifier :=
  { s with
    processes := update s.processes p
      ((s.processes p).map fun q => { q with phase := phase }) }

/-- `return` and `throw`. -/
def settle (p : ℕ) (result : Except ProviderError (Key × KeyRecord Salt Verifier)) :
    State Key Salt Verifier :=
  s.setPhase p (.settled result)

/-- `store`, and the `return` that follows it. -/
def store (p : ℕ) (key : Key) (record : KeyRecord Salt Verifier) (started : ℕ) :
    State Key Salt Verifier :=
  let s := { s with
    cache := some ⟨key, record.salt, started⟩,
    log := .cached key s.record started s.locks :: s.log }
  s.settle p (.ok (key, record))

/-- Somebody still waits for a process, or it is not at its end. -/
def InUse (p : ℕ) (q : Process Key Salt Verifier) : Prop :=
  q.phase.isSettled = false ∨ s.inFlight = some p ∨ ∃ c w, s.callers c = some w ∧ w.process = p

end State

/-- What comes from outside in a step: whether the cached key has expired, the answer of
`requestPassphrase`, what `getRandomValues` draws, and whether the platform rejects. -/
structure Choice (Salt : Type) where
  expired : Bool
  answer : Option Text
  salt : Salt
  rejects : Bool

/-- `resolveKey`, with the record and with what `peek` has left in the cache. -/
def afterPeek [DecidableEq Salt] (s : State Key Salt Verifier) (p : ℕ) (purpose : KeyPurpose)
    (existing : Option (KeyRecord Salt Verifier)) : State Key Salt Verifier :=
  match s.cache, existing with
  | some cached, some r =>
    if cached.salt = r.salt then s.settle p (.ok (cached.key, r))
    else s.dropCache.setPhase p (.relocking purpose existing)
  | _, _ => s.dropCache.setPhase p (.relocking purpose existing)

/-- `resolveKey`, with the record. -/
def afterLoad [DecidableEq Salt] (s : State Key Salt Verifier) (p : ℕ) (c : Choice Salt)
    (purpose : KeyPurpose) (existing : Option (KeyRecord Salt Verifier)) : State Key Salt Verifier :=
  match existing.bind (assertNamespace o) with
  | some e => s.settle p (.error e)
  | none =>
    if existing.isNone = true ∧ purpose = .decrypt then s.settle p (.error .missingKeyRecord)
    else afterPeek (if c.expired then s.dropCache else s) p purpose existing

/-- The beginning of `derive`. -/
def derive [DecidableEq Salt] (s : State Key Salt Verifier) (p : ℕ) (c : Choice Salt)
    (passphrase : Text) (purpose : KeyPurpose) (existing : Option (KeyRecord Salt Verifier)) :
    Option (State Key Salt Verifier) :=
  match existing with
  | some r => some (s.setPhase p (.derivingKey passphrase r))
  | none =>
    if purpose = .decrypt then some (s.settle p (.error .missingKeyRecord))
    else if c.salt ∈ s.drawn then none
    else some ({ s with drawn := c.salt :: s.drawn }.setPhase p (.provisioning passphrase c.salt))

/-- A process resumes. -/
def resume [DecidableEq Salt] (s : State Key Salt Verifier) (p : ℕ) (c : Choice Salt)
    (started : ℕ) : Phase Key Salt Verifier → Option (State Key Salt Verifier)
  | .loaded purpose existing => some (afterLoad o s p c purpose existing)
  | .relocking purpose existing => some (s.setPhase p (.asking purpose existing))
  | .asking purpose existing =>
    match c.answer.filter fun t => decide (t ≠ []) with
    | none => some (s.settle p (.error .locked))
    | some passphrase => derive s p c passphrase purpose existing
  | .unlocking passphrase existing =>
    match existing.bind (assertNamespace o) with
    | some e => some (s.settle p (.error e))
    | none => derive s p c passphrase .encrypt existing
  | .derivingKey passphrase existing =>
    if c.rejects then some (s.settle p (.error .rejected))
    else
      match kdf.deriveKek passphrase existing.salt existing.iterations with
      | none => some (s.settle p (.error .emptyPassphrase))
      | some key => some (s.setPhase p (.verifying key existing))
  | .verifying key existing =>
    match verify kdf key existing with
    | some e => some (s.settle p (.error e))
    | none => some (s.store p key existing started)
  | .provisioning passphrase salt =>
    if c.rejects then some (s.settle p (.error .rejected))
    else
      match kdf.deriveKek passphrase salt o.iterations with
      | none => some (s.settle p (.error .emptyPassphrase))
      | some key => some (s.setPhase p (.sealing key salt))
  | .sealing key salt =>
    if c.rejects then some (s.settle p (.error .rejected))
    else
      let record := newRecord kdf o key salt
      some ({ s with record := some record, seen := record :: s.seen }.setPhase p
        (.saved key record))
  | .saved key record => some (s.store p key record started)
  | .deleting => some ({ s with record := none }.setPhase p .deleted)
  | .deleted => none
  | .settled _ => none

/-- What happens: a call, a step of a process, the end of a resolution, a caller that gets its
answer, or the timer. -/
inductive Input (Salt : Type) where
  | getKey (caller process : ℕ) (purpose : KeyPurpose)
  | unlock (process : ℕ) (passphrase : Text)
  | lock
  | deleteKeyRecord (process : ℕ)
  | resume (process : ℕ) (choice : Choice Salt)
  | finish (process : ℕ)
  | deliver (caller : ℕ)
  | expire

/-- A new process, if the number is free. -/
def spawn (s : State Key Salt Verifier) (p : ℕ) (phase : Phase Key Salt Verifier) :
    Option (State Key Salt Verifier) :=
  if (s.processes p).isSome then none
  else some { s with processes := update s.processes p (some ⟨phase, s.locks⟩) }

/-- One step. -/
def step [DecidableEq Salt] (s : State Key Salt Verifier) :
    Input Salt → Option (State Key Salt Verifier)
  | .getKey caller p purpose =>
    if (s.callers caller).isSome then none
    else
      match s.inFlight with
      | some q => some { s with
          callers := update s.callers caller (some ⟨purpose, s.record.isNone, q⟩) }
      | none => (spawn s p (.loaded purpose s.record)).map fun s' => { s' with
          inFlight := some p
          callers := update s.callers caller (some ⟨purpose, s.record.isNone, p⟩) }
  | .unlock p passphrase => spawn s p (.unlocking passphrase s.record)
  | .lock => some { s with cache := none, locks := s.locks + 1 }
  | .deleteKeyRecord p => spawn s.dropCache p .deleting
  | .resume p c => (s.processes p).bind fun q => resume kdf o s p c q.started q.phase
  | .finish p =>
    if s.inFlight = some p ∧ ((s.processes p).any fun q => q.phase.isSettled) = true then
      some { s with inFlight := none }
    else none
  | .deliver caller =>
    match s.callers caller with
    | none => none
    | some w =>
      if s.inFlight = some w.process then none
      else
        match (s.processes w.process).map Process.phase with
        | some (.settled result) => some { s with
            callers := update s.callers caller none
            log := .returned w.purpose w.unprovisioned (result.map Prod.fst) s.record :: s.log }
        | _ => none
  | .expire => some s.dropCache

/-! ## Calm steps -/

/-- **What goes wrong is left out.**  No call for opening is made while no record is stored and
another resolution is in flight; there is no `lock` while a call may still cache a key; and no
record is saved or deleted while another process in use goes by a record. -/
def Calm (s : State Key Salt Verifier) : Input Salt → Prop
  | .getKey _ _ purpose => purpose = .decrypt → s.record = none → s.inFlight = none
  | .lock => ∀ p q, s.processes p = some q → q.phase.mayCache = false
  | .resume p c => ∀ q, s.processes p = some q → q.phase.writes c.rejects = true →
      ∀ p' q', p' ≠ p → s.processes p' = some q' → s.InUse p' q' → q'.phase.holds = none
  | _ => True

/-- What an observation should be. -/
def Observation.Good : Observation Key Salt Verifier → Prop
  | .cached key record started locks =>
    started = locks ∧ ∃ r, record = some r ∧ KeyOf kdf r key
  | .returned purpose unprovisioned result record =>
    (purpose = .encrypt → ∀ key, result = .ok key → ∃ r, record = some r ∧ KeyOf kdf r key) ∧
      (purpose = .decrypt → unprovisioned = true → result = .error .missingKeyRecord)

/-! ## The invariant -/

/-- What is known of a process. -/
structure ProcessOk (s : State Key Salt Verifier) (p : ℕ) (q : Process Key Salt Verifier) :
    Prop where
  started : q.phase.mayCache = true → q.started = s.locks
  held : ∀ r, q.phase.holds = some r → s.InUse p q → s.record = some r
  key : q.phase.KeyOk kdf o
  drawn : ∀ salt, q.phase.pending = some salt → salt ∈ s.drawn ∧ ∀ r ∈ s.seen, r.salt ≠ salt

/-- What is known of the system. -/
structure Inv (s : State Key Salt Verifier) : Prop where
  processes : ∀ p q, s.processes p = some q → ProcessOk kdf o s p q
  apart : ∀ p q p' q' salt, s.processes p = some q → s.processes p' = some q' →
    q.phase.pending = some salt → q'.phase.pending = some salt → p = p'
  known : ∀ r, s.record = some r → r ∈ s.seen
  drawn : ∀ r ∈ s.seen, r.salt ∈ s.drawn
  distinct : ∀ r ∈ s.seen, ∀ r' ∈ s.seen, r.salt = r'.salt → r = r'
  cache : ∀ c, s.cache = some c →
    c.started = s.locks ∧ ∃ r ∈ s.seen, r.salt = c.salt ∧ KeyOf kdf r c.key
  inFlight : ∀ p, s.inFlight = some p → ∃ q, s.processes p = some q
  waits : ∀ c w, s.callers c = some w → ∃ q, s.processes w.process = some q ∧
    (w.purpose = .decrypt → w.unprovisioned = true → q.phase.Refuses)
  log : ∀ e ∈ s.log, e.Good kdf

variable {kdf o} {s s' : State Key Salt Verifier}

theorem inv_initial (record : Option (KeyRecord Salt Verifier)) :
    Inv kdf o (State.initial record : State Key Salt Verifier) where
  processes p q h := by cases h
  apart p q p' q' salt h := by cases h
  known r h := by simpa [State.initial] using h
  drawn r h := mem_map_of_mem h
  distinct r h r' h' _ := by
    have hr : record = some r := by simpa [State.initial] using h
    have hr' : record = some r' := by simpa [State.initial] using h'
    exact some.inj (hr.symm.trans hr')
  cache c h := by cases h
  inFlight p h := by cases h
  waits c w h := by cases h
  log e h := by cases h

theorem Inv.dropCache (h : Inv kdf o s) : Inv kdf o s.dropCache where
  processes p q hp :=
    ⟨(h.processes p q hp).started, (h.processes p q hp).held, (h.processes p q hp).key,
      (h.processes p q hp).drawn⟩
  apart := h.apart
  known := h.known
  drawn := h.drawn
  distinct := h.distinct
  cache c hc := by cases hc
  inFlight := h.inFlight
  waits := h.waits
  log := h.log

section SetPhase

variable {p : ℕ} {q : Process Key Salt Verifier}

theorem processes_setPhase_self (hp : s.processes p = some q) (phase : Phase Key Salt Verifier) :
    (s.setPhase p phase).processes p = some { q with phase := phase } := by
  have hself := update_self p ((s.processes p).map fun q => { q with phase := phase }) s.processes
  rw [hp] at hself
  rw [State.setPhase]
  dsimp only
  rw [hp]
  exact hself

theorem processes_setPhase_of_ne (phase : Phase Key Salt Verifier) {p' : ℕ} (hne : p' ≠ p) :
    (s.setPhase p phase).processes p' = s.processes p' :=
  update_of_ne hne _ _

theorem of_processes_setPhase {phase : Phase Key Salt Verifier} {p' : ℕ}
    {q' : Process Key Salt Verifier} (h : (s.setPhase p phase).processes p' = some q')
    (hp : s.processes p = some q) :
    p' = p ∧ q' = { q with phase := phase } ∨ p' ≠ p ∧ s.processes p' = some q' := by
  by_cases hne : p' = p
  · rw [hne, processes_setPhase_self hp] at h
    exact .inl ⟨hne, (some.inj h).symm⟩
  · rw [processes_setPhase_of_ne phase hne] at h
    exact .inr ⟨hne, h⟩

theorem Inv.setPhase (h : Inv kdf o s) (hp : s.processes p = some q)
    (phase : Phase Key Salt Verifier) (hmay : phase.mayCache = true → q.phase.mayCache = true)
    (hheld : ∀ r, phase.holds = some r → s.record = some r) (hkey : phase.KeyOk kdf o)
    (hdrawn : ∀ salt, phase.pending = some salt →
      (salt ∈ s.drawn ∧ ∀ r ∈ s.seen, r.salt ≠ salt) ∧
        ∀ p' q', p' ≠ p → s.processes p' = some q' → q'.phase.pending ≠ some salt)
    (hrefuses : q.phase.Refuses → phase.Refuses) : Inv kdf o (s.setPhase p phase) where
  processes p' q' hp' := by
    rcases of_processes_setPhase hp' hp with ⟨rfl, rfl⟩ | ⟨-, hp'⟩
    · exact ⟨fun hm => (h.processes p' q hp).started (hmay hm), fun r hr _ => hheld r hr, hkey,
        fun salt hs => (hdrawn salt hs).1⟩
    · have hok := h.processes p' q' hp'
      exact { hok with }
  apart p₁ q₁ p₂ q₂ salt h₁ h₂ hs₁ hs₂ := by
    rcases of_processes_setPhase h₁ hp with ⟨rfl, rfl⟩ | ⟨hne₁, hp₁⟩
    · rcases of_processes_setPhase h₂ hp with ⟨rfl, -⟩ | ⟨hne₂, hp₂⟩
      · rfl
      · exact absurd hs₂ ((hdrawn salt hs₁).2 p₂ q₂ hne₂ hp₂)
    · rcases of_processes_setPhase h₂ hp with ⟨rfl, rfl⟩ | ⟨-, hp₂⟩
      · exact absurd hs₁ ((hdrawn salt hs₂).2 p₁ q₁ hne₁ hp₁)
      · exact h.apart p₁ q₁ p₂ q₂ salt hp₁ hp₂ hs₁ hs₂
  known := h.known
  drawn := h.drawn
  distinct := h.distinct
  cache := h.cache
  inFlight p' hp' := by
    by_cases hne : p' = p
    · subst hne
      exact ⟨_, processes_setPhase_self hp phase⟩
    · rw [processes_setPhase_of_ne phase hne]
      exact h.inFlight p' hp'
  waits c w hw := by
    obtain ⟨q', hq', hrefuse⟩ := h.waits c w hw
    by_cases hne : w.process = p
    · rw [hne] at hq' ⊢
      obtain rfl := some.inj (hp.symm.trans hq')
      exact ⟨_, processes_setPhase_self hp phase, fun hd hu => hrefuses (hrefuse hd hu)⟩
    · rw [processes_setPhase_of_ne phase hne]
      exact ⟨q', hq', hrefuse⟩
  log := h.log

theorem Inv.fail (h : Inv kdf o s) (hp : s.processes p = some q) {e : ProviderError}
    (hrefuses : q.phase.Refuses → e = .missingKeyRecord) : Inv kdf o (s.settle p (.error e)) := by
  refine h.setPhase hp _ (by simp [Phase.mayCache]) (by simp [Phase.holds]) trivial
    (by simp [Phase.pending]) fun hr => ?_
  rw [hrefuses hr]
  trivial

theorem Inv.advance (h : Inv kdf o s) (hp : s.processes p = some q)
    (phase : Phase Key Salt Verifier) (hmay : q.phase.mayCache = true)
    (hheld : ∀ r, phase.holds = some r → s.record = some r) (hkey : phase.KeyOk kdf o)
    (hdrawn : phase.pending = none) (hrefuses : ¬ q.phase.Refuses) :
    Inv kdf o (s.setPhase p phase) := by
  refine h.setPhase hp phase (fun _ => hmay) hheld hkey (fun salt hs => ?_) fun hr =>
    absurd hr hrefuses
  rw [hdrawn] at hs
  cases hs

theorem Inv.record_eq (h : Inv kdf o s) (hp : s.processes p = some q)
    (hsettled : q.phase.isSettled = false) {r : KeyRecord Salt Verifier}
    (hr : q.phase.holds = some r) : s.record = some r :=
  (h.processes p q hp).held r hr (.inl hsettled)

/-- `store`: what is cached is the key of the stored record. -/
theorem Inv.store (h : Inv kdf o s) (hp : s.processes p = some q) {key : Key}
    {r : KeyRecord Salt Verifier} (hmay : q.phase.mayCache = true) (hrecord : s.record = some r)
    (hkey : KeyOf kdf r key) (hrefuses : ¬ q.phase.Refuses) :
    Inv kdf o (s.store p key r q.started) := by
  have hstarted := (h.processes p q hp).started hmay
  have hcached : Inv kdf o { s with
      cache := some ⟨key, r.salt, q.started⟩,
      log := .cached key s.record q.started s.locks :: s.log } :=
    { processes := fun p' q' hp' =>
        ⟨(h.processes p' q' hp').started, (h.processes p' q' hp').held, (h.processes p' q' hp').key,
          (h.processes p' q' hp').drawn⟩
      apart := h.apart
      known := h.known
      drawn := h.drawn
      distinct := h.distinct
      cache := by
        rintro c hc
        obtain rfl := some.inj hc
        exact ⟨hstarted, r, h.known r hrecord, rfl, hkey⟩
      inFlight := h.inFlight
      waits := h.waits
      log := forall_mem_cons.mpr ⟨⟨hstarted, r, hrecord, hkey⟩, h.log⟩ }
  refine hcached.advance hp (.settled (.ok (key, r))) hmay (fun r' hr' => ?_) hkey rfl hrefuses
  obtain rfl := some.inj hr'
  exact hrecord

end SetPhase

variable {q : Process Key Salt Verifier} {p : ℕ}

/-- The record store is written while no other process goes by a record. -/
theorem Inv.write (h : Inv kdf o s) (hp : s.processes p = some q)
    (hcalm : ∀ p' q', p' ≠ p → s.processes p' = some q' → s.InUse p' q' → q'.phase.holds = none)
    (record : Option (KeyRecord Salt Verifier)) (phase : Phase Key Salt Verifier)
    (hrecord : ∀ r ∈ record, q.phase.pending = some r.salt)
    (hmay : phase.mayCache = true → q.phase.mayCache = true)
    (hholds : ∀ r, phase.holds = some r → record = some r) (hkey : phase.KeyOk kdf o)
    (hpending : phase.pending = none) (hrefuses : ¬ q.phase.Refuses) :
    Inv kdf o ({ s with record := record, seen := record.toList ++ s.seen }.setPhase p phase) where
  processes p' q' hp' := by
    rcases of_processes_setPhase hp' hp with ⟨rfl, rfl⟩ | ⟨hne, hp'⟩
    · refine ⟨fun hm => (h.processes p' q hp).started (hmay hm), fun r hr _ => hholds r hr, hkey,
        fun salt hs => ?_⟩
      rw [hpending] at hs
      cases hs
    · have hok := h.processes p' q' hp'
      refine ⟨hok.started, fun r hr huse => ?_, hok.key, fun salt hs => ?_⟩
      · rw [hcalm p' q' hne hp' huse] at hr
        cases hr
      · refine ⟨(hok.drawn salt hs).1, fun r hr hsalt => ?_⟩
        rcases mem_append.mp hr with hr | hr
        · -- the salt of the new record is that of this process and of no other
          have hq := hrecord r (Option.mem_toList.mp hr)
          rw [hsalt] at hq
          exact hne (h.apart p' q' p q salt hp' hp hs hq)
        · exact (hok.drawn salt hs).2 r hr hsalt
  apart p₁ q₁ p₂ q₂ salt h₁ h₂ hs₁ hs₂ := by
    rcases of_processes_setPhase h₁ hp with ⟨rfl, rfl⟩ | ⟨-, h₁⟩
    · rw [hpending] at hs₁
      cases hs₁
    · rcases of_processes_setPhase h₂ hp with ⟨rfl, rfl⟩ | ⟨-, h₂⟩
      · rw [hpending] at hs₂
        cases hs₂
      · exact h.apart p₁ q₁ p₂ q₂ salt h₁ h₂ hs₁ hs₂
  known r hr := mem_append_left _ (Option.mem_toList.mpr hr)
  drawn r hr := by
    rcases mem_append.mp hr with hr | hr
    · exact ((h.processes p q hp).drawn _ (hrecord r (Option.mem_toList.mp hr))).1
    · exact h.drawn r hr
  distinct r hr r' hr' hsalt := by
    have hnew : ∀ r₁ ∈ record.toList, ∀ r₂ ∈ s.seen, r₂.salt ≠ r₁.salt := fun r₁ h₁ r₂ h₂ =>
      ((h.processes p q hp).drawn _ (hrecord r₁ (Option.mem_toList.mp h₁))).2 r₂ h₂
    rcases mem_append.mp hr with hr | hr <;> rcases mem_append.mp hr' with hr' | hr'
    · exact mem_unique (Option.mem_toList.mp hr) (Option.mem_toList.mp hr')
    · exact absurd hsalt.symm (hnew r hr r' hr')
    · exact absurd hsalt (hnew r' hr' r hr)
    · exact h.distinct r hr r' hr' hsalt
  cache c hc := by
    obtain ⟨hstarted, r, hr, hsalt, hkey⟩ := h.cache c hc
    exact ⟨hstarted, r, mem_append_right _ hr, hsalt, hkey⟩
  inFlight p' hp' := by
    by_cases hne : p' = p
    · subst hne
      exact ⟨_, processes_setPhase_self hp phase⟩
    · rw [processes_setPhase_of_ne phase hne]
      exact h.inFlight p' hp'
  waits c w hw := by
    obtain ⟨q', hq', hrefuse⟩ := h.waits c w hw
    by_cases hne : w.process = p
    · rw [hne] at hq' ⊢
      obtain rfl := some.inj (hp.symm.trans hq')
      exact ⟨_, processes_setPhase_self hp phase, fun hd hu => absurd (hrefuse hd hu) hrefuses⟩
    · rw [processes_setPhase_of_ne phase hne]
      exact ⟨q', hq', hrefuse⟩
  log := h.log

theorem Inv.spawn (h : Inv kdf o s) {phase : Phase Key Salt Verifier}
    (hholds : ∀ r, phase.holds = some r → s.record = some r) (hkey : phase.KeyOk kdf o)
    (hpending : phase.pending = none) (hstep : spawn s p phase = some s') :
    Inv kdf o s' ∧ s'.processes p = some ⟨phase, s.locks⟩ ∧ s.processes p = none := by
  unfold Passphrase.spawn at hstep
  split_ifs at hstep with hfree
  obtain rfl := some.inj hstep
  have hnone : s.processes p = none := by simpa using hfree
  have hcases : ∀ p' q', update s.processes p (some ⟨phase, s.locks⟩) p' = some q' →
      p' = p ∧ q' = ⟨phase, s.locks⟩ ∨ s.processes p' = some q' := by
    intro p' q' hp'
    by_cases hne : p' = p
    · rw [hne, update_self] at hp'
      exact .inl ⟨hne, (some.inj hp').symm⟩
    · rw [update_of_ne hne] at hp'
      exact .inr hp'
  have hold : ∀ {p' q'}, s.processes p' = some q' →
      update s.processes p (some ⟨phase, s.locks⟩) p' = some q' := by
    intro p' q' hp'
    have hne : p' ≠ p := by
      rintro rfl
      rw [hnone] at hp'
      cases hp'
    rw [update_of_ne hne, hp']
  refine ⟨?_, update_self _ _ _, hnone⟩
  exact
    { processes := by
        intro p' q' hp'
        rcases hcases p' q' hp' with ⟨rfl, rfl⟩ | hp'
        · refine ⟨fun _ => rfl, fun r hr _ => hholds r hr, hkey, fun salt hs => ?_⟩
          rw [hpending] at hs
          cases hs
        · have hok := h.processes p' q' hp'
          exact { hok with }
      apart := by
        intro p₁ q₁ p₂ q₂ salt h₁ h₂ hs₁ hs₂
        rcases hcases p₁ q₁ h₁ with ⟨rfl, rfl⟩ | hp₁
        · rw [hpending] at hs₁
          cases hs₁
        · rcases hcases p₂ q₂ h₂ with ⟨rfl, rfl⟩ | hp₂
          · rw [hpending] at hs₂
            cases hs₂
          · exact h.apart p₁ q₁ p₂ q₂ salt hp₁ hp₂ hs₁ hs₂
      known := h.known
      drawn := h.drawn
      distinct := h.distinct
      cache := h.cache
      inFlight := fun p' hp' => (h.inFlight p' hp').imp fun q' => hold
      waits := fun c w hw => (h.waits c w hw).imp fun q' hq' => ⟨hold hq'.1, hq'.2⟩
      log := h.log }

theorem Inv.join (h : Inv kdf o s) (hp : s.processes p = some q) (caller : ℕ) (purpose : KeyPurpose)
    (unprovisioned : Bool) (hheld : ∀ r, q.phase.holds = some r → s.record = some r)
    (hrefuses : purpose = .decrypt → unprovisioned = true → q.phase.Refuses) :
    Inv kdf o { s with
      inFlight := some p,
      callers := update s.callers caller (some ⟨purpose, unprovisioned, p⟩) } where
  processes p' q' hp' := by
    have hok := h.processes p' q' hp'
    refine ⟨hok.started, fun r hr huse => ?_, hok.key, hok.drawn⟩
    by_cases hne : p' = p
    · rw [hne] at hp'
      obtain rfl := some.inj (hp.symm.trans hp')
      exact hheld r hr
    · -- somebody waited for the other processes before
      refine hok.held r hr ?_
      rcases huse with huse | huse | ⟨c, w, hw, hprocess⟩
      · exact .inl huse
      · exact absurd (some.inj huse).symm hne
      · by_cases hc : c = caller
        · rw [hc] at hw
          have hw' := (update_self caller _ s.callers).symm.trans hw
          obtain rfl := some.inj hw'
          exact absurd hprocess.symm hne
        · exact .inr (.inr ⟨c, w, (update_of_ne hc _ _).symm.trans hw, hprocess⟩)
  apart := h.apart
  known := h.known
  drawn := h.drawn
  distinct := h.distinct
  cache := h.cache
  inFlight p' hp' := by
    obtain rfl := some.inj hp'
    exact ⟨q, hp⟩
  waits c w hw := by
    by_cases hc : c = caller
    · rw [hc] at hw
      have hw' := (update_self caller _ s.callers).symm.trans hw
      obtain rfl := some.inj hw'
      exact ⟨q, hp, hrefuses⟩
    · exact h.waits c w ((update_of_ne hc _ _).symm.trans hw)
  log := h.log

theorem Inv.lock (h : Inv kdf o s)
    (hcalm : ∀ p q, s.processes p = some q → q.phase.mayCache = false) :
    Inv kdf o { s with cache := none, locks := s.locks + 1 } where
  processes p q hp := by
    have hok := h.processes p q hp
    refine ⟨fun hmay => ?_, hok.held, hok.key, hok.drawn⟩
    rw [hcalm p q hp] at hmay
    cases hmay
  apart := h.apart
  known := h.known
  drawn := h.drawn
  distinct := h.distinct
  cache c hc := by cases hc
  inFlight := h.inFlight
  waits := h.waits
  log := h.log

theorem Inv.finish (h : Inv kdf o s) : Inv kdf o { s with inFlight := none } where
  processes p q hp := by
    have hok := h.processes p q hp
    refine ⟨hok.started, fun r hr huse => hok.held r hr ?_, hok.key, hok.drawn⟩
    rcases huse with huse | huse | huse
    · exact .inl huse
    · cases huse
    · exact .inr (.inr huse)
  apart := h.apart
  known := h.known
  drawn := h.drawn
  distinct := h.distinct
  cache := h.cache
  inFlight p hp := by cases hp
  waits := h.waits
  log := h.log

variable {caller : ℕ}

theorem Inv.good_returned (h : Inv kdf o s) {w : Caller} (hw : s.callers caller = some w)
    {result : Except ProviderError (Key × KeyRecord Salt Verifier)}
    (hphase : (s.processes w.process).map Process.phase = some (.settled result)) :
    (Observation.returned w.purpose w.unprovisioned (result.map Prod.fst) s.record).Good kdf := by
  obtain ⟨q, hq, hrefuses⟩ := h.waits caller w hw
  rw [hq, map_some, some.injEq] at hphase
  have hok := h.processes w.process q hq
  constructor
  · intro _ key hkey
    cases result with
    | error e => cases hkey
    | ok pair =>
      obtain rfl := Except.ok.inj hkey
      have hkeyOk := hok.key
      rw [hphase] at hkeyOk
      have hholds : q.phase.holds = some pair.2 := by rw [hphase]; rfl
      exact ⟨pair.2, hok.held pair.2 hholds (.inr (.inr ⟨caller, w, hw, rfl⟩)), hkeyOk⟩
  · intro hd hu
    have hr := hrefuses hd hu
    rw [hphase] at hr
    cases result with
    | ok pair => cases hr
    | error e =>
      cases e with
      | missingKeyRecord => rfl
      | _ => cases hr

/-! ## What each step keeps -/

variable [DecidableEq Salt] {existing : Option (KeyRecord Salt Verifier)} {purpose : KeyPurpose}

theorem Inv.afterPeek (h : Inv kdf o s) {started : ℕ}
    (hp : s.processes p = some ⟨.loaded purpose existing, started⟩)
    (hrefuses : ¬ (Phase.loaded purpose existing : Phase Key Salt Verifier).Refuses) :
    Inv kdf o (afterPeek s p purpose existing) := by
  have hrecord : ∀ r, existing = some r → s.record = some r := fun r hr => h.record_eq hp rfl hr
  have hrelock : Inv kdf o (s.dropCache.setPhase p (.relocking purpose existing)) :=
    h.dropCache.advance hp (.relocking purpose existing) rfl hrecord trivial rfl hrefuses
  unfold Passphrase.afterPeek
  cases hcached : s.cache with
  | none => exact hrelock
  | some cached =>
    cases existing with
    | none => exact hrelock
    | some r =>
      dsimp only
      split_ifs with hsalt
      · -- records with one salt are one record
        obtain ⟨-, r', hr', hsalt', hkey⟩ := h.cache cached hcached
        obtain rfl := h.distinct r' hr' r (h.known r (hrecord r rfl)) (hsalt'.trans hsalt)
        refine h.advance hp (.settled (.ok (cached.key, r'))) rfl (fun r hr => ?_) hkey rfl hrefuses
        obtain rfl := some.inj hr
        exact hrecord r' rfl
      · exact hrelock

theorem Inv.afterLoad (h : Inv kdf o s) {started : ℕ}
    (hp : s.processes p = some ⟨.loaded purpose existing, started⟩) (c : Choice Salt) :
    Inv kdf o (afterLoad o s p c purpose existing) := by
  unfold Passphrase.afterLoad
  cases hcheck : existing.bind (assertNamespace o) with
  | some e =>
    refine h.fail hp fun hrefuses => ?_
    cases existing with
    | none => cases hcheck
    | some r => cases purpose <;> cases hrefuses
  | none =>
    dsimp only
    by_cases hmissing : existing.isNone = true ∧ purpose = .decrypt
    · rw [if_pos hmissing]
      exact h.fail hp fun _ => rfl
    · rw [if_neg hmissing]
      have hrefuses : ¬ (Phase.loaded purpose existing : Phase Key Salt Verifier).Refuses := by
        intro hr
        cases purpose with
        | encrypt => cases existing <;> cases hr
        | decrypt =>
          cases existing with
          | none => exact hmissing ⟨rfl, rfl⟩
          | some r => cases hr
      split_ifs
      · exact h.dropCache.afterPeek hp hrefuses
      · exact h.afterPeek hp hrefuses

theorem Inv.derive (h : Inv kdf o s) (hp : s.processes p = some q) {c : Choice Salt}
    {passphrase : Text} (hholds : q.phase.holds = existing) (hmay : q.phase.mayCache = true)
    (hsettled : q.phase.isSettled = false) (hrefuses : ¬ q.phase.Refuses)
    (hstep : derive s p c passphrase purpose existing = some s') : Inv kdf o s' := by
  unfold Passphrase.derive at hstep
  cases existing with
  | some r =>
    obtain rfl := some.inj hstep
    refine h.advance hp (.derivingKey passphrase r) hmay (fun r' hr' => ?_) trivial rfl hrefuses
    obtain rfl := some.inj hr'
    exact h.record_eq hp hsettled hholds
  | none =>
    dsimp only at hstep
    split_ifs at hstep with hpurpose hfresh
    · obtain rfl := some.inj hstep
      exact h.fail hp fun hr => absurd hr hrefuses
    · obtain rfl := some.inj hstep
      have hdraw : Inv kdf o { s with drawn := c.salt :: s.drawn } :=
        { processes := fun p' q' hp' =>
            ⟨(h.processes p' q' hp').started, (h.processes p' q' hp').held,
              (h.processes p' q' hp').key, fun salt hs =>
              ⟨mem_cons_of_mem _ ((h.processes p' q' hp').drawn salt hs).1,
                ((h.processes p' q' hp').drawn salt hs).2⟩⟩
          apart := h.apart
          known := h.known
          drawn := fun r hr => mem_cons_of_mem _ (h.drawn r hr)
          distinct := h.distinct
          cache := h.cache
          inFlight := h.inFlight
          waits := h.waits
          log := h.log }
      refine hdraw.setPhase hp (.provisioning passphrase c.salt) (fun _ => hmay)
        (by simp [Phase.holds]) trivial (fun salt hs => ?_) fun hr => absurd hr hrefuses
      obtain rfl := some.inj hs
      -- the salt was not drawn before, so neither a record nor a process has it
      refine ⟨⟨mem_cons_self, fun r hr hsalt => hfresh (hsalt ▸ h.drawn r hr)⟩, ?_⟩
      intro p' q' _ hp' hpending
      exact hfresh ((h.processes p' q' hp').drawn _ hpending).1

/-- **One step of a process.** -/
theorem Inv.resume (h : Inv kdf o s) {c : Choice Salt} (hp : s.processes p = some q)
    (hcalm : q.phase.writes c.rejects = true → ∀ p' q', p' ≠ p → s.processes p' = some q' →
      s.InUse p' q' → q'.phase.holds = none)
    (hstep : resume kdf o s p c q.started q.phase = some s') : Inv kdf o s' := by
  have hok := h.processes p q hp
  obtain ⟨phase, started⟩ := q
  cases phase with
  | loaded purpose existing =>
    obtain rfl := some.inj hstep
    exact h.afterLoad hp c
  | relocking purpose existing =>
    obtain rfl := some.inj hstep
    exact h.advance hp (.asking purpose existing) rfl (fun r hr => h.record_eq hp rfl hr) trivial
      rfl id
  | asking purpose existing =>
    rw [Passphrase.resume] at hstep
    split at hstep
    · obtain rfl := some.inj hstep
      exact h.fail hp fun hr => hr.elim
    · exact h.derive hp rfl rfl rfl id hstep
  | unlocking passphrase existing =>
    rw [Passphrase.resume] at hstep
    split at hstep
    · obtain rfl := some.inj hstep
      exact h.fail hp fun hr => hr.elim
    · exact h.derive hp rfl rfl rfl id hstep
  | derivingKey passphrase existing =>
    rw [Passphrase.resume] at hstep
    split_ifs at hstep
    · obtain rfl := some.inj hstep
      exact h.fail hp fun hr => hr.elim
    · split at hstep
      · obtain rfl := some.inj hstep
        exact h.fail hp fun hr => hr.elim
      · rename_i key hkey
        obtain rfl := some.inj hstep
        exact h.advance hp (.verifying key existing) rfl (fun r hr => h.record_eq hp rfl hr)
          ⟨passphrase, hkey⟩ rfl id
  | verifying key existing =>
    rw [Passphrase.resume] at hstep
    split at hstep
    · obtain rfl := some.inj hstep
      exact h.fail hp fun hr => hr.elim
    · rename_i hverify
      obtain rfl := some.inj hstep
      exact h.store hp rfl (h.record_eq hp rfl rfl) ⟨hok.key, hverify⟩ id
  | provisioning passphrase salt =>
    rw [Passphrase.resume] at hstep
    split_ifs at hstep
    · obtain rfl := some.inj hstep
      exact h.fail hp fun hr => hr.elim
    · split at hstep
      · obtain rfl := some.inj hstep
        exact h.fail hp fun hr => hr.elim
      · rename_i key hkey
        obtain rfl := some.inj hstep
        refine h.setPhase hp (.sealing key salt) (fun _ => rfl) (by simp [Phase.holds])
          ⟨passphrase, hkey⟩ (fun salt' hs => ?_) fun hr => hr.elim
        obtain rfl := some.inj hs
        refine ⟨hok.drawn salt rfl, fun p' q' hne hp' hpending => hne ?_⟩
        exact h.apart p' q' p _ salt hp' hp hpending rfl
  | sealing key salt =>
    rw [Passphrase.resume] at hstep
    split_ifs at hstep with hrejects
    · obtain rfl := some.inj hstep
      exact h.fail hp fun hr => hr.elim
    · obtain rfl := some.inj hstep
      obtain ⟨passphrase, hkey⟩ := hok.key
      refine h.write hp (hcalm (by simp [Phase.writes, hrejects])) (some (newRecord kdf o key salt))
        (.saved key (newRecord kdf o key salt)) ?_ (fun _ => rfl) (fun r hr => hr)
        (keyOf_newRecord kdf o hkey) rfl id
      intro r hr
      obtain rfl := some.inj hr
      rfl
  | saved key record =>
    obtain rfl := some.inj hstep
    exact h.store hp rfl (h.record_eq hp rfl rfl) hok.key id
  | deleting =>
    obtain rfl := some.inj hstep
    exact h.write hp (hcalm rfl) none .deleted (by simp) (by simp [Phase.mayCache])
      (by simp [Phase.holds]) trivial rfl id
  | deleted => cases hstep
  | settled result => cases hstep

theorem Inv.getKey (h : Inv kdf o s)
    (hcalm : purpose = .decrypt → s.record = none → s.inFlight = none)
    (hstep : step kdf o s (.getKey caller p purpose) = some s') : Inv kdf o s' := by
  rw [step] at hstep
  split_ifs at hstep
  cases hflight : s.inFlight with
  | some q =>
    rw [hflight] at hstep
    dsimp only at hstep
    obtain rfl := some.inj hstep
    obtain ⟨proc, hproc⟩ := h.inFlight q hflight
    have hjoin := h.join hproc caller purpose s.record.isNone
      (fun r hr => (h.processes q proc hproc).held r hr (.inr (.inl hflight))) fun hd hu => by
        rw [hcalm hd (isNone_iff_eq_none.mp hu)] at hflight
        cases hflight
    exact hjoin
  | none =>
    rw [hflight] at hstep
    dsimp only at hstep
    obtain ⟨s₁, hspawn, rfl⟩ := map_eq_some_iff.mp hstep
    have hholds : ∀ r, (Phase.loaded purpose s.record : Phase Key Salt Verifier).holds = some r →
        s.record = some r := fun r hr => hr
    have hspawned := h.spawn hholds trivial rfl hspawn
    have hsame : s₁.callers = s.callers ∧ s₁.record = s.record := by
      unfold Passphrase.spawn at hspawn
      split_ifs at hspawn
      obtain rfl := some.inj hspawn
      exact ⟨rfl, rfl⟩
    have hjoin := hspawned.1.join hspawned.2.1 caller purpose s.record.isNone
      (fun r hr => by rw [hsame.2]; exact hr) fun hd hu => by
        rw [hd, isNone_iff_eq_none.mp hu]
        trivial
    rwa [hsame.1] at hjoin

theorem Inv.deliver (h : Inv kdf o s) (hstep : step kdf o s (.deliver caller) = some s') :
    Inv kdf o s' := by
  rw [step] at hstep
  split at hstep
  · cases hstep
  · rename_i w hw
    split_ifs at hstep
    split at hstep
    · rename_i result hphase
      obtain rfl := some.inj hstep
      have hstill : ∀ c w', update s.callers caller none c = some w' →
          s.callers c = some w' := by
        intro c w' hc
        by_cases hne : c = caller
        · rw [hne, update_self] at hc
          cases hc
        · rwa [update_of_ne hne] at hc
      exact
        { processes := by
            intro p q hp
            have hok := h.processes p q hp
            refine ⟨hok.started, fun r hr huse => hok.held r hr ?_, hok.key, hok.drawn⟩
            rcases huse with huse | huse | ⟨c, w', hc, hprocess⟩
            · exact .inl huse
            · exact .inr (.inl huse)
            · exact .inr (.inr ⟨c, w', hstill c w' hc, hprocess⟩)
          apart := h.apart
          known := h.known
          drawn := h.drawn
          distinct := h.distinct
          cache := h.cache
          inFlight := h.inFlight
          waits := fun c w' hc => h.waits c w' (hstill c w' hc)
          log := forall_mem_cons.mpr ⟨h.good_returned hw hphase, h.log⟩ }
    · cases hstep

/-- **Every calm step keeps the invariant.** -/
theorem Inv.step (h : Inv kdf o s) (e : Input Salt) (hstep : step kdf o s e = some s')
    (hcalm : Calm s e) : Inv kdf o s' := by
  cases e with
  | getKey caller p purpose => exact h.getKey hcalm hstep
  | unlock p passphrase =>
    have hholds : ∀ r, (Phase.unlocking passphrase s.record : Phase Key Salt Verifier).holds =
        some r → s.record = some r := fun r hr => hr
    exact (h.spawn hholds trivial rfl hstep).1
  | lock =>
    obtain rfl := some.inj hstep
    exact h.lock hcalm
  | deleteKeyRecord p =>
    have hholds : ∀ r, (Phase.deleting : Phase Key Salt Verifier).holds = some r →
        s.dropCache.record = some r := fun r hr => by cases hr
    exact (h.dropCache.spawn hholds trivial rfl hstep).1
  | resume p c =>
    obtain ⟨q, hq, hresume⟩ := bind_eq_some_iff.mp hstep
    exact h.resume hq (hcalm q hq) hresume
  | finish p =>
    rw [Passphrase.step] at hstep
    split_ifs at hstep
    obtain rfl := some.inj hstep
    exact h.finish
  | deliver caller => exact h.deliver hstep
  | expire =>
    obtain rfl := some.inj hstep
    exact h.dropCache

variable (kdf o)

theorem refuses_next (hp : s.processes p = some q) (h : q.phase.Refuses) :
    q.phase = .settled (.error .missingKeyRecord) ∨
      ∀ c, step kdf o s (.resume p c) = some (s.settle p (.error .missingKeyRecord)) := by
  obtain ⟨phase, started⟩ := q
  cases phase with
  | loaded purpose existing =>
    cases purpose with
    | encrypt => cases existing <;> cases h
    | decrypt =>
      cases existing with
      | some r => cases h
      | none =>
        refine .inr fun c => ?_
        rw [step, hp]
        rfl
  | settled result =>
    cases result with
    | ok pair => cases h
    | error e =>
      cases e with
      | missingKeyRecord => exact .inl rfl
      | _ => cases h
  | _ => cases h

/-- **Runs of calm steps.**  Every key that was cached, and every key that was returned for sealing,
was the key of the stored record at that moment; every call for opening that was made without a
record was refused, and those that wait are refused by the next step of what they wait for; and a
cached key is there by a call that started after the last `lock`. -/
theorem calm_runs_keep_keys (record : Option (KeyRecord Salt Verifier))
    (s : State Key Salt Verifier)
    (h : GuardedRuns.Reached (State.initial record) (step kdf o) Calm s) :
    (∀ e ∈ s.log, e.Good kdf) ∧
      (∀ c w, s.callers c = some w → w.purpose = .decrypt → w.unprovisioned = true →
        (s.processes w.process).map Process.phase = some (.settled (.error .missingKeyRecord)) ∨
          ∀ choice, step kdf o s (.resume w.process choice) =
            some (s.settle w.process (.error .missingKeyRecord))) ∧
      ∀ c, s.cache = some c → c.started = s.locks := by
  have hinv : Inv kdf o s :=
    h.invariant (inv_initial record) fun s e s' hs hstep hcalm => hs.step e hstep hcalm
  refine ⟨hinv.log, fun c w hw hd hu => ?_, fun c hc => (hinv.cache c hc).1⟩
  obtain ⟨q, hq, hrefuses⟩ := hinv.waits c w hw
  rcases refuses_next kdf o hq (hrefuses hd hu) with hphase | hnext
  · rw [hq, map_some, hphase]
    exact .inl rfl
  · exact .inr hnext

end Provider

/-! ### Runs -/

/-- Keys, salts and verifiers that can be compared: a key is its passphrase and its salt. -/
def plainKdf : Kdf (Text × ℕ) ℕ (Text × ℕ) where
  deriveKek passphrase salt _ := if passphrase = [] then none else some (passphrase, salt)
  sealVerifier key _ _ _ := key
  openVerifier key record := if record.verifier = key then some [] else none
  verifierPlaintext := []
  open_seal _ _ _ _ := if_pos rfl

/-- A provider. -/
def plainOptions : Options := ⟨[99], 600000, 210000⟩

/-- A step of a process, with a passphrase for whoever asks, and a salt. -/
def goOn (p salt : ℕ) : Input ℕ := .resume p ⟨false, some [97], salt, false⟩

/-- Two calls for sealing share a resolution on an empty store; `unlock` is called when it has saved
its record, and goes by that record while the resolution ends and its callers are answered. -/
def joinedCalls : List (Input ℕ) :=
  [.getKey 0 0 .encrypt, .getKey 1 1 .encrypt, goOn 0 0, goOn 0 0, goOn 0 0, goOn 0 0, goOn 0 0,
    .unlock 1 [97], goOn 1 0, goOn 0 0, goOn 1 0, .finish 0, .deliver 0, goOn 1 0, .deliver 1]

theorem calm_of_not_writes {Key Salt Verifier : Type} {s : State Key Salt Verifier} {p : ℕ}
    {c : Choice Salt} {q : Process Key Salt Verifier} (hp : s.processes p = some q)
    (h : q.phase.writes c.rejects = false) : Calm s (.resume p c) := by
  intro q' hq' hwrites
  obtain rfl := some.inj (hp.symm.trans hq')
  rw [h] at hwrites
  cases hwrites

theorem joinedCalls_reached :
    ∃ s, GuardedRuns.Reached (State.initial none) (step plainKdf plainOptions) Calm s ∧
      s.cache = some ⟨([97], 0), 0, 0⟩ ∧ s.log.length = 4 := by
  refine ⟨_, GuardedRuns.Reached.start.run joinedCalls ?_ rfl, rfl, rfl⟩
  refine ⟨fun h => absurd h (by simp), fun s₁ h₁ => ?_⟩
  obtain rfl := some.inj h₁
  refine ⟨fun h => absurd h (by simp), fun s₂ h₂ => ?_⟩
  obtain rfl := some.inj h₂
  refine ⟨calm_of_not_writes rfl rfl, fun s₃ h₃ => ?_⟩
  obtain rfl := some.inj h₃
  refine ⟨calm_of_not_writes rfl rfl, fun s₄ h₄ => ?_⟩
  obtain rfl := some.inj h₄
  refine ⟨calm_of_not_writes rfl rfl, fun s₅ h₅ => ?_⟩
  obtain rfl := some.inj h₅
  refine ⟨calm_of_not_writes rfl rfl, fun s₆ h₆ => ?_⟩
  obtain rfl := some.inj h₆
  -- when the record is saved there is no other process
  refine ⟨fun q hq _ p' q' hne hp' => ?_, fun s₇ h₇ => ?_⟩
  · simp [afterLoad, afterPeek, State.setPhase, State.dropCache, State.initial,
      update_of_ne hne] at hp'
  obtain rfl := some.inj h₇
  refine ⟨trivial, fun s₈ h₈ => ?_⟩
  obtain rfl := some.inj h₈
  refine ⟨calm_of_not_writes rfl rfl, fun s₉ h₉ => ?_⟩
  obtain rfl := some.inj h₉
  refine ⟨calm_of_not_writes rfl rfl, fun s₁₀ h₁₀ => ?_⟩
  obtain rfl := some.inj h₁₀
  refine ⟨calm_of_not_writes rfl rfl, fun s₁₁ h₁₁ => ?_⟩
  obtain rfl := some.inj h₁₁
  refine ⟨trivial, fun s₁₂ h₁₂ => ?_⟩
  obtain rfl := some.inj h₁₂
  refine ⟨trivial, fun s₁₃ h₁₃ => ?_⟩
  obtain rfl := some.inj h₁₃
  exact ⟨calm_of_not_writes rfl rfl, fun _ _ => ⟨trivial, fun _ _ => trivial⟩⟩

/-- All are given the key of the record that was saved. -/
theorem joined_calls_keep_their_key :
    ∃ s : State (Text × ℕ) ℕ (Text × ℕ), s.cache = some ⟨([97], 0), 0, 0⟩ ∧ s.log.length = 4 ∧
      (∀ e ∈ s.log, e.Good plainKdf) ∧ ∀ c, s.cache = some c → c.started = s.locks := by
  obtain ⟨s, hs, hcache, hlog⟩ := joinedCalls_reached
  have h := calm_runs_keep_keys plainKdf plainOptions none s hs
  exact ⟨s, hcache, hlog, h.1, h.2.2⟩

/-- Two calls of `unlock` on an empty store: both provision a record, and the first caches its key
after the second has saved its own. -/
def twoUnlocks : List (Input ℕ) :=
  [.unlock 0 [97], .unlock 1 [97], goOn 0 0, goOn 0 0, goOn 0 0, goOn 1 1, goOn 1 1, goOn 1 1,
    goOn 0 0]

/-- A call for opening, while a call for sealing provisions the record. -/
def sharedResolution : List (Input ℕ) :=
  [.getKey 0 0 .encrypt, .getKey 1 1 .decrypt, goOn 0 0, goOn 0 0, goOn 0 0, goOn 0 0, goOn 0 0,
    goOn 0 0, .finish 0, .deliver 1]

/-- A `lock` in the middle of a call of `unlock`. -/
def lateUnlock : List (Input ℕ) :=
  [.unlock 0 [97], .lock, goOn 0 0, goOn 0 0, goOn 0 0, goOn 0 0]

/-- The first run caches a key of a record that is no longer stored, the second answers a call for
opening that was made without a record, and the third leaves a key in the cache that was put there
by a call from before the `lock`. -/
theorem overlapping_calls_strand_a_key :
    (∃ s, GuardedRuns.run (step plainKdf plainOptions) (State.initial none) twoUnlocks = some s ∧
      ∃ e ∈ s.log, ¬ e.Good plainKdf) ∧
    (∃ s, GuardedRuns.run (step plainKdf plainOptions) (State.initial none) sharedResolution =
        some s ∧ ∃ e ∈ s.log, ¬ e.Good plainKdf) ∧
    ∃ s, GuardedRuns.run (step plainKdf plainOptions) (State.initial none) lateUnlock = some s ∧
      ∃ c, s.cache = some c ∧ c.started ≠ s.locks := by
  refine ⟨⟨_, rfl, _, mem_cons_self, ?_⟩, ⟨_, rfl, _, mem_cons_self, ?_⟩, ⟨_, rfl, _, rfl, ?_⟩⟩
  · rintro ⟨-, r, hr, -, hverify⟩
    obtain rfl := some.inj hr
    exact absurd hverify (by decide)
  · rintro ⟨-, hrefused⟩
    cases hrefused rfl rfl
  · decide

end Passphrase

end Web

end Interocitor
