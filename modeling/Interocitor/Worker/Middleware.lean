import Interocitor.Worker.Handlers

/-!
# `worker.ts`: admission, middleware and the handler behind them

A host can plug its own code into the way of an IO request: a resolver of addresses, gates that
admit an address, and layers of middleware, each of which is handed a copy of the context of
the request and a function `next` that continues with the layers after it.  Nothing is known
about this code.  A layer may throw, return something that is no response, change its copy,
keep `next` and call it later, or twice, or from another layer.

So a request is a machine here, and what the plugged-in code does is an event: a gate answers,
a layer calls the `next` that it was given at some invocation, a layer settles.  The one layer
whose code is known is `createMeshAuthorizationMiddleware`; it waits for the answer of its
authorizer, and then does what `authorize` says.  Behind the last layer is the handler of
`Worker.Handlers`, which runs question by question, and between any two events the tables may
change by other requests.

That the handler runs at most once is not built into the machine: every call of `next` that
comes through starts an invocation of its own, and the handlers are a list.

* `handlers_guarded`: what a request can do that was not admitted, or not authorized.
-/

namespace Interocitor.Worker.Io

open OrderedRecord Interaction GuardedRuns List Option

/-! ## What the host plugs in -/

/-- What the resolver of addresses answers: no mesh, something that is no resolution, a resolution
with its address, or nothing because it threw. -/
inductive Resolution where
  | null
  | invalid
  | canonical (address : Path)
  | thrown
  deriving DecidableEq

/-- What a gate answers: `true`, `false`, something else, or nothing because it threw. -/
inductive GateAnswer where
  | accepted
  | refused
  | other
  | thrown
  deriving DecidableEq

/-- What an authorizer answers: a `MeshAuthorization`, something else, or nothing because it
threw. -/
inductive Decision where
  | none
  | full
  | readonly
  | deny
  | other
  | thrown
  deriving DecidableEq

/-- A gate; what it answers is in the events. -/
abbrev Gate := ℕ

/-- A layer: `createMeshAuthorizationMiddleware` with its option `concealDenied`, or other code. -/
inductive Layer where
  | authorization (concealDenied : Bool)
  | custom
  deriving DecidableEq

/-- The options of a host.  The lists are `none` if they are no arrays, or throw when they are read;
an entry is `none` if it is missing or no function. -/
structure Host where
  resolveMeshRoute : Callback
  meshIntegrityGates : Option (List (Option Gate))
  meshMiddleware : Option (List (Option Layer))
  runtime : IoRuntime

/-- The copy that is made of a list of functions before any of them is called. -/
def snapshotOf {α : Type} : Option (List (Option α)) → Option (List α)
  | none => none
  | some l => l.foldr (fun entry rest => entry.bind fun f => rest.map (f :: ·)) (some [])

/-- The gates of a host that are called. -/
def Host.gates (host : Host) : List Gate := (snapshotOf host.meshIntegrityGates).getD []

/-- The layers of a host that are called. -/
def Host.layers (host : Host) : List Layer := (snapshotOf host.meshMiddleware).getD []

/-- `MeshRequestContext`, without the request: every layer has a clone of it. -/
structure Context where
  presentedAddress : Path
  canonicalAddress : Path
  access : MeshAccess
  deriving DecidableEq

/-- `createMeshAuthorizationMiddleware`, after the answer of the authorizer: a response of its own,
or `next()`. -/
def authorize (concealDenied : Bool) (access : MeshAccess) : Decision → Option Response
  | .none => none
  | .full => none
  | .readonly => if access = .write then some denied else none
  | .deny => some denied
  | .other => some (errorResponse "Authorization unavailable" 503)
  | .thrown => some (errorResponse "Authorization unavailable" 503)
where
  /-- The response to what is not allowed. -/
  denied : Response :=
    if concealDenied then errorResponse "Not found" 404 else errorResponse "Forbidden" 403

/-! ## A request on its way -/

/-- How an invocation of a layer ends: with a response, by throwing, or with what `next()` gives. -/
inductive Settled where
  | response (r : Response)
  | thrown
  | forwarded
  deriving DecidableEq

/-- What a layer of other code returns. -/
inductive Outcome where
  | response (r : Response)
  | nonResponse
  | thrown
  deriving DecidableEq

/-- An invocation of a layer: its place, the variable `continued`, its copy of the context, what its
authorizer answered if it has one, and how it ended. -/
structure Invocation where
  index : ℕ
  continued : Bool
  context : Context
  decision : Option Decision
  settled : Option Settled

/-- How far a request has come before its layers, or that it was answered there. -/
inductive Phase where
  | resolving
  | gating (left : List Gate)
  | admitted
  | answered (r : Response)

/-- A request.  `log` has the tables before and after each question of its handlers. -/
structure Machine where
  phase : Phase
  canonicalAddress : Path
  gateAnswers : List GateAnswer
  invocations : List Invocation
  handlers : List (Prog Call Reply Unit (Except Unit Response))
  tables : Tables
  log : List (Tables × Tables)

/-- What can happen to a request. -/
inductive Event where
  | resolve (r : Resolution)
  | gate (a : GateAnswer)
  -- a layer changes its copy of the context
  | alter (k : ℕ) (context : Context)
  -- somebody calls the `next` of an invocation
  | next (k : ℕ)
  | decide (k : ℕ) (d : Decision)
  | settle (k : ℕ) (o : Outcome)
  -- a handler gets the answer that it waits for
  | serve (k : ℕ) (fate : Fate)
  -- other requests change the tables
  | elsewhere (t : Tables)

namespace Machine

variable (host : Host) (request : IoRequest)

/-- `invoke`: the handler behind the last layer, or a new invocation. -/
def invoke (access : MeshAccess) (m : Machine) (index : ℕ) : Machine :=
  match host.layers[index]? with
  | none => { m with
      handlers := m.handlers ++ [terminal host.runtime m.canonicalAddress request ()] }
  | some _ => { m with
      invocations := m.invocations ++
        [⟨index, false, ⟨request.presentedAddress, m.canonicalAddress, access⟩, none, none⟩] }

/-- `next` of an invocation.  The second call is answered by itself. -/
def next (access : MeshAccess) (m : Machine) (k : ℕ) (v : Invocation) : Machine :=
  if v.continued then m
  else invoke host request access
    { m with invocations := m.invocations.set k { v with continued := true } } (v.index + 1)

/-- `runMeshMiddleware`. -/
def runMeshMiddleware (access : MeshAccess) (m : Machine) : Machine :=
  match snapshotOf host.meshMiddleware with
  | none => { m with phase := .answered (errorResponse "Mesh middleware unavailable" 503) }
  | some _ => invoke host request access { m with phase := .admitted } 0

/-- What is left to do of the loop of `admitMeshRoute`. -/
def gating (m : Machine) : List Gate → Machine
  | [] => { m with phase := .answered (errorResponse "Not found" 404) }
  | left => { m with phase := .gating left }

/-- `"__interocitor_recovery__"`. -/
def recoveryStoragePrefix : Path := "__interocitor_recovery__".toList

/-- `admitMeshRoute`, up to its first gate. -/
def admitMeshRoute (m : Machine) : Machine :=
  match snapshotOf host.meshIntegrityGates with
  | none => { m with phase := .answered (errorResponse "Mesh integrity unavailable" 503) }
  | some gates => m.gating gates

/-- `resolvePublicMeshRoute`, once the address is known. -/
def routed (usesResolver : Bool) (m : Machine) : Machine :=
  if m.canonicalAddress = recoveryStoragePrefix then
    { m with
      phase := .answered (if usesResolver then errorResponse "Mesh route unavailable" 503
        else errorResponse "Not found" 404) }
  else m.admitMeshRoute host

/-- The request before anything has happened. -/
def fresh (t : Tables) : Machine :=
  ⟨.resolving, request.presentedAddress, [], [], [], t, []⟩

/-- `handleIoRequest`, up to the first thing that it waits for. -/
def start (t : Tables) : Machine :=
  match ioRequestAccess request.op request.method with
  | none => { fresh request t with phase := .answered notFound }
  | some _ =>
    match host.resolveMeshRoute with
    | .absent => (fresh request t).routed host false
    | .invalid => { fresh request t with
        phase := .answered (errorResponse "Mesh route unavailable" 503) }
    | .present => fresh request t

/-- `trim().length === 0`. -/
def isBlank (address : Path) : Bool :=
  address.all fun c => decide (c.toNat ∈ [9, 10, 11, 12, 13, 32, 160, 5760, 8192, 8193, 8194, 8195,
    8196, 8197, 8198, 8199, 8200, 8201, 8202, 8232, 8233, 8239, 8287, 12288, 65279])

/-- The answer of the resolver. -/
def resolved (m : Machine) : Resolution → Machine
  | .null => { m with phase := .answered (errorResponse "Not found" 404) }
  | .invalid => { m with phase := .answered (errorResponse "Mesh route unavailable" 503) }
  | .thrown => { m with phase := .answered (errorResponse "Mesh route unavailable" 503) }
  | .canonical address =>
    if isBlank address then
      { m with phase := .answered (errorResponse "Mesh route unavailable" 503) }
    else routed host true { m with canonicalAddress := address }

/-- The answer of a gate. -/
def gated (access : MeshAccess) (m : Machine) (left : List Gate) (a : GateAnswer) : Machine :=
  let m : Machine := { m with gateAnswers := m.gateAnswers ++ [a] }
  match a with
  | .accepted => runMeshMiddleware host request access m
  | .refused => m.gating left
  | .other => { m with phase := .answered (errorResponse "Mesh integrity unavailable" 503) }
  | .thrown => { m with phase := .answered (errorResponse "Mesh integrity unavailable" 503) }

/-- The answer of an authorizer. -/
def decided (access : MeshAccess) (m : Machine) (k : ℕ) (v : Invocation) (concealDenied : Bool)
    (d : Decision) : Machine :=
  match authorize concealDenied v.context.access d with
  | none => next host request access m k { v with decision := some d, settled := some .forwarded }
  | some r => { m with
      invocations := m.invocations.set k
        { v with decision := some d, settled := some (.response r) } }

/-- What `invoke` makes of what a layer returns. -/
def settledOf : Outcome → Settled
  | .response r => .response r
  | .nonResponse => .response (errorResponse "Mesh middleware unavailable" 503)
  | .thrown => .thrown

/-- One event, if it can happen. -/
def step (m : Machine) (e : Event) : Option Machine :=
  match ioRequestAccess request.op request.method with
  | none => none
  | some access =>
    match e with
    | .resolve r =>
      match m.phase with
      | .resolving => some (m.resolved host r)
      | _ => none
    | .gate a =>
      match m.phase with
      | .gating (_ :: left) => some (gated host request access m left a)
      | _ => none
    | .alter k context =>
      match m.invocations[k]? with
      | some v =>
        if host.layers[v.index]? = some .custom then
          some { m with invocations := m.invocations.set k { v with context := context } }
        else none
      | none => none
    | .next k =>
      match m.invocations[k]? with
      | some v =>
        if host.layers[v.index]? = some .custom then some (next host request access m k v) else none
      | none => none
    | .decide k d =>
      match m.invocations[k]? with
      | some v =>
        match host.layers[v.index]? with
        | some (.authorization concealDenied) =>
          if v.decision = none then some (decided host request access m k v concealDenied d)
          else none
        | _ => none
      | none => none
    | .settle k o =>
      match m.invocations[k]? with
      | some v =>
        if host.layers[v.index]? = some .custom ∧ v.settled = none then
          some { m with
            invocations := m.invocations.set k { v with settled := some (settledOf o) } }
        else none
      | none => none
    | .serve k fate =>
      match m.handlers[k]? with
      | some (.ask c _ rest) =>
        some { m with
          handlers := m.handlers.set k (rest (reply m.tables fate c).1)
          tables := (reply m.tables fate c).2
          log := m.log ++ [(m.tables, (reply m.tables fate c).2)] }
      | _ => none
    | .elsewhere t => some { m with tables := t }

/-! ## The invariant -/

/-- The handlers run as `ReadOnly`, whatever happens between two questions. -/
def HandlersRead (m : Machine) : Prop :=
  ∀ p ∈ m.handlers, ∀ t, p.wp (readEnv (servedKey m.canonicalAddress request)) (fun _ _ _ => True) t

/-- The invocations are those of the layers in their order.  All but the last have continued, and
the last one has if a handler was started.  An authorization has continued if its authorizer's
answer says so, for the access of the request. -/
structure Layered (access : MeshAccess) (m : Machine) : Prop where
  index : ∀ {k : ℕ} {v : Invocation}, m.invocations[k]? = some v → v.index = k
  bound : m.invocations.length ≤ host.layers.length
  continued : ∀ {k : ℕ} {v : Invocation}, m.invocations[k]? = some v →
    (v.continued = true ↔ k + 1 < m.invocations.length ∨ m.handlers ≠ [])
  once : m.handlers.length ≤ 1
  last : m.handlers ≠ [] → m.invocations.length = host.layers.length
  authorized : ∀ {k : ℕ} {v : Invocation} {concealDenied : Bool}, m.invocations[k]? = some v →
    host.layers[k]? = some (.authorization concealDenied) → v.context.access = access ∧
      (v.continued = true → ∃ d, v.decision = some d ∧ authorize concealDenied access d = none)
  reads : access = .read → m.HandlersRead request
  log : access = .read → ∀ p ∈ m.log, ReadOnly (servedKey m.canonicalAddress request) p.1 p.2
  quiet : m.handlers = [] → m.log = []

/-- No layer was called. -/
structure Waiting (m : Machine) : Prop where
  invocations : m.invocations = []
  handlers : m.handlers = []
  log : m.log = []

/-- What the gates have answered: all `false` so far, or a `true` at the end. -/
def Answered (m : Machine) : Phase → Prop
  | .resolving => m.gateAnswers = []
  | .gating left =>
    ∃ front, host.gates = front ++ left ∧ m.gateAnswers = front.map fun _ => .refused
  | .admitted =>
    ∃ front gate left, host.gates = front ++ gate :: left ∧
      m.gateAnswers = (front.map fun _ => .refused) ++ [.accepted]
  | .answered _ => True

/-- What holds of a request at any time. -/
structure Inv (access : MeshAccess) (m : Machine) : Prop where
  answered : m.Answered host m.phase
  waiting : m.phase ≠ .admitted → m.Waiting
  layered : m.Layered host request access

variable {host request} {access : MeshAccess} {m m' : Machine}

theorem Waiting.layered (h : m.Waiting) : m.Layered host request access where
  index hv := by simp [h.invocations] at hv
  bound := by simp [h.invocations]
  continued hv := by simp [h.invocations] at hv
  once := by simp [h.handlers]
  last hne := absurd h.handlers hne
  authorized hv := by simp [h.invocations] at hv
  reads _ p hp := by simp [h.handlers] at hp
  log _ p hp := by simp [h.log] at hp
  quiet _ := h.log

/-- The state in which a layer is called that was not called before. -/
structure Ready (host : Host) (access : MeshAccess) (m : Machine) : Prop where
  index : ∀ {k : ℕ} {v : Invocation}, m.invocations[k]? = some v → v.index = k
  bound : m.invocations.length ≤ host.layers.length
  continued : ∀ {k : ℕ} {v : Invocation}, m.invocations[k]? = some v → v.continued = true
  handlers : m.handlers = []
  log : m.log = []
  authorized : ∀ {k : ℕ} {v : Invocation} {concealDenied : Bool}, m.invocations[k]? = some v →
    host.layers[k]? = some (.authorization concealDenied) → v.context.access = access ∧
      ∃ d, v.decision = some d ∧ authorize concealDenied access d = none

theorem Waiting.ready (h : m.Waiting) : m.Ready host access where
  index hv := by simp [h.invocations] at hv
  bound := by simp [h.invocations]
  continued hv := by simp [h.invocations] at hv
  handlers := h.handlers
  log := h.log
  authorized hv := by simp [h.invocations] at hv

theorem handler_reads (host : Host) (address : Path)
    (hread : ioRequestAccess request.op request.method = some .read) (t : Tables) :
    (terminal host.runtime address request ()).wp (readEnv (servedKey address request))
      (fun _ _ _ => True) t := by
  refine Prog.wp_mono (terminal_reads host.runtime address hread () t trivial) ?_
  intros
  trivial

variable {k : ℕ}

theorem getElem?_concat {α : Type} {l : List α} {a v : α} (h : (l ++ [a])[k]? = some v) :
    l[k]? = some v ∨ k = l.length ∧ v = a := by
  rcases lt_trichotomy k l.length with hk | rfl | hk
  · rw [List.getElem?_append_left hk] at h
    exact .inl h
  · rw [List.getElem?_concat_length] at h
    exact .inr ⟨rfl, (some.inj h).symm⟩
  · rw [List.getElem?_eq_none (by simp; omega)] at h
    exact absurd h (by simp)

theorem Ready.invoke (h : m.Ready host access)
    (hacc : ioRequestAccess request.op request.method = some access) :
    (invoke host request access m m.invocations.length).Layered host request access := by
  rw [Machine.invoke]
  cases hlayer : host.layers[m.invocations.length]? with
  | none =>
    have hlen : m.invocations.length = host.layers.length :=
      le_antisymm h.bound (List.getElem?_eq_none_iff.mp hlayer)
    refine ⟨h.index, h.bound, fun hv => ?_, ?_, fun _ => hlen, fun hv hl => ?_, ?_, ?_, ?_⟩
    · exact ⟨fun _ => .inr (by simp), fun _ => h.continued hv⟩
    · simp [h.handlers]
    · exact ⟨(h.authorized hv hl).1, fun _ => (h.authorized hv hl).2⟩
    · rintro rfl p hp t
      simp only [h.handlers, nil_append, mem_singleton] at hp
      rw [hp]
      exact handler_reads host m.canonicalAddress hacc t
    · intro _ p hp
      simp [h.log] at hp
    · exact fun _ => h.log
  | some layer =>
    have hlt : m.invocations.length < host.layers.length := (List.getElem?_eq_some_iff.mp hlayer).1
    refine ⟨fun hv => ?_, ?_, fun {k v} hv => ?_, ?_, ?_, fun {k v c} hv hl => ?_, ?_, ?_, ?_⟩
    · rcases getElem?_concat hv with hv | ⟨rfl, rfl⟩
      · exact h.index hv
      · rfl
    · simpa using hlt
    · -- the old invocations have continued, and the new one is the last
      rcases getElem?_concat hv with hv | ⟨rfl, rfl⟩
      · have hk := (List.getElem?_eq_some_iff.mp hv).1
        exact ⟨fun _ => .inl (by simp; omega), fun _ => h.continued hv⟩
      · simp [h.handlers]
    · simp [h.handlers]
    · exact fun hne => absurd h.handlers hne
    · rcases getElem?_concat hv with hv | ⟨rfl, rfl⟩
      · exact ⟨(h.authorized hv hl).1, fun _ => (h.authorized hv hl).2⟩
      · exact ⟨rfl, fun hc => absurd hc (by simp)⟩
    · intro _ p hp
      simp [h.handlers] at hp
    · intro _ p hp
      simp [h.log] at hp
    · exact fun _ => h.log

theorem getElem?_changed {α : Type} {l : List α} {a v : α} {j : ℕ} (h : (l.set k a)[j]? = some v) :
    j = k ∧ v = a ∨ j ≠ k ∧ l[j]? = some v := by
  rw [List.getElem?_set] at h
  by_cases hk : k = j
  · rw [if_pos hk] at h
    split_ifs at h
    exact .inl ⟨hk.symm, (some.inj h).symm⟩
  · rw [if_neg hk] at h
    exact .inr ⟨Ne.symm hk, h⟩

theorem Layered.change (h : m.Layered host request access) {v v' : Invocation}
    (hk : m.invocations[k]? = some v) (hindex : v'.index = v.index)
    (hcontinued : v'.continued = v.continued)
    (hauth : ∀ {concealDenied : Bool}, host.layers[k]? = some (.authorization concealDenied) →
      v'.context.access = access ∧ (v'.continued = true →
      ∃ d, v'.decision = some d ∧ authorize concealDenied access d = none)) :
    Layered host request access { m with invocations := m.invocations.set k v' } where
  index hv := by
    rcases getElem?_changed hv with ⟨rfl, rfl⟩ | ⟨-, hv⟩
    · exact hindex.trans (h.index hk)
    · exact h.index hv
  bound := by simpa using h.bound
  continued {j w} hv := by
    rcases getElem?_changed hv with ⟨rfl, rfl⟩ | ⟨-, hv⟩
    · rw [hcontinued, length_set]
      exact h.continued hk
    · rw [length_set]
      exact h.continued hv
  once := h.once
  last hne := by
    rw [length_set]
    exact h.last hne
  authorized hv hl := by
    rcases getElem?_changed hv with ⟨rfl, rfl⟩ | ⟨-, hv⟩
    · exact hauth hl
    · exact h.authorized hv hl
  reads := h.reads
  log := h.log
  quiet := h.quiet

/-- Somebody calls `next`: only the last invocation can have something left to continue. -/
theorem Layered.next (h : m.Layered host request access)
    (hacc : ioRequestAccess request.op request.method = some access) {v v' : Invocation}
    (hk : m.invocations[k]? = some v) (hindex : v'.index = v.index)
    (hcontinued : v'.continued = v.continued)
    (hauth : ∀ {concealDenied : Bool}, host.layers[k]? = some (.authorization concealDenied) →
      v'.context.access = access ∧ ∃ d, v'.decision = some d ∧ authorize concealDenied access d =
      none) :
    (next host request access m k v').Layered host request access := by
  rw [Machine.next]
  split_ifs with hc
  · exact h
  · have hlast : ¬(k + 1 < m.invocations.length ∨ m.handlers ≠ []) := by
      rw [← h.continued hk, ← hcontinued]
      exact hc
    have hlt : k < m.invocations.length := (List.getElem?_eq_some_iff.mp hk).1
    have hlen : m.invocations.length = k + 1 := by
      have := not_or.mp hlast
      omega
    have hnone : m.handlers = [] := not_not.mp (not_or.mp hlast).2
    have hready : Ready host access
        { m with invocations := m.invocations.set k { v' with continued := true } } := by
      refine ⟨fun hv => ?_, ?_, fun {j w} hv => ?_, hnone, h.quiet hnone, fun hv hl => ?_⟩
      · rcases getElem?_changed hv with ⟨rfl, rfl⟩ | ⟨-, hv⟩
        · exact hindex.trans (h.index hk)
        · exact h.index hv
      · simpa using h.bound
      · rcases getElem?_changed hv with ⟨rfl, rfl⟩ | ⟨hj, hv⟩
        · rfl
        · have hjlt := (List.getElem?_eq_some_iff.mp hv).1
          exact (h.continued hv).mpr (.inl (by omega))
      · rcases getElem?_changed hv with ⟨rfl, rfl⟩ | ⟨hj, hv⟩
        · exact hauth hl
        · have hjlt := (List.getElem?_eq_some_iff.mp hv).1
          refine ⟨(h.authorized hv hl).1, (h.authorized hv hl).2 ?_⟩
          exact (h.continued hv).mpr (.inl (by omega))
    have hinvoke := hready.invoke hacc
    have hplace : v'.index + 1 = (m.invocations.set k { v' with continued := true }).length := by
      rw [length_set, hlen, hindex, h.index hk]
    exact hplace ▸ hinvoke

variable {t : Tables}

theorem wp_anywhere {served : Option Key} {p : Prog Call Reply Unit (Except Unit Response)}
    (h : p.wp (readEnv served) (fun _ _ _ => True) t) (t' : Tables) :
    p.wp (readEnv served) (fun _ _ _ => True) t' := by
  cases p with
  | done r s => trivial
  | ask c s rest => exact fun t₁ _ => h t₁ trivial

theorem Layered.serve (h : m.Layered host request access) {c : Call}
    {rest : Reply c → Prog Call Reply Unit (Except Unit Response)}
    (hk : m.handlers[k]? = some (.ask c () rest)) (fate : Fate) :
    Layered host request access { m with
      handlers := m.handlers.set k (rest (reply m.tables fate c).1)
      tables := (reply m.tables fate c).2
      log := m.log ++ [(m.tables, (reply m.tables fate c).2)] } := by
  have hmem : Prog.ask c () rest ∈ m.handlers := mem_of_getElem? hk
  have hne : m.handlers ≠ [] := ne_nil_of_mem hmem
  have hset : ∀ p, m.handlers.set k p ≠ [] := by
    intro p hnil
    exact hne (length_eq_zero_iff.mp (by rw [← length_set (i := k) (a := p), hnil]; rfl))
  refine ⟨h.index, h.bound, fun hv => ?_, ?_, fun _ => h.last hne, h.authorized, ?_, ?_, ?_⟩
  · exact (h.continued hv).trans (or_congr Iff.rfl ⟨fun _ => hset _, fun _ => hne⟩)
  · simpa using h.once
  · intro hread p hp t
    rcases mem_or_eq_of_mem_set hp with hp | rfl
    · exact h.reads hread p hp t
    · exact wp_anywhere (h.reads hread _ hmem t m.tables trivial _ _ ⟨fate, rfl⟩).2 t
  · intro hread p hp
    rcases mem_append.mp hp with hp | hp
    · exact h.log hread p hp
    · rw [mem_singleton.mp hp]
      exact (h.reads hread _ hmem m.tables m.tables trivial _ _ ⟨fate, rfl⟩).1
  · exact fun hnil => absurd hnil (hset _)

/-! ## All runs -/

theorem Waiting.inv_answered (h : m.Waiting) (r : Response) :
    Inv host request access { m with phase := .answered r } where
  answered := trivial
  waiting _ := ⟨h.invocations, h.handlers, h.log⟩
  layered := Waiting.layered ⟨h.invocations, h.handlers, h.log⟩

theorem Waiting.inv_gating (h : m.Waiting) {front left : List Gate}
    (hgates : host.gates = front ++ left) (hanswers : m.gateAnswers = front.map fun _ => .refused) :
    (m.gating left).Inv host request access := by
  cases left with
  | nil => exact h.inv_answered _
  | cons gate left =>
    have hw : Waiting { m with phase := .gating (gate :: left) } :=
      ⟨h.invocations, h.handlers, h.log⟩
    exact ⟨⟨front, hgates, hanswers⟩, fun _ => hw, hw.layered⟩

theorem Waiting.inv_routed (h : m.Waiting) (hanswers : m.gateAnswers = []) (usesResolver : Bool) :
    (m.routed host usesResolver).Inv host request access := by
  rw [routed]
  split_ifs with hreserved
  · exact h.inv_answered _
  · exact h.inv_answered _
  · rw [admitMeshRoute]
    cases hgates : snapshotOf host.meshIntegrityGates with
    | none => exact h.inv_answered _
    | some gates =>
      have heq : host.gates = [] ++ gates := by
        rw [Host.gates, hgates]
        rfl
      exact h.inv_gating heq hanswers

theorem Waiting.inv_resolved (h : m.Waiting) (hanswers : m.gateAnswers = []) (r : Resolution) :
    (m.resolved host r).Inv host request access := by
  cases r with
  | null => exact h.inv_answered _
  | invalid => exact h.inv_answered _
  | thrown => exact h.inv_answered _
  | canonical address =>
    rw [resolved]
    split_ifs
    · exact h.inv_answered _
    · have hw : Waiting { m with canonicalAddress := address } :=
        ⟨h.invocations, h.handlers, h.log⟩
      exact hw.inv_routed hanswers true

@[simp] theorem phase_invoke (m : Machine) (index : ℕ) :
    (invoke host request access m index).phase = m.phase := by
  rw [invoke]
  split <;> rfl

@[simp] theorem gateAnswers_invoke (m : Machine) (index : ℕ) :
    (invoke host request access m index).gateAnswers = m.gateAnswers := by
  rw [invoke]
  split <;> rfl

@[simp] theorem phase_next (m : Machine) (k : ℕ) (v : Invocation) :
    (next host request access m k v).phase = m.phase := by
  rw [next]
  split_ifs
  · rfl
  · rw [phase_invoke]

@[simp] theorem gateAnswers_next (m : Machine) (k : ℕ) (v : Invocation) :
    (next host request access m k v).gateAnswers = m.gateAnswers := by
  rw [next]
  split_ifs
  · rfl
  · rw [gateAnswers_invoke]

theorem Waiting.inv_gated (h : m.Waiting)
    (hacc : ioRequestAccess request.op request.method = some access) {front left : List Gate}
    {gate : Gate} (hgates : host.gates = front ++ gate :: left)
    (hanswers : m.gateAnswers = front.map fun _ => .refused) (a : GateAnswer) :
    (gated host request access m left a).Inv host request access := by
  have hw : Waiting { m with gateAnswers := m.gateAnswers ++ [a] } :=
    ⟨h.invocations, h.handlers, h.log⟩
  cases a with
  | accepted =>
    rw [gated, runMeshMiddleware]
    cases snapshotOf host.meshMiddleware with
    | none => exact hw.inv_answered _
    | some layers =>
      have hadmitted : Waiting
          { m with gateAnswers := m.gateAnswers ++ [.accepted], phase := .admitted } :=
        ⟨h.invocations, h.handlers, h.log⟩
      have hready : Ready host access _ := hadmitted.ready
      have hlayered := hready.invoke hacc
      have hzero : m.invocations.length = 0 := by rw [h.invocations]; rfl
      rw [hzero] at hlayered
      refine ⟨?_, fun hne => absurd (phase_invoke _ _) hne, hlayered⟩
      rw [phase_invoke]
      refine ⟨front, gate, left, hgates, ?_⟩
      rw [gateAnswers_invoke, hanswers]
  | refused =>
    have hfront : host.gates = (front ++ [gate]) ++ left := by
      rw [hgates, append_assoc, singleton_append]
    refine hw.inv_gating hfront ?_
    rw [hanswers, map_append]
    rfl
  | other => exact hw.inv_answered _
  | thrown => exact hw.inv_answered _

theorem Inv.of_layered (h : m.Inv host request access) (hphase : m'.phase = m.phase)
    (hanswers : m'.gateAnswers = m.gateAnswers) (hbusy : ¬m.Waiting)
    (hlayered : m'.Layered host request access) : m'.Inv host request access where
  answered := by
    have hans := h.answered
    rw [hphase]
    cases hp : m.phase with
    | resolving => exact absurd (h.waiting (by rw [hp]; nofun)) hbusy
    | gating left => exact absurd (h.waiting (by rw [hp]; nofun)) hbusy
    | answered r => trivial
    | admitted =>
      rw [hp] at hans
      change ∃ front gate left, _ ∧ m'.gateAnswers = _
      rw [hanswers]
      exact hans
  waiting hne := absurd (h.waiting (hphase ▸ hne)) hbusy
  layered := hlayered

theorem not_waiting {v : Invocation} (hk : m.invocations[k]? = some v) : ¬m.Waiting := by
  intro hw
  rw [hw.invocations] at hk
  exact absurd hk (by simp)

theorem inv_step (hacc : ioRequestAccess request.op request.method = some access)
    (h : m.Inv host request access) {e : Event} (hstep : step host request m e = some m') :
    m'.Inv host request access := by
  rw [step, hacc] at hstep
  dsimp only at hstep
  cases e with
  | resolve r =>
    dsimp only at hstep
    split at hstep
    · rename_i hp
      obtain rfl := some.inj hstep
      have hans := h.answered
      rw [hp] at hans
      exact (h.waiting (by rw [hp]; nofun)).inv_resolved hans r
    · exact absurd hstep (by simp)
  | gate a =>
    dsimp only at hstep
    split at hstep
    · rename_i g left hp
      obtain rfl := some.inj hstep
      have hans := h.answered
      rw [hp] at hans
      obtain ⟨front, hgates, hanswers⟩ := hans
      exact (h.waiting (by rw [hp]; nofun)).inv_gated hacc hgates hanswers a
    · exact absurd hstep (by simp)
  | alter k context =>
    dsimp only at hstep
    split at hstep
    · rename_i v hk
      split_ifs at hstep with hcustom
      obtain rfl := some.inj hstep
      refine h.of_layered rfl rfl (not_waiting hk) (h.layered.change hk rfl rfl fun hl => ?_)
      rw [h.layered.index hk, hl] at hcustom
      exact absurd hcustom (by simp)
    · exact absurd hstep (by simp)
  | next k =>
    dsimp only at hstep
    split at hstep
    · rename_i v hk
      split_ifs at hstep with hcustom
      obtain rfl := some.inj hstep
      refine h.of_layered (phase_next m k v) (gateAnswers_next m k v) (not_waiting hk)
        (h.layered.next hacc hk rfl rfl fun hl => ?_)
      rw [h.layered.index hk, hl] at hcustom
      exact absurd hcustom (by simp)
    · exact absurd hstep (by simp)
  | decide k d =>
    dsimp only at hstep
    split at hstep
    · rename_i v hk
      split at hstep
      · rename_i concealDenied hlayer
        split_ifs at hstep with hnone
        obtain rfl := some.inj hstep
        rw [h.layered.index hk] at hlayer
        have haccess := (h.layered.authorized hk hlayer).1
        rw [decided]
        cases hauth : authorize concealDenied v.context.access d with
        | none =>
          refine h.of_layered (phase_next _ _ _) (gateAnswers_next _ _ _) (not_waiting hk)
            (h.layered.next hacc hk rfl rfl fun hl => ⟨haccess, d, rfl, ?_⟩)
          obtain rfl : concealDenied = _ := by simpa using hlayer.symm.trans hl
          rw [← haccess]
          exact hauth
        | some r =>
          refine h.of_layered rfl rfl (not_waiting hk) (h.layered.change hk rfl rfl fun hl =>
            ⟨haccess, fun hc => ?_⟩)
          -- a layer that has continued was answered before
          obtain ⟨d', hd', -⟩ := (h.layered.authorized hk hl).2 hc
          rw [hnone] at hd'
          exact absurd hd' (by simp)
      · exact absurd hstep (by simp)
    · exact absurd hstep (by simp)
  | settle k o =>
    dsimp only at hstep
    split at hstep
    · rename_i v hk
      split_ifs at hstep with hcustom
      obtain rfl := some.inj hstep
      refine h.of_layered rfl rfl (not_waiting hk) (h.layered.change hk rfl rfl fun hl => ?_)
      rw [h.layered.index hk, hl] at hcustom
      exact absurd hcustom.1 (by simp)
    · exact absurd hstep (by simp)
  | serve k fate =>
    dsimp only at hstep
    split at hstep
    · rename_i c s rest hk
      obtain rfl := some.inj hstep
      refine h.of_layered rfl rfl (fun hw => ?_) (h.layered.serve hk fate)
      rw [hw.handlers] at hk
      exact absurd hk (by simp)
    · exact absurd hstep (by simp)
  | elsewhere t =>
    obtain rfl := some.inj hstep
    have hl := h.layered
    refine ⟨h.answered, fun hne => ?_, ⟨hl.index, hl.bound, hl.continued, hl.once, hl.last,
      hl.authorized, hl.reads, hl.log, hl.quiet⟩⟩
    have hw := h.waiting hne
    exact ⟨hw.invocations, hw.handlers, hw.log⟩

theorem waiting_fresh (t : Tables) : (fresh request t).Waiting := ⟨rfl, rfl, rfl⟩

theorem inv_start (hacc : ioRequestAccess request.op request.method = some access) (t : Tables) :
    (start host request t).Inv host request access := by
  rw [start, hacc]
  dsimp only
  cases host.resolveMeshRoute with
  | absent => exact (waiting_fresh t).inv_routed rfl false
  | invalid => exact (waiting_fresh t).inv_answered _
  | present => exact ⟨rfl, fun _ => waiting_fresh t, (waiting_fresh t).layered⟩

/-- The states that a request can come to. -/
abbrev Reachable (host : Host) (request : IoRequest) (t : Tables) : Machine → Prop :=
  Reached (start host request t) (step host request) fun _ _ => True

theorem inv_of_reached (h : Reachable host request t m)
    (hacc : ioRequestAccess request.op request.method = some access) : m.Inv host request access :=
  h.invariant (inv_start hacc t) fun _ _ _ hinv hstep _ => inv_step hacc hinv hstep

theorem waiting_of_no_access (h : Reachable host request t m)
    (hacc : ioRequestAccess request.op request.method = none) : m.Waiting := by
  refine h.invariant ?_ fun m e m' _ hstep _ => ?_
  · rw [start, hacc]
    exact ⟨rfl, rfl, rfl⟩
  · rw [step, hacc] at hstep
    exact absurd hstep (by simp)

/-! ## What a request can do -/

/-- Some gate returned `true` after all before it returned `false`. -/
def Admitted (host : Host) (m : Machine) : Prop :=
  ∃ front gate left, host.gates = front ++ gate :: left ∧
    m.gateAnswers = (front.map fun _ => .refused) ++ [.accepted]

/-- Every layer has called `next`. -/
def AllContinued (host : Host) (m : Machine) : Prop :=
  ∀ i < host.layers.length, ∃ v ∈ m.invocations, v.index = i ∧ v.continued = true

/-- The authorizer of a layer has answered neither `none` nor `full`. -/
def Unsanctioned (m : Machine) (i : ℕ) : Prop :=
  ∀ v ∈ m.invocations, v.index = i → v.decision ≠ some .none ∧ v.decision ≠ some .full

theorem Inv.admitted (h : m.Inv host request access) (hne : m.handlers ≠ []) : m.Admitted host := by
  have hans := h.answered
  have hphase : m.phase = .admitted := by
    by_contra hp
    exact hne (h.waiting hp).handlers
  rw [hphase] at hans
  exact hans

theorem Layered.allContinued (h : m.Layered host request access) (hne : m.handlers ≠ []) :
    m.AllContinued host := by
  intro i hi
  rw [← h.last hne] at hi
  have hv := List.getElem?_eq_getElem hi
  exact ⟨_, getElem_mem hi, h.index hv, (h.continued hv).mpr (.inr hne)⟩

/-- An authorization that lets a request through says `none`, `full`, or `readonly` to a read. -/
theorem authorize_eq_none {concealDenied : Bool} {d : Decision}
    (h : authorize concealDenied access d = none) :
    d = .none ∨ d = .full ∨ d = .readonly ∧ access = .read := by
  cases d with
  | none => exact .inl rfl
  | full => exact .inr (.inl rfl)
  | readonly =>
    cases access with
    | read => exact .inr (.inr ⟨rfl, rfl⟩)
    | write => exact absurd h (by simp [authorize])
  | deny => exact absurd h (by simp [authorize])
  | other => exact absurd h (by simp [authorize])
  | thrown => exact absurd h (by simp [authorize])

/-- Behind a layer whose authorizer did not say `none` or `full`, a handler is started only after it
said `readonly` to a read. -/
theorem Layered.unsanctioned (h : m.Layered host request access) {i : ℕ} {concealDenied : Bool}
    (hlayer : host.layers[i]? = some (.authorization concealDenied)) (hun : m.Unsanctioned i)
    (hne : m.handlers ≠ []) :
    (∃ v ∈ m.invocations, v.index = i ∧ v.decision = some .readonly) ∧ access = .read := by
  have hi : i < m.invocations.length := by
    rw [h.last hne]
    exact (List.getElem?_eq_some_iff.mp hlayer).1
  have hv := List.getElem?_eq_getElem hi
  have hmem := getElem_mem hi
  obtain ⟨d, hd, hauth⟩ := (h.authorized hv hlayer).2 ((h.continued hv).mpr (.inr hne))
  obtain ⟨hnone, hfull⟩ := hun _ hmem (h.index hv)
  rcases authorize_eq_none hauth with rfl | rfl | ⟨rfl, hread⟩
  · exact absurd hd hnone
  · exact absurd hd hfull
  · exact ⟨⟨_, hmem, h.index hv, hd⟩, hread⟩

end Machine

open Machine

/-- **What is not admitted or not authorized changes nothing.**  In every run, the handler of a
request is started at most once, after a gate has admitted the request and every layer has called
`next`; without it the request does not touch the tables.  If the authorizer of some layer did not
say `none` or `full`, then the handler is started only after it said `readonly` to a read, and no
question of the handler changes a file or folder of any mesh, or a stored file beyond the use of
the one it serves. -/
theorem handlers_guarded (host : Host) (request : IoRequest) (t : Tables) {m : Machine}
    (h : Reachable host request t m) :
    m.handlers.length ≤ 1 ∧ (m.handlers ≠ [] → m.Admitted host ∧ m.AllContinued host) ∧
      (m.handlers = [] → m.log = []) ∧
      ∀ i concealDenied, host.layers[i]? = some (.authorization concealDenied) → m.Unsanctioned i →
        (m.handlers ≠ [] → (∃ v ∈ m.invocations, v.index = i ∧ v.decision = some .readonly) ∧
          ioRequestAccess request.op request.method = some .read) ∧
        ∀ p ∈ m.log, ReadOnly (servedKey m.canonicalAddress request) p.1 p.2 := by
  cases hacc : ioRequestAccess request.op request.method with
  | none =>
    have hw := waiting_of_no_access h hacc
    refine ⟨by simp [hw.handlers], fun hne => absurd hw.handlers hne, fun _ => hw.log, ?_⟩
    intro i c _ _
    refine ⟨fun hne => absurd hw.handlers hne, fun p hp => ?_⟩
    rw [hw.log] at hp
    exact absurd hp (by simp)
  | some access =>
    have hinv := inv_of_reached h hacc
    have hl := hinv.layered
    refine ⟨hl.once, fun hne => ⟨hinv.admitted hne, hl.allContinued hne⟩, hl.quiet,
      fun i c hlayer hun => ⟨fun hne => ?_, fun p hp => ?_⟩⟩
    · obtain ⟨hsaid, rfl⟩ := hl.unsanctioned hlayer hun hne
      exact ⟨hsaid, rfl⟩
    · -- a question was asked, so a handler was started
      have hne : m.handlers ≠ [] := fun hnil => by
        rw [hl.quiet hnil] at hp
        exact absurd hp (by simp)
      exact hl.log (hl.unsanctioned hlayer hun hne).2 p hp

/-! ## A read that writes -/

/-- A host with one gate and an authorization. -/
def sampleHost : Host where
  resolveMeshRoute := .absent
  meshIntegrityGates := some [some 0]
  meshMiddleware := some [some (.authorization false)]
  runtime := ⟨sampleReading, ⟨100, 100, 100, 100⟩, ⟨100, 100⟩, true, .absent, fun _ _ _ => []⟩

/-- `GET` of the stored file `/f` of the mesh `m`. -/
def sampleGet : IoRequest := ⟨['m'], .storedFile, .get, ['/', 'f'], none, [], []⟩

/-- The row of the file, before it was ever used. -/
def sampleRow : StoredFileRow := ⟨['b'], 1, none, ['d'], 1, 1, none, 0, ['e']⟩

/-- The tables with that row alone. -/
def sampleTables : Tables := ⟨∅, ∅, ∅, Record.set ∅ (['m'], ['/', 'f']) sampleRow⟩

/-- The database and the store answer at time five. -/
def sampleFate : Fate :=
  ⟨false, false, none, none, some ⟨[7], 1, ['e']⟩, ⟨true, none, 200⟩, 5, ['e']⟩

/-- The gate admits, the authorizer says `readonly`, and the handler gets four answers. -/
def sampleEvents : List Event :=
  [.gate .accepted, .decide 0 .readonly, .serve 0 sampleFate, .serve 0 sampleFate,
    .serve 0 sampleFate, .serve 0 sampleFate]

/-- What the log of a run has of the file. -/
def usesIn (m : Machine) : List (Option ℕ × Option ℕ) :=
  m.log.map fun p => ((p.1.storedFiles.get (['m'], ['/', 'f'])).map StoredFileRow.useCount,
    (p.2.storedFiles.get (['m'], ['/', 'f'])).map StoredFileRow.useCount)

theorem sample_run : ∃ m, Reachable sampleHost sampleGet sampleTables m ∧
    usesIn m = [(some 0, some 0), (some 0, some 0), (some 0, some 0), (some 0, some 1)] ∧
    (m.invocations.map fun v => (v.index, v.decision)) = [(0, some .readonly)] := by
  have hsome : (run (step sampleHost sampleGet) (start sampleHost sampleGet sampleTables)
      sampleEvents).isSome = true := by decide +kernel
  have huses : (run (step sampleHost sampleGet) (start sampleHost sampleGet sampleTables)
      sampleEvents).map usesIn =
        some [(some 0, some 0), (some 0, some 0), (some 0, some 0), (some 0, some 1)] := by
    decide +kernel
  have hdecision : (run (step sampleHost sampleGet) (start sampleHost sampleGet sampleTables)
      sampleEvents).map (fun m => m.invocations.map fun v => (v.index, v.decision)) =
        some [(0, some .readonly)] := by decide +kernel
  obtain ⟨m, hm⟩ := isSome_iff_exists.mp hsome
  rw [hm] at huses hdecision
  refine ⟨m, ?_, some.inj huses, some.inj hdecision⟩
  exact Reached.start.run sampleEvents (allOk_of_forall (fun _ _ _ => trivial) _) hm

theorem unsanctioned_of_readonly {m : Machine}
    (h : (m.invocations.map fun v => (v.index, v.decision)) = [(0, some .readonly)]) :
    m.Unsanctioned 0 := by
  intro v hv _
  have hmem : (v.index, v.decision) ∈ [(0, some Decision.readonly)] :=
    h ▸ mem_map_of_mem (f := fun v => (v.index, v.decision)) hv
  obtain ⟨-, hd⟩ := Prod.mk.inj (mem_singleton.mp hmem)
  rw [hd]
  exact ⟨by simp, by simp⟩

/-- The use of the file is counted, and nothing else changes. -/
theorem served_read_is_counted : ∃ m, Reachable sampleHost sampleGet sampleTables m ∧
    m.handlers.length ≤ 1 ∧ m.log ≠ [] ∧
    ∀ p ∈ m.log, ReadOnly (servedKey m.canonicalAddress sampleGet) p.1 p.2 := by
  obtain ⟨m, hreach, huses, hdecision⟩ := sample_run
  obtain ⟨honce, -, -, hreads⟩ := handlers_guarded sampleHost sampleGet sampleTables hreach
  refine ⟨m, hreach, honce, ?_, fun p hp => ?_⟩
  · intro hnil
    rw [usesIn, hnil] at huses
    exact absurd huses (by simp)
  · exact (hreads 0 false rfl (unsanctioned_of_readonly hdecision)).2 p hp

/-- With an authorizer that says `readonly`, the record of a stored file can change. -/
theorem readonly_changes_a_record :
    ¬∀ (host : Host) (request : IoRequest) (t : Tables) (m : Machine),
      Reachable host request t m →
      ∀ i concealDenied, host.layers[i]? = some (.authorization concealDenied) → m.Unsanctioned i →
        ∀ p ∈ m.log, p.2.files = p.1.files ∧ p.2.folders = p.1.folders ∧
          p.2.storedFiles = p.1.storedFiles := by
  intro hall
  obtain ⟨m, hreach, huses, hdecision⟩ := sample_run
  have hsame := hall sampleHost sampleGet sampleTables m hreach 0 false rfl
    (unsanctioned_of_readonly hdecision)
  have hmem : (some 0, some 1) ∈ usesIn m := by
    rw [huses]
    simp
  obtain ⟨p, hp, heq⟩ := mem_map.mp hmem
  rw [(hsame p hp).2.2] at heq
  obtain ⟨hzero, hone⟩ := Prod.mk.inj heq
  exact absurd (hzero.symm.trans hone) (by simp)

end Interocitor.Worker.Io
