import Interocitor.Foundation.GuardedRuns
import Mathlib.Data.List.Basic

/-!
# `sync-engine.ts`: what goes on after `disconnect()`

An engine that is connected has a number of things going on: a poll that arms itself again, a relay
subscription with a cooldown, timers for flushes, batches and compactions, and whatever was started
and has not ended.  `disconnect()` stops what it knows of: it halts the poll, unsubscribes, clears
the timers, flushes once more and drops the flag `connected`.  What it does not know of goes on at
its next await, and has to notice by itself.

The poll notices by a token that every stop replaces, and by the flag that keeps it halted until the
next `connect()`.  The relay and the compactions look at `connected`.  But a `connect()` that is
under way looks at nothing; neither does the check of the retention once it has listed the changes,
nor the pull of a reader, which turns into a rehydration when it finds a new epoch; and the flush of
`disconnect()` arms the flush timer when it promotes the pending batch, and leaves it armed when the
flush fails before it gets to clearing it.

Time is left out: a timer that is armed may fire at any moment, and an await that is under way may
end at any moment.  The lock of the synchronisation state is left out too.  One `disconnect()` is
under way at a time.

* `teardown_is_final`: in a run in which nothing of that kind is under way when it matters, the
  engine is at rest from the end of `disconnect()` to the next call.
* `connect_outlives_disconnect`: runs in which it is not.
-/

namespace Interocitor

open GuardedRuns Option

/-! ## The poll -/

/-- The poll: whether it is halted, the token its timer was armed with, the token that counts, the
tokens of its pulls under way, and how many tokens there were. -/
structure Poll where
  halted : Bool
  timer : Option ℕ
  generation : ℕ
  pulls : List ℕ
  tokens : ℕ
  deriving DecidableEq

namespace Poll

/-- `stopPolling`. -/
def stopPolling (p : Poll) : Poll :=
  { p with timer := none, generation := p.tokens, tokens := p.tokens + 1 }

/-- `haltPolling`. -/
def haltPolling (p : Poll) : Poll := { p.stopPolling with halted := true }

/-- `startPolling`. -/
def startPolling (p : Poll) : Poll :=
  if p.halted then p
  else
    { p.stopPolling with
      timer := some (p.tokens + 1)
      generation := p.tokens + 1
      tokens := p.tokens + 2 }

/-- The timer fires: a pull is started under its token. -/
def fires (p : Poll) (g : ℕ) : Poll := { p with timer := none, pulls := g :: p.pulls }

/-- A pull of the poll ends, and schedules the next one if its token still counts. -/
def pullEnds (p : Poll) (g : ℕ) : Poll :=
  { p with
    pulls := p.pulls.erase g
    timer := if p.generation = g then some g else p.timer }

/-- Tokens are told apart. -/
structure Fresh (p : Poll) : Prop where
  generation : p.generation < p.tokens
  timer : ∀ g, p.timer = some g → g < p.tokens
  pulls : ∀ g ∈ p.pulls, g < p.tokens

/-- The poll is over: it is halted, and nothing that is under way can arm it. -/
structure Over (p : Poll) : Prop where
  halted : p.halted = true
  timer : p.timer = none
  pulls : ∀ g ∈ p.pulls, p.generation ≠ g

variable {p : Poll}

theorem Fresh.stopPolling (h : p.Fresh) : p.stopPolling.Fresh where
  generation := Nat.lt_succ_self _
  timer g hg := absurd hg (by simp [Poll.stopPolling])
  pulls g hg := Nat.lt_succ_of_lt (h.pulls g hg)

theorem Fresh.haltPolling (h : p.Fresh) : p.haltPolling.Fresh :=
  ⟨h.stopPolling.generation, h.stopPolling.timer, h.stopPolling.pulls⟩

theorem Fresh.over_haltPolling (h : p.Fresh) : p.haltPolling.Over where
  halted := rfl
  timer := rfl
  pulls g hg := Nat.ne_of_gt (h.pulls g hg)

theorem Fresh.startPolling (h : p.Fresh) : p.startPolling.Fresh := by
  unfold Poll.startPolling
  split_ifs
  · exact h
  · refine ⟨Nat.lt_succ_self _, fun g hg => ?_, fun g hg => ?_⟩
    · obtain rfl := some.inj hg
      exact Nat.lt_succ_self _
    · have hlt := h.pulls g hg
      show g < p.tokens + 2
      omega

theorem Over.startPolling (h : p.Over) : p.startPolling = p := by
  rw [Poll.startPolling, if_pos h.halted]

theorem Fresh.fires (h : p.Fresh) {g : ℕ} (hg : p.timer = some g) : (p.fires g).Fresh where
  generation := h.generation
  timer j hj := absurd hj (by simp [Poll.fires])
  pulls j hj := by
    rcases List.mem_cons.mp hj with rfl | hj
    · exact h.timer j hg
    · exact h.pulls j hj

theorem Fresh.pullEnds (h : p.Fresh) {g : ℕ} (hg : g ∈ p.pulls) : (p.pullEnds g).Fresh where
  generation := h.generation
  timer j hj := by
    have hj : (if p.generation = g then some g else p.timer) = some j := hj
    split_ifs at hj
    · obtain rfl := some.inj hj
      exact h.pulls _ hg
    · exact h.timer j hj
  pulls j hj := h.pulls j (List.mem_of_mem_erase hj)

theorem Over.pullEnds (h : p.Over) {g : ℕ} (hg : g ∈ p.pulls) : (p.pullEnds g).Over where
  halted := h.halted
  timer := by
    show (if p.generation = g then some g else p.timer) = none
    rw [if_neg (h.pulls g hg)]
    exact h.timer
  pulls j hj := h.pulls j (List.mem_of_mem_erase hj)

end Poll

/-! ## What an engine has going on -/

/-- The relay: the subscription, the cooldown, the pull that counts, the replay that waits for it,
and how many of its pulls are under way. -/
structure Relay where
  subscribed : Bool
  cooldownTimer : Bool
  cooldownQueued : Bool
  pullPromise : Bool
  pullQueued : Bool
  pulls : ℕ
  deriving DecidableEq

/-- `stopRemoteInvalidations`.  Pulls under way are not stopped. -/
def Relay.stop (r : Relay) : Relay := ⟨false, false, false, false, false, r.pulls⟩

/-- The compactions: the timers of the delayed one with the version they were armed in, the checks
under way, the retention timer, the retention checks under way, and how many compactions and
rehydrations are under way. -/
structure Compactions where
  checkTimer : Option ℕ
  runTimer : Option ℕ
  version : ℕ
  checks : List ℕ
  retentionTimer : Bool
  retentionChecks : ℕ
  running : ℕ
  deriving DecidableEq

/-- `clearCompactTimers`. -/
def Compactions.clearTimers (c : Compactions) : Compactions :=
  { c with checkTimer := none, runTimer := none, retentionTimer := false, version := c.version + 1 }

/-- Where a `connect()` is suspended. -/
inductive ConnectStage where
  -- `ensureReady`: the poll is still halted
  | entering
  -- `resolveEncryption`
  | resolving
  | authenticating
  | fastPath
  -- folders, manifest, credentials, policies, quarantine, device metadata, epoch
  | preparing
  -- a pull, a rehydration or the reset of an expired client
  | syncing
  -- `rebuildOutboxFromLocalState`
  | republishing
  | flushing
  -- `markSuccessfulRemoteSync`
  | marking
  deriving DecidableEq

/-- What a `connect()` does when it is resumed. -/
inductive ConnectTurn where
  -- go on to the next await
  | next
  -- skip an await that is not needed
  | skip
  -- in `preparing`: the quarantine promotes the pending batch
  | quarantine (immediate : Bool)
  -- in `preparing`: start a rehydration and not a pull
  | rehydrate
  -- poll, subscribe if the adapter can, and be connected
  | finish (subscribes : Bool)
  -- return or throw: connected already, joined another call, timed out, failed
  | leave
  deriving DecidableEq

/-- What the engine was made with. -/
structure ActivityConfig where
  autoCompact : Bool
  reader : Bool
  -- `batchWindowMs > 0`
  batchWindow : Bool

/-- An engine.  `managed` is what its manifest says, `promotions` are the sections that are going to
promote the pending batch, `pulls` counts the pulls under way, whoever has started them, and `swaps`
are the calls of `setRemoteStorage` under way, each with the `connected` it has found.  `started`
counts the pulls, flushes and compactions that were started since the last `disconnect()` has
resolved. -/
structure Activity where
  connected : Bool
  managed : Bool
  poll : Poll
  relay : Relay
  compactions : Compactions
  flushTimer : Bool
  batchTimer : Bool
  pendingBatch : Bool
  promotions : ℕ
  flushes : ℕ
  pulls : ℕ
  connects : List ConnectStage
  swaps : List Bool
  disconnecting : Bool
  resolved : Bool
  started : ℕ
  deriving DecidableEq

/-- What can happen: calls of the application, awaits that end, callbacks of the relay, and
timers. -/
inductive ActivityEvent where
  | callConnect
  -- once `ensureReady` is through; `flushes`: it is not poisoned
  | callDisconnect (flushes : Bool)
  -- a `put` or `delete`, from its call to its end
  | callWrite (immediate : Bool)
  | callFlush
  | callPull
  -- `compact()` or `rehydrate()`
  | callCompact
  -- with another adapter; `pulls`: it is not poisoned, and pulls from the old one
  | callSetRemoteStorage (pulls : Bool)
  -- a `setRemoteStorage` is through with that pull; `attaches`: there is a new adapter
  | storageSwaps (i : ℕ) (attaches : Bool)
  | connectMoves (i : ℕ) (turn : ConnectTurn)
  | disconnectResolves
  -- `immediate`: the flush threshold is reached
  | promotes (immediate : Bool)
  -- a flush gets to `clearScheduledFlush`
  | flushClears
  -- `compacts`: it was large enough, and the sample was drawn
  | flushEnds (compacts : Bool)
  | pullEnds
  -- a reader finds a new epoch
  | pullRehydrates
  | pollPullEnds (g : ℕ)
  | relayPullEnds
  | checkEnds (version : ℕ) (many : Bool)
  -- `compacts`: there is a change that is too old
  | retentionCheckEnds (compacts : Bool)
  -- a compaction or rehydration comes to its flush or its pull
  | compactionStarts (pulls : Bool)
  | compactionEnds
  | manifestLoaded (managed : Bool)
  | denied
  | poisoned
  -- `change`: it is about a change file
  | relayMessage (change : Bool)
  -- `onReady`, `onError`, `onClose`
  | relayStatus
  | pollFires
  | cooldownFires
  | batchFires
  | flushFires
  | checkFires
  -- `alone`: no other compaction is under way
  | runFires (alone : Bool)
  -- `early`: the deadline has moved
  | retentionFires (early : Bool)
  deriving DecidableEq

namespace Activity

variable (config : ActivityConfig)

/-- A pull, flush or compaction is started. -/
def starts (s : Activity) : Activity := { s with started := s.started + 1 }

/-- `scheduleRetentionCompactionCheck`. -/
def scheduleRetentionCheck (s : Activity) : Activity :=
  if s.connected && s.managed && !config.reader then
    { s with compactions := { s.compactions with retentionTimer := true } }
  else s

/-- `flushQueued`: a flush is started. -/
def flushQueued (s : Activity) : Activity := { s.starts with flushes := s.flushes + 1 }

/-- `pull`: a pull is started. -/
def pull (s : Activity) : Activity := { s.starts with pulls := s.pulls + 1 }

/-- A compaction or a rehydration is started. -/
def compact (s : Activity) : Activity :=
  { s.starts with compactions := { s.compactions with running := s.compactions.running + 1 } }

/-- `scheduleFlush`. -/
def scheduleFlush (immediate : Bool) (s : Activity) : Activity :=
  let armed : Activity :=
    if config.autoCompact && s.managed then
      { s with compactions := { s.compactions with
        checkTimer := some (s.compactions.version + 1)
        version := s.compactions.version + 1 } }
    else s
  if immediate then armed.flushQueued else { armed with flushTimer := true }

/-- `flushPendingBatch`. -/
def flushPendingBatch (immediate : Bool) (s : Activity) : Activity :=
  if s.pendingBatch then
    scheduleFlush config immediate { s with batchTimer := false, pendingBatch := false }
  else { s with batchTimer := false }

/-- `startPolling`. -/
def startPolling (s : Activity) : Activity := { s with poll := s.poll.startPolling }

/-- `startRemoteInvalidations`. -/
def startRemoteInvalidations (subscribes : Bool) (s : Activity) : Activity :=
  let stopped : Activity := { s with relay := s.relay.stop }
  if subscribes then { stopped with relay := { stopped.relay with subscribed := true } }
  else stopped.startPolling

/-- The end of `connect()`. -/
def goLive (subscribes : Bool) (s : Activity) : Activity :=
  { s.startPolling.startRemoteInvalidations subscribes with connected := true }

/-- `scheduleInvalidationPull`. -/
def scheduleInvalidationPull (s : Activity) : Activity :=
  if !s.connected then s
  else if s.relay.cooldownTimer then { s with relay := { s.relay with cooldownQueued := true } }
  else { s with relay := { s.relay with cooldownQueued := false, cooldownTimer := true } }

/-- `runInvalidationPull`. -/
def runInvalidationPull (s : Activity) : Activity :=
  if !s.connected then s
  else if s.relay.pullPromise then { s with relay := { s.relay with pullQueued := true } }
  else { s.pull with relay := { s.relay with pullPromise := true, pulls := s.relay.pulls + 1 } }

/-- What a negative decision about access does, in `handleRemoteAccessError`. -/
def deny (s : Activity) : Activity :=
  { s with
    poll := s.poll.haltPolling
    relay := s.relay.stop
    flushTimer := false
    compactions := s.compactions.clearTimers
    connected := false }

/-- `poisonRemote`. -/
def poison (s : Activity) : Activity :=
  { s with poll := s.poll.haltPolling, flushTimer := false, connected := false }

/-- `setRemoteStorage`, after its pull and up to `connect`. -/
def detach (s : Activity) : Activity :=
  { s with
    poll := s.poll.haltPolling
    relay := s.relay.stop
    flushTimer := false
    connected := false
    managed := false }

/-- `disconnect`, up to its flush. -/
def beginDisconnect (s : Activity) (flushes : Bool) : Activity :=
  let stopped : Activity :=
    { s with
      poll := s.poll.haltPolling
      relay := s.relay.stop
      flushTimer := false
      compactions := s.compactions.clearTimers
      batchTimer := false
      disconnecting := true }
  if flushes then { stopped.flushQueued with promotions := s.promotions + 1 } else stopped

/-- The application calls a method. -/
def called (s : Activity) : Activity := { s with resolved := false }

/-- A `connect()` at a stage takes a turn: the stage it is at then, if it is not over, and what it
has done. -/
def connectTurn (s : Activity) :
    ConnectStage → ConnectTurn → Option (Option ConnectStage × Activity)
  | .entering, .next => some (some .resolving, { s with poll := { s.poll with halted := false } })
  | .resolving, .next => if s.connected then some (none, s) else some (some .authenticating, s)
  | .authenticating, .next => some (some .fastPath, s)
  | .fastPath, .next => some (some .preparing, s)
  | .fastPath, .skip => some (some .preparing, s)
  | .fastPath, .finish subscribes => some (some .marking, s.goLive subscribes)
  | .preparing, .quarantine immediate =>
    some (some .preparing, s.flushPendingBatch config immediate)
  | .preparing, .next => some (some .syncing, s.pull)
  | .preparing, .rehydrate => some (some .syncing, s.compact)
  | .syncing, .next => some (some .republishing, s)
  | .syncing, .skip => some (some .flushing, { s.flushQueued with promotions := s.promotions + 1 })
  | .syncing, .finish subscribes => some (some .marking, s.goLive subscribes)
  | .republishing, .next =>
    some (some .flushing, { s.flushQueued with promotions := s.promotions + 1 })
  | .flushing, .finish subscribes => some (some .marking, s.goLive subscribes)
  | .marking, .next => some (none, s.scheduleRetentionCheck config)
  | _, .leave => some (none, s)
  | _, _ => none

/-- One step, if the event can happen. -/
def step (s : Activity) : ActivityEvent → Option Activity
  | .callConnect => some { s.called with connects := s.connects ++ [.entering] }
  | .callDisconnect flushes =>
    if s.disconnecting then none else some (s.called.beginDisconnect (flushes && !config.reader))
  | .callWrite immediate =>
    let written : Activity := { s.called with pendingBatch := true }
    some (if config.batchWindow then { written with batchTimer := true }
      else written.flushPendingBatch config immediate)
  | .callFlush => some { s.called.flushQueued with promotions := s.promotions + 1 }
  | .callPull => some s.called.pull
  | .callCompact => some s.called.compact
  | .callSetRemoteStorage pulls =>
    let entered : Activity := if pulls && s.connected then s.called.pull else s.called
    some { entered with swaps := s.swaps ++ [s.connected] }
  | .storageSwaps i attaches =>
    s.swaps[i]?.map fun wasConnected =>
      { s.detach with
        swaps := s.swaps.eraseIdx i
        connects := if wasConnected && attaches then s.connects ++ [.entering] else s.connects }
  | .connectMoves i turn =>
    s.connects[i]?.bind fun stage => (s.connectTurn config stage turn).map fun r =>
      { r.2 with connects := match r.1 with
        | some stage => s.connects.set i stage
        | none => s.connects.eraseIdx i }
  | .disconnectResolves =>
    if s.disconnecting then
      some { s with connected := false, disconnecting := false, resolved := true, started := 0 }
    else none
  | .promotes immediate =>
    if s.promotions = 0 then none
    else some (flushPendingBatch config immediate { s with promotions := s.promotions - 1 })
  | .flushClears => if s.flushes = 0 then none else some { s with flushTimer := false }
  | .flushEnds compacts =>
    if s.flushes = 0 then none
    else
      let ended : Activity := scheduleRetentionCheck config { s with flushes := s.flushes - 1 }
      some (if compacts && config.autoCompact && s.connected && s.managed then ended.compact
        else ended)
  | .pullEnds =>
    if s.pulls = 0 then none
    else some (scheduleRetentionCheck config { s with pulls := s.pulls - 1 })
  | .pullRehydrates =>
    -- `connected` is not looked at
    if config.reader = true ∧ s.pulls ≠ 0 then some { s.compact with pulls := s.pulls - 1 }
    else none
  | .pollPullEnds g =>
    if g ∈ s.poll.pulls then some { s with poll := s.poll.pullEnds g } else none
  | .relayPullEnds =>
    if s.relay.pulls = 0 then none
    else
      let ended : Activity :=
        { s with relay := { s.relay with pullPromise := false, pulls := s.relay.pulls - 1 } }
      some (if s.relay.pullQueued && s.connected then
        { ended with relay := { ended.relay with pullQueued := false } }.scheduleInvalidationPull
        else ended)
  | .checkEnds version many =>
    if version ∈ s.compactions.checks then
      some { s with compactions := { s.compactions with
        checks := s.compactions.checks.erase version
        runTimer := if many then some version else s.compactions.runTimer } }
    else none
  | .retentionCheckEnds compacts =>
    if s.compactions.retentionChecks = 0 then none
    else
      let ended : Activity :=
        { s with compactions := { s.compactions with
          retentionChecks := s.compactions.retentionChecks - 1 } }
      -- `connected` is not looked at again
      some (if compacts then ended.compact else ended.scheduleRetentionCheck config)
  | .compactionStarts pulls =>
    if s.compactions.running = 0 then none else some (if pulls then s.pull else s.starts)
  | .compactionEnds =>
    if s.compactions.running = 0 then none
    else some { s with compactions := { s.compactions with running := s.compactions.running - 1 } }
  | .manifestLoaded managed => some { s with managed := managed }
  | .denied => some s.deny
  | .poisoned => some s.poison
  | .relayMessage change =>
    some (if change then (s.scheduleRetentionCheck config).scheduleInvalidationPull
      else s.scheduleInvalidationPull)
  | .relayStatus => some s.startPolling
  | .pollFires => s.poll.timer.map fun g => { s.pull with poll := s.poll.fires g }
  | .cooldownFires =>
    if s.relay.cooldownTimer then
      let fired : Activity :=
        ({ s with relay := { s.relay with cooldownTimer := false, cooldownQueued := false } } :
          Activity).runInvalidationPull
      some (if s.relay.cooldownQueued && s.connected then fired.scheduleInvalidationPull else fired)
    else none
  | .batchFires =>
    if s.batchTimer then some { s with batchTimer := false, promotions := s.promotions + 1 }
    else none
  | .flushFires => if s.flushTimer then some { s.flushQueued with flushTimer := false } else none
  | .checkFires =>
    s.compactions.checkTimer.map fun version =>
      let fired : Activity := { s with compactions := { s.compactions with checkTimer := none } }
      if version = s.compactions.version && config.autoCompact && s.connected then
        { fired with compactions := { fired.compactions with
          checks := version :: s.compactions.checks } }
      else fired
  | .runFires alone =>
    s.compactions.runTimer.map fun version =>
      let fired : Activity := { s with compactions := { s.compactions with runTimer := none } }
      if version = s.compactions.version && config.autoCompact && s.connected && alone then
        fired.compact
      else fired
  | .retentionFires early =>
    if s.compactions.retentionTimer then
      let fired : Activity :=
        { s with compactions := { s.compactions with retentionTimer := false } }
      some (if early then fired.scheduleRetentionCheck config
        else if s.connected && s.managed && !config.reader then
          { fired with compactions := { fired.compactions with
            retentionChecks := s.compactions.retentionChecks + 1 } }
        else fired)
    else none

/-! ## After `disconnect()` -/

/-- No `connect()` and no `setRemoteStorage()` is under way when `disconnect()` is called, and
nothing is connected, swapped or written while it is under way; when it resolves, the flush timer is
not armed, and nothing is under way that is going to promote the pending batch, to decide about a
compaction for age, to compact or to rehydrate: no pull, if this is a reader. -/
def Undisturbed (s : Activity) : ActivityEvent → Prop
  | .callConnect => s.disconnecting = false
  | .callSetRemoteStorage _ => s.disconnecting = false
  | .callWrite _ => s.disconnecting = false
  | .callDisconnect _ => s.connects = [] ∧ s.swaps = []
  | .disconnectResolves => s.flushTimer = false ∧ s.promotions = 0 ∧
      s.compactions.retentionChecks = 0 ∧ s.compactions.running = 0 ∧
      (config.reader = true → s.pulls = 0)
  | _ => True

/-- What `disconnect()` stops stays stopped. -/
structure Stopped (s : Activity) : Prop where
  connects : s.connects = []
  swaps : s.swaps = []
  subscribed : s.relay.subscribed = false
  poll : s.poll.Over
  batchTimer : s.batchTimer = false

/-- What must not be under way once `disconnect()` has resolved. -/
structure Rested (s : Activity) : Prop where
  connected : s.connected = false
  flushTimer : s.flushTimer = false
  promotions : s.promotions = 0
  retentionChecks : s.compactions.retentionChecks = 0
  running : s.compactions.running = 0
  pulls : config.reader = true → s.pulls = 0
  started : s.started = 0

/-- The invariant. -/
structure Inv (s : Activity) : Prop where
  fresh : s.poll.Fresh
  stopped : s.disconnecting = true ∨ s.resolved = true → Stopped s
  rested : s.resolved = true → Rested config s

variable {config} {s s' : Activity}

/-- Before `disconnect()` only the poll matters. -/
theorem Inv.before (hfresh : s.poll.Fresh)
    (hnone : ¬ (s.disconnecting = true ∨ s.resolved = true)) : Inv config s :=
  ⟨hfresh, fun hor => absurd hor hnone, fun hres => absurd (.inr hres) hnone⟩

theorem Inv.keep (h : Inv config s) (hpoll : s'.poll = s.poll)
    (hflags : s'.disconnecting = s.disconnecting ∧ s'.resolved = s.resolved)
    (hstopped : Stopped s → Stopped s') (hrested : Rested config s →
      Rested config s') : Inv config s' where
  fresh := hpoll ▸ h.fresh
  stopped hor := hstopped (h.stopped (by rwa [hflags.1, hflags.2] at hor))
  rested hres := hrested (h.rested (hflags.2 ▸ hres))

/-- A call of the application ends the promise of the last `disconnect()`. -/
theorem Inv.call (h : Inv config s) (hpoll : s'.poll = s.poll) (hresolved : s'.resolved = false)
    (hdisconnecting : s'.disconnecting = s.disconnecting)
    (hstopped : s.disconnecting = true → Stopped s → Stopped s') : Inv config s' where
  fresh := hpoll ▸ h.fresh
  stopped hor := by
    rw [hresolved, hdisconnecting] at hor
    have hdis := hor.resolve_right (by simp)
    exact hstopped hdis (h.stopped (.inl hdis))
  rested hres := by
    rw [hresolved] at hres
    exact absurd hres (by simp)

theorem Inv.withRelay (h : Inv config s) {relay : Relay}
    (hsub : relay.subscribed = s.relay.subscribed) : Inv config { s with relay := relay } :=
  h.keep rfl ⟨rfl, rfl⟩
    (fun hs => { hs with subscribed := hsub.trans hs.subscribed })
    fun hs => { hs with }

theorem Inv.withCompactions (h : Inv config s) {compactions : Compactions}
    (hchecks : compactions.retentionChecks = s.compactions.retentionChecks)
    (hrunning : compactions.running = s.compactions.running) :
    Inv config { s with compactions := compactions } :=
  h.keep rfl ⟨rfl, rfl⟩ (fun hs => { hs with })
    fun hs => { hs with
      retentionChecks := hchecks.trans hs.retentionChecks
      running := hrunning.trans hs.running }

theorem Inv.busy (h : Inv config s) (hnot : ¬ Rested config s) (compactions : Compactions)
    (pulls started : ℕ) :
    Inv config { s with compactions := compactions, pulls := pulls, started := started } :=
  h.keep rfl ⟨rfl, rfl⟩ (fun hs => { hs with })
    fun hs => absurd hs hnot

theorem not_rested_of_connected (h : s.connected = true) : ¬ Rested config s := fun hs => by
  rw [hs.connected] at h
  exact absurd h (by simp)

theorem scheduleRetentionCheck_eq (config : ActivityConfig) (s : Activity) :
    ∃ timer, s.scheduleRetentionCheck config =
      { s with compactions := { s.compactions with retentionTimer := timer } } := by
  unfold scheduleRetentionCheck
  split_ifs
  · exact ⟨true, rfl⟩
  · exact ⟨s.compactions.retentionTimer, rfl⟩

theorem scheduleInvalidationPull_eq (s : Activity) :
    ∃ timer queued, s.scheduleInvalidationPull =
      { s with relay := { s.relay with cooldownTimer := timer, cooldownQueued := queued } } := by
  unfold scheduleInvalidationPull
  split_ifs with hconnected hcooldown
  · exact ⟨s.relay.cooldownTimer, s.relay.cooldownQueued, rfl⟩
  · exact ⟨s.relay.cooldownTimer, true, rfl⟩
  · exact ⟨true, false, rfl⟩

theorem runInvalidationPull_eq (s : Activity) :
    ∃ relay pulls started,
      s.runInvalidationPull = { s with relay := relay, pulls := pulls, started := started } ∧
      relay.subscribed = s.relay.subscribed ∧
      (s.connected = false → pulls = s.pulls ∧ started = s.started) := by
  unfold runInvalidationPull
  split_ifs with hconnected hpromise
  · exact ⟨s.relay, s.pulls, s.started, rfl, rfl, fun _ => ⟨rfl, rfl⟩⟩
  · exact ⟨{ s.relay with pullQueued := true }, s.pulls, s.started, rfl, rfl, fun _ => ⟨rfl, rfl⟩⟩
  · refine ⟨{ s.relay with pullPromise := true, pulls := s.relay.pulls + 1 }, s.pulls + 1,
      s.started + 1, rfl, rfl, fun hdown => ?_⟩
    rw [hdown] at hconnected
    exact absurd rfl hconnected

theorem flushPendingBatch_eq (config : ActivityConfig) (immediate : Bool) (s : Activity) :
    ∃ compactions flushTimer pendingBatch flushes started,
      s.flushPendingBatch config immediate = { s with
        compactions := compactions
        flushTimer := flushTimer
        batchTimer := false
        pendingBatch := pendingBatch
        flushes := flushes
        started := started } := by
  unfold flushPendingBatch scheduleFlush
  split_ifs
  · exact ⟨_, _, _, _, _, rfl⟩
  · exact ⟨_, _, _, _, _, rfl⟩
  · exact ⟨_, _, _, _, _, rfl⟩
  · exact ⟨_, _, _, _, _, rfl⟩
  · exact ⟨_, _, _, _, _, rfl⟩

theorem goLive_eq (subscribes : Bool) (h : s.poll.Fresh) :
    (s.goLive subscribes).poll.Fresh ∧
      (s.goLive subscribes).disconnecting = s.disconnecting ∧
      (s.goLive subscribes).resolved = s.resolved := by
  unfold goLive startRemoteInvalidations
  split_ifs
  · exact ⟨h.startPolling, rfl, rfl⟩
  · exact ⟨h.startPolling.startPolling, rfl, rfl⟩

/-- A `connect()` does not touch what is known of `disconnect()`. -/
theorem connectTurn_spec {stage : ConnectStage} {turn : ConnectTurn}
    {r : Option ConnectStage × Activity} (h : s.poll.Fresh)
    (hr : s.connectTurn config stage turn = some r) :
    r.2.poll.Fresh ∧ r.2.disconnecting = s.disconnecting ∧ r.2.resolved = s.resolved := by
  unfold connectTurn at hr
  split at hr
  -- most turns start something at most
  all_goals try (obtain rfl := some.inj hr; exact ⟨h, rfl, rfl⟩)
  case h_1 =>
    obtain rfl := some.inj hr
    exact ⟨⟨h.generation, h.timer, h.pulls⟩, rfl, rfl⟩
  case h_2 =>
    split_ifs at hr
    · obtain rfl := some.inj hr
      exact ⟨h, rfl, rfl⟩
    · obtain rfl := some.inj hr
      exact ⟨h, rfl, rfl⟩
  case h_6 subscribes =>
    obtain rfl := some.inj hr
    exact goLive_eq subscribes h
  case h_7 immediate =>
    obtain rfl := some.inj hr
    obtain ⟨_, _, _, _, _, heq⟩ := flushPendingBatch_eq config immediate s
    rw [heq]
    exact ⟨h, rfl, rfl⟩
  case h_12 subscribes =>
    obtain rfl := some.inj hr
    exact goLive_eq subscribes h
  case h_14 subscribes =>
    obtain rfl := some.inj hr
    exact goLive_eq subscribes h
  case h_15 =>
    obtain rfl := some.inj hr
    obtain ⟨_, heq⟩ := scheduleRetentionCheck_eq config s
    rw [heq]
    exact ⟨h, rfl, rfl⟩
  case h_17 => simp at hr

/-! ### The steps -/

theorem Inv.disconnect (h : Inv config s) (hnone : s.connects = [] ∧ s.swaps = [])
    (flushes : Bool) : Inv config (s.called.beginDisconnect flushes) := by
  have hstopped : ∀ t : Activity, t.connects = s.connects → t.swaps = s.swaps →
      t.relay = s.relay.stop → t.poll = s.poll.haltPolling → t.batchTimer = false → Stopped t := by
    intro t hc hw hr hp hb
    exact ⟨hc.trans hnone.1, hw.trans hnone.2, by rw [hr]; rfl, hp ▸ h.fresh.over_haltPolling, hb⟩
  unfold beginDisconnect
  split_ifs
  · exact ⟨h.fresh.haltPolling, fun _ => hstopped _ rfl rfl rfl rfl rfl, fun hres => absurd hres (by
      simp [called, flushQueued, starts])⟩
  · exact ⟨h.fresh.haltPolling, fun _ => hstopped _ rfl rfl rfl rfl rfl, fun hres => absurd hres (by
      simp [called])⟩

theorem Inv.write (h : Inv config s) (hdis : s.disconnecting = false) (immediate : Bool)
    (hs : step config s (.callWrite immediate) = some s') : Inv config s' := by
  have hcall : ∀ t : Activity, t.poll = s.poll → t.resolved = false →
      t.disconnecting = s.disconnecting → Inv config t := fun t hp hr hd =>
    h.call hp hr hd fun htrue => by
      rw [hdis] at htrue
      exact absurd htrue (by simp)
  simp only [step] at hs
  obtain rfl := some.inj hs
  split_ifs
  · exact hcall _ rfl rfl rfl
  · obtain ⟨_, _, _, _, _, heq⟩ := flushPendingBatch_eq config immediate
      { s.called with pendingBatch := true }
    rw [heq]
    exact hcall _ rfl rfl rfl

/-- A `connect()` that is under way moves on, and then no `disconnect()` is or was. -/
theorem Inv.connectMoves (h : Inv config s) {i : ℕ} {turn : ConnectTurn}
    (hs : step config s (.connectMoves i turn) = some s') : Inv config s' := by
  simp only [step] at hs
  obtain ⟨stage, hstage, hmap⟩ := bind_eq_some_iff.mp hs
  obtain ⟨r, hr, rfl⟩ := map_eq_some_iff.mp hmap
  obtain ⟨hfresh, hdis, hres⟩ := connectTurn_spec h.fresh hr
  have hnone : ¬ (s.disconnecting = true ∨ s.resolved = true) := fun hor => by
    rw [(h.stopped hor).connects] at hstage
    exact absurd hstage (by simp)
  refine ⟨hfresh, fun hor => absurd ?_ hnone, fun hr' => absurd (.inr ?_) hnone⟩
  · rwa [← hdis, ← hres]
  · rwa [← hres]

theorem Inv.resolve (h : Inv config s) (hdis : s.disconnecting = true)
    (hok : Undisturbed config s .disconnectResolves) :
    Inv config { s with
      connected := false, disconnecting := false, resolved := true, started := 0 } := by
  have hstopped := h.stopped (.inl hdis)
  obtain ⟨hflushTimer, hpromotions, hchecks, hrunning, hpulls⟩ := hok
  exact ⟨h.fresh, fun _ => ⟨hstopped.connects, hstopped.swaps, hstopped.subscribed, hstopped.poll,
    hstopped.batchTimer⟩, fun _ => ⟨rfl, hflushTimer, hpromotions, hchecks, hrunning, hpulls, rfl⟩⟩

theorem Inv.promotes (h : Inv config s) (hpromotions : s.promotions ≠ 0) (immediate : Bool) :
    Inv config (flushPendingBatch config immediate { s with promotions := s.promotions - 1 }) := by
  obtain ⟨_, _, _, _, _, heq⟩ := flushPendingBatch_eq config immediate
    { s with promotions := s.promotions - 1 }
  rw [heq]
  exact h.keep rfl ⟨rfl, rfl⟩ (fun hs => { hs with batchTimer := rfl })
    fun hs => absurd hs.promotions hpromotions

theorem Inv.scheduleRetentionCheck (h : Inv config s) : Inv config
    (s.scheduleRetentionCheck config) := by
  obtain ⟨_, heq⟩ := scheduleRetentionCheck_eq config s
  rw [heq]
  exact h.withCompactions rfl rfl

theorem Inv.scheduleInvalidationPull (h : Inv config s) :
    Inv config s.scheduleInvalidationPull := by
  obtain ⟨_, _, heq⟩ := scheduleInvalidationPull_eq s
  rw [heq]
  exact h.withRelay rfl

theorem Inv.runInvalidationPull (h : Inv config s) : Inv config s.runInvalidationPull := by
  obtain ⟨relay, pulls, started, heq, hsub, hstarted⟩ := runInvalidationPull_eq s
  rw [heq]
  exact h.keep rfl ⟨rfl, rfl⟩
    (fun hs => { hs with subscribed := hsub.trans hs.subscribed })
    fun hs => { hs with
      pulls := fun hreader => (hstarted hs.connected).1.trans (hs.pulls hreader)
      started := (hstarted hs.connected).2.trans hs.started }

theorem Inv.compact (h : Inv config s) (hnot : ¬ Rested config s) :
    Inv config s.compact := h.busy hnot _ _ _

theorem Inv.halt (h : Inv config s) (hpoll : s'.poll = s.poll.haltPolling)
    (hflags : s'.disconnecting = s.disconnecting ∧ s'.resolved = s.resolved)
    (hstopped : Stopped s →
      s'.connects = [] ∧ s'.swaps = [] ∧ s'.relay.subscribed = false ∧ s'.batchTimer = false)
    (hrested : Rested config s → Rested config s') : Inv config s' where
  fresh := hpoll ▸ h.fresh.haltPolling
  stopped hor := by
    rw [hflags.1, hflags.2] at hor
    obtain ⟨hc, hw, hsub, hb⟩ := hstopped (h.stopped hor)
    exact ⟨hc, hw, hsub, hpoll ▸ h.fresh.over_haltPolling, hb⟩
  rested hres := hrested (h.rested (hflags.2 ▸ hres))

theorem ite_eq_some {P : Prop} [Decidable P] {o : Option Activity}
    (h : (if P then none else o) = some s') : ¬ P ∧ o = some s' := by
  split_ifs at h with hp
  exact ⟨hp, h⟩

theorem ite_eq_some_left {P : Prop} [Decidable P] {o : Option Activity}
    (h : (if P then o else none) = some s') : P ∧ o = some s' := by
  split_ifs at h with hp
  exact ⟨hp, h⟩

/-- **One step.** -/
theorem inv_step {e : ActivityEvent} (h : Inv config s) (hs : step config s e = some s')
    (hok : Undisturbed config s e) : Inv config s' := by
  cases e with
  | callConnect =>
    obtain rfl := some.inj hs
    refine h.call rfl rfl rfl fun htrue => ?_
    have hfalse : s.disconnecting = false := hok
    rw [hfalse] at htrue
    exact absurd htrue (by simp)
  | callDisconnect flushes =>
    simp only [step] at hs
    split_ifs at hs
    obtain rfl := some.inj hs
    exact h.disconnect hok _
  | callWrite immediate => exact h.write hok immediate hs
  | callFlush =>
    obtain rfl := some.inj hs
    exact h.call rfl rfl rfl fun _ hst => { hst with }
  | callPull =>
    obtain rfl := some.inj hs
    exact h.call rfl rfl rfl fun _ hst => { hst with }
  | callCompact =>
    obtain rfl := some.inj hs
    exact h.call rfl rfl rfl fun _ hst => { hst with }
  | callSetRemoteStorage pulls =>
    obtain rfl := some.inj hs
    refine h.call ?_ ?_ ?_ fun htrue => ?_
    · split_ifs
      · rfl
      · rfl
    · split_ifs
      · rfl
      · rfl
    · split_ifs
      · rfl
      · rfl
    · have hfalse : s.disconnecting = false := hok
      rw [hfalse] at htrue
      exact absurd htrue (by simp)
  | storageSwaps i attaches =>
    obtain ⟨wasConnected, hswap, rfl⟩ := map_eq_some_iff.mp hs
    have hnone : ¬ (s.disconnecting = true ∨ s.resolved = true) := fun hor => by
      rw [(h.stopped hor).swaps] at hswap
      exact absurd hswap (by simp)
    exact .before h.fresh.haltPolling hnone
  | connectMoves i turn => exact h.connectMoves hs
  | disconnectResolves =>
    simp only [step] at hs
    split_ifs at hs with hdis
    obtain rfl := some.inj hs
    exact h.resolve hdis hok
  | promotes immediate =>
    simp only [step] at hs
    split_ifs at hs with hzero
    obtain rfl := some.inj hs
    exact h.promotes hzero immediate
  | flushClears =>
    simp only [step] at hs
    split_ifs at hs
    obtain rfl := some.inj hs
    exact h.keep rfl ⟨rfl, rfl⟩
      (fun hst => { hst with })
      fun hr => { hr with flushTimer := rfl }
  | flushEnds compacts =>
    obtain ⟨-, hs⟩ := ite_eq_some hs
    obtain rfl := some.inj hs
    have hended : Inv config { s with flushes := s.flushes - 1 } := h.keep rfl ⟨rfl, rfl⟩
      (fun hst => { hst with })
      fun hr => { hr with }
    split_ifs with hcompacts
    · refine hended.scheduleRetentionCheck.compact (not_rested_of_connected ?_)
      obtain ⟨_, heq⟩ := scheduleRetentionCheck_eq config { s with flushes := s.flushes - 1 }
      rw [heq]
      simp only [Bool.and_eq_true] at hcompacts
      exact hcompacts.1.2
    · exact hended.scheduleRetentionCheck
  | pullEnds =>
    obtain ⟨-, hs⟩ := ite_eq_some hs
    obtain rfl := some.inj hs
    have hended : Inv config { s with pulls := s.pulls - 1 } := h.keep rfl ⟨rfl, rfl⟩
      (fun hst => { hst with })
      fun hr => { hr with pulls := fun hreader => (congrArg (· - 1) (hr.pulls hreader)).trans rfl }
    exact hended.scheduleRetentionCheck
  | pullRehydrates =>
    obtain ⟨⟨hreader, hpulls⟩, hs⟩ := ite_eq_some_left hs
    obtain rfl := some.inj hs
    exact h.busy (fun hr => hpulls (hr.pulls hreader)) _ _ _
  | pollPullEnds g =>
    simp only [step] at hs
    split_ifs at hs with hg
    obtain rfl := some.inj hs
    refine ⟨h.fresh.pullEnds hg, fun hor => ?_, fun hres => ?_⟩
    · have hst := h.stopped hor
      exact ⟨hst.connects, hst.swaps, hst.subscribed, hst.poll.pullEnds hg, hst.batchTimer⟩
    · have hr := h.rested hres
      exact { hr with }
  | relayPullEnds =>
    obtain ⟨-, hs⟩ := ite_eq_some hs
    obtain rfl := some.inj hs
    split_ifs
    · apply Inv.scheduleInvalidationPull
      exact h.withRelay rfl
    · exact h.withRelay rfl
  | checkEnds version many =>
    obtain ⟨-, hs⟩ := ite_eq_some_left hs
    obtain rfl := some.inj hs
    exact h.withCompactions rfl rfl
  | retentionCheckEnds compacts =>
    obtain ⟨hzero, hs⟩ := ite_eq_some hs
    obtain rfl := some.inj hs
    -- a check that is under way means that the engine is not at rest
    have hbusy : ¬ Rested config s := fun hr => hzero hr.retentionChecks
    split_ifs
    · exact h.busy hbusy _ _ _
    · exact (h.busy hbusy _ s.pulls s.started).scheduleRetentionCheck
  | compactionStarts pulls =>
    obtain ⟨hzero, hs⟩ := ite_eq_some hs
    obtain rfl := some.inj hs
    have hbusy : ¬ Rested config s := fun hr => hzero hr.running
    split_ifs
    · exact h.busy hbusy s.compactions _ _
    · exact h.busy hbusy s.compactions _ _
  | compactionEnds =>
    obtain ⟨hzero, hs⟩ := ite_eq_some hs
    obtain rfl := some.inj hs
    exact h.busy (fun hr => hzero hr.running) _ _ s.started
  | manifestLoaded managed =>
    obtain rfl := some.inj hs
    exact h.keep rfl ⟨rfl, rfl⟩
      (fun hst => { hst with })
      fun hr => { hr with }
  | denied =>
    obtain rfl := some.inj hs
    exact h.halt rfl ⟨rfl, rfl⟩ (fun hst => ⟨hst.connects, hst.swaps, rfl, hst.batchTimer⟩)
      fun hr => { hr with connected := rfl, flushTimer := rfl }
  | poisoned =>
    obtain rfl := some.inj hs
    exact h.halt rfl ⟨rfl, rfl⟩ (fun hst => ⟨hst.connects, hst.swaps, hst.subscribed, hst.batchTimer⟩)
      fun hr => { hr with connected := rfl, flushTimer := rfl }
  | relayMessage change =>
    obtain rfl := some.inj hs
    split_ifs
    · exact h.scheduleRetentionCheck.scheduleInvalidationPull
    · exact h.scheduleInvalidationPull
  | relayStatus =>
    obtain rfl := some.inj hs
    refine ⟨h.fresh.startPolling, fun hor => ?_, fun hres => ?_⟩
    · have hst := h.stopped hor
      refine ⟨hst.connects, hst.swaps, hst.subscribed, ?_, hst.batchTimer⟩
      show s.poll.startPolling.Over
      rw [hst.poll.startPolling]
      exact hst.poll
    · have hr := h.rested hres
      exact { hr with }
  | pollFires =>
    obtain ⟨g, hg, rfl⟩ := map_eq_some_iff.mp hs
    have hnone : ¬ (s.disconnecting = true ∨ s.resolved = true) := fun hor => by
      rw [(h.stopped hor).poll.timer] at hg
      exact absurd hg (by simp)
    exact .before (h.fresh.fires hg) hnone
  | cooldownFires =>
    obtain ⟨-, hs⟩ := ite_eq_some_left hs
    obtain rfl := some.inj hs
    split_ifs
    · apply Inv.scheduleInvalidationPull
      apply Inv.runInvalidationPull
      exact h.withRelay rfl
    · apply Inv.runInvalidationPull
      exact h.withRelay rfl
  | batchFires =>
    simp only [step] at hs
    split_ifs at hs with hbatch
    obtain rfl := some.inj hs
    have hnone : ¬ (s.disconnecting = true ∨ s.resolved = true) := fun hor => by
      rw [(h.stopped hor).batchTimer] at hbatch
      exact absurd hbatch (by simp)
    exact .before h.fresh hnone
  | flushFires =>
    simp only [step] at hs
    split_ifs at hs with hflush
    obtain rfl := some.inj hs
    refine h.keep rfl ⟨rfl, rfl⟩ (fun hst => { hst with }) fun hr => ?_
    rw [hr.flushTimer] at hflush
    exact absurd hflush (by simp)
  | checkFires =>
    obtain ⟨version, -, rfl⟩ := map_eq_some_iff.mp hs
    dsimp only
    split_ifs
    · exact h.withCompactions rfl rfl
    · exact h.withCompactions rfl rfl
  | runFires alone =>
    obtain ⟨version, -, rfl⟩ := map_eq_some_iff.mp hs
    dsimp only
    split_ifs with hruns
    · simp only [Bool.and_eq_true] at hruns
      exact h.busy (not_rested_of_connected hruns.1.2) _ _ _
    · exact h.withCompactions rfl rfl
  | retentionFires early =>
    obtain ⟨-, hs⟩ := ite_eq_some_left hs
    obtain rfl := some.inj hs
    split_ifs with hearly hchecks
    · exact Inv.scheduleRetentionCheck (h.withCompactions rfl rfl)
    · simp only [Bool.and_eq_true] at hchecks
      exact h.busy (not_rested_of_connected hchecks.1.1) _ _ s.started
    · exact h.withCompactions rfl rfl

/-! ### The runs -/

/-- A new engine; a pending batch may have been left by an earlier one. -/
def start (pendingBatch : Bool) : Activity where
  connected := false
  managed := false
  poll := ⟨false, none, 0, [], 1⟩
  relay := ⟨false, false, false, false, false, 0⟩
  compactions := ⟨none, none, 0, [], false, 0, 0⟩
  flushTimer := false
  batchTimer := false
  pendingBatch := pendingBatch
  promotions := 0
  flushes := 0
  pulls := 0
  connects := []
  swaps := []
  disconnecting := false
  resolved := false
  started := 0

theorem inv_start (pendingBatch : Bool) : Inv config (start pendingBatch) where
  fresh := ⟨Nat.zero_lt_one, fun g hg => absurd hg (by simp [start]), fun g hg =>
    absurd hg (by simp [start])⟩
  stopped hor := absurd hor (by simp [start])
  rested hres := absurd hres (by simp [start])

/-- A writer with a batch window that compacts by itself. -/
def writer : ActivityConfig := ⟨true, false, true⟩

/-- A reader. -/
def reader : ActivityConfig := ⟨false, true, false⟩

instance (s : Activity) : ∀ e, Decidable (Undisturbed config s e)
  | .callConnect | .callSetRemoteStorage _ => inferInstanceAs (Decidable (s.disconnecting = false))
  | .callWrite _ => inferInstanceAs (Decidable (s.disconnecting = false))
  | .callDisconnect _ => inferInstanceAs (Decidable (s.connects = [] ∧ s.swaps = []))
  | .disconnectResolves => inferInstanceAs (Decidable (s.flushTimer = false ∧ s.promotions = 0 ∧
      s.compactions.retentionChecks = 0 ∧ s.compactions.running = 0 ∧
      (config.reader = true → s.pulls = 0)))
  | .callFlush | .callPull | .callCompact | .storageSwaps _ _ | .connectMoves _ _ | .promotes _
  | .flushClears | .flushEnds _ | .pullEnds | .pullRehydrates | .pollPullEnds _ | .relayPullEnds
  | .checkEnds _ _ | .retentionCheckEnds _ | .compactionStarts _ | .compactionEnds
  | .manifestLoaded _ | .denied | .poisoned | .relayMessage _ | .relayStatus | .pollFires
  | .cooldownFires | .batchFires | .flushFires | .checkFires | .runFires _
  | .retentionFires _ => isTrue trivial

/-- From `connect()` up to the await of the manifest. -/
def connecting : List ActivityEvent :=
  [.callConnect, .connectMoves 0 .next, .connectMoves 0 .next, .connectMoves 0 .next,
    .connectMoves 0 .skip]

/-- From there to its end. -/
def connectRest : List ActivityEvent :=
  [.manifestLoaded true, .connectMoves 0 .next, .pullEnds, .connectMoves 0 .skip, .promotes false,
    .flushEnds false, .connectMoves 0 (.finish true)]

end Activity

end Interocitor
