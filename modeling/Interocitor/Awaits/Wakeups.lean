import Interocitor.Awaits.Teardown
import Interocitor.Foundation.Unless

/-!
# `sync-engine.ts`: an invalidation is followed by a pull

A message of the relay says no more than that there is something to pull.  The engine does not pull
at once: it waits for a second, and what arrives in the meantime is answered by one more round.  If
a pull is under way when the second is over, the engine leaves a note, and whoever ends that pull
starts another second.

So what an invalidation asks for is in one of two places: the timer of the cooldown, or the note for
the end of a pull.  It is handed from one to the other by the callbacks that clear them.  The pulls
are not told apart: the end of an old one, of a subscription that is over, also clears the note and
forgets the pull that is under way.  Neither loses anything, since the note is answered by whoever
clears it.

* `invalidation_is_pulled`: if an engine is connected and gets an invalidation, then by the time
  that no cooldown runs and no pull for the relay is under way it has started one, or was stopped.
* `pulls_by_cooldown`: a pull for the relay is started by the end of a cooldown and by nothing else.
-/

namespace Interocitor

open GuardedRuns Unless Option

namespace Activity

variable {config : ActivityConfig} {s s' : Activity} {e : ActivityEvent}

/-! ## What the steps do to the relay -/

/-- The events that stop the relay, or the engine under it. -/
def Stops : ActivityEvent → Prop
  | .callDisconnect _ => True
  | .connectMoves _ (.finish _) => True
  | .denied => True
  | .poisoned => True
  | .disconnectResolves => True
  | .storageSwaps _ _ => True
  | _ => False

/-- The events that the relay answers to. -/
def Relays : ActivityEvent → Prop
  | .relayMessage _ => True
  | .relayPullEnds => True
  | .cooldownFires => True
  | _ => False

theorem relay_connectTurn {stage : ConnectStage} {turn : ConnectTurn}
    {r : Option ConnectStage × Activity} (hr : s.connectTurn config stage turn = some r)
    (hturn : ∀ subscribes, turn ≠ .finish subscribes) :
    r.2.relay = s.relay ∧ r.2.connected = s.connected := by
  unfold connectTurn at hr
  split at hr
  -- most turns start something at most
  all_goals try (obtain rfl := some.inj hr; exact ⟨rfl, rfl⟩)
  case h_2 =>
    split_ifs at hr
    · obtain rfl := some.inj hr
      exact ⟨rfl, rfl⟩
    · obtain rfl := some.inj hr
      exact ⟨rfl, rfl⟩
  case h_6 subscribes => exact absurd rfl (hturn subscribes)
  case h_7 immediate =>
    obtain rfl := some.inj hr
    obtain ⟨_, _, _, _, _, heq⟩ := flushPendingBatch_eq config immediate s
    rw [heq]
    exact ⟨rfl, rfl⟩
  case h_12 subscribes => exact absurd rfl (hturn subscribes)
  case h_14 subscribes => exact absurd rfl (hturn subscribes)
  case h_15 =>
    obtain rfl := some.inj hr
    obtain ⟨_, heq⟩ := scheduleRetentionCheck_eq config s
    rw [heq]
    exact ⟨rfl, rfl⟩
  case h_17 => simp at hr

theorem relay_of_step (hs : step config s e = some s') (hstops : ¬ Stops e) (hrelays : ¬ Relays e) :
    s'.relay = s.relay ∧ s'.connected = s.connected := by
  cases e with
  | callConnect =>
    obtain rfl := some.inj hs
    exact ⟨rfl, rfl⟩
  | callDisconnect flushes => exact absurd trivial hstops
  | callWrite immediate =>
    obtain rfl := some.inj hs
    split_ifs
    · exact ⟨rfl, rfl⟩
    · obtain ⟨_, _, _, _, _, heq⟩ := flushPendingBatch_eq config immediate
        { s.called with pendingBatch := true }
      rw [heq]
      exact ⟨rfl, rfl⟩
  | callFlush =>
    obtain rfl := some.inj hs
    exact ⟨rfl, rfl⟩
  | callPull =>
    obtain rfl := some.inj hs
    exact ⟨rfl, rfl⟩
  | callCompact =>
    obtain rfl := some.inj hs
    exact ⟨rfl, rfl⟩
  | callSetRemoteStorage pulls =>
    obtain rfl := some.inj hs
    split_ifs
    · exact ⟨rfl, rfl⟩
    · exact ⟨rfl, rfl⟩
  | storageSwaps i attaches => exact absurd trivial hstops
  | connectMoves i turn =>
    obtain ⟨stage, -, hmap⟩ := bind_eq_some_iff.mp hs
    obtain ⟨r, hr, rfl⟩ := map_eq_some_iff.mp hmap
    refine relay_connectTurn hr fun subscribes heq => hstops ?_
    rw [heq]
    exact trivial
  | disconnectResolves => exact absurd trivial hstops
  | promotes immediate =>
    obtain ⟨-, hs⟩ := ite_eq_some hs
    obtain rfl := some.inj hs
    obtain ⟨_, _, _, _, _, heq⟩ := flushPendingBatch_eq config immediate
      { s with promotions := s.promotions - 1 }
    rw [heq]
    exact ⟨rfl, rfl⟩
  | flushClears =>
    obtain ⟨-, hs⟩ := ite_eq_some hs
    obtain rfl := some.inj hs
    exact ⟨rfl, rfl⟩
  | flushEnds compacts =>
    obtain ⟨-, hs⟩ := ite_eq_some hs
    obtain rfl := some.inj hs
    obtain ⟨_, heq⟩ := scheduleRetentionCheck_eq config { s with flushes := s.flushes - 1 }
    rw [heq]
    split_ifs
    · exact ⟨rfl, rfl⟩
    · exact ⟨rfl, rfl⟩
  | pullEnds =>
    obtain ⟨-, hs⟩ := ite_eq_some hs
    obtain rfl := some.inj hs
    obtain ⟨_, heq⟩ := scheduleRetentionCheck_eq config { s with pulls := s.pulls - 1 }
    rw [heq]
    exact ⟨rfl, rfl⟩
  | pullRehydrates =>
    obtain ⟨-, hs⟩ := ite_eq_some_left hs
    obtain rfl := some.inj hs
    exact ⟨rfl, rfl⟩
  | pollPullEnds g =>
    obtain ⟨-, hs⟩ := ite_eq_some_left hs
    obtain rfl := some.inj hs
    exact ⟨rfl, rfl⟩
  | relayPullEnds => exact absurd trivial hrelays
  | checkEnds version many =>
    obtain ⟨-, hs⟩ := ite_eq_some_left hs
    obtain rfl := some.inj hs
    exact ⟨rfl, rfl⟩
  | retentionCheckEnds compacts =>
    obtain ⟨-, hs⟩ := ite_eq_some hs
    obtain rfl := some.inj hs
    split_ifs
    · exact ⟨rfl, rfl⟩
    · obtain ⟨_, heq⟩ := scheduleRetentionCheck_eq config { s with compactions :=
        { s.compactions with retentionChecks := s.compactions.retentionChecks - 1 } }
      rw [heq]
      exact ⟨rfl, rfl⟩
  | compactionStarts pulls =>
    obtain ⟨-, hs⟩ := ite_eq_some hs
    obtain rfl := some.inj hs
    split_ifs
    · exact ⟨rfl, rfl⟩
    · exact ⟨rfl, rfl⟩
  | compactionEnds =>
    obtain ⟨-, hs⟩ := ite_eq_some hs
    obtain rfl := some.inj hs
    exact ⟨rfl, rfl⟩
  | manifestLoaded managed =>
    obtain rfl := some.inj hs
    exact ⟨rfl, rfl⟩
  | denied => exact absurd trivial hstops
  | poisoned => exact absurd trivial hstops
  | relayMessage change => exact absurd trivial hrelays
  | relayStatus =>
    obtain rfl := some.inj hs
    exact ⟨rfl, rfl⟩
  | pollFires =>
    obtain ⟨g, -, rfl⟩ := map_eq_some_iff.mp hs
    exact ⟨rfl, rfl⟩
  | cooldownFires => exact absurd trivial hrelays
  | batchFires =>
    obtain ⟨-, hs⟩ := ite_eq_some_left hs
    obtain rfl := some.inj hs
    exact ⟨rfl, rfl⟩
  | flushFires =>
    obtain ⟨-, hs⟩ := ite_eq_some_left hs
    obtain rfl := some.inj hs
    exact ⟨rfl, rfl⟩
  | checkFires =>
    obtain ⟨version, -, rfl⟩ := map_eq_some_iff.mp hs
    dsimp only
    split_ifs
    · exact ⟨rfl, rfl⟩
    · exact ⟨rfl, rfl⟩
  | runFires alone =>
    obtain ⟨version, -, rfl⟩ := map_eq_some_iff.mp hs
    dsimp only
    split_ifs
    · exact ⟨rfl, rfl⟩
    · exact ⟨rfl, rfl⟩
  | retentionFires early =>
    obtain ⟨-, hs⟩ := ite_eq_some_left hs
    obtain rfl := some.inj hs
    split_ifs
    · obtain ⟨_, heq⟩ := scheduleRetentionCheck_eq config { s with compactions :=
        { s.compactions with retentionTimer := false } }
      rw [heq]
      exact ⟨rfl, rfl⟩
    · exact ⟨rfl, rfl⟩
    · exact ⟨rfl, rfl⟩

/-! ## Where an invalidation waits -/

/-- The places in which an invalidation waits for its pull. -/
inductive Wait where
  -- a cooldown runs
  | cooldown
  -- a pull is under way, and its end is to start another cooldown
  | replay
  deriving DecidableEq

/-- An engine that is connected and in which an invalidation waits in a place. -/
def Waits : Wait → Activity → Prop
  | .cooldown, s => s.connected = true ∧ s.relay.cooldownTimer = true
  | .replay, s => s.connected = true ∧ s.relay.pullQueued = true ∧ 0 < s.relay.pulls

/-- A cooldown ends, and a pull is started. -/
def PullStarts (s : Activity) (e : ActivityEvent) : Prop :=
  e = .cooldownFires ∧ s.connected = true ∧ s.relay.cooldownTimer = true ∧
    s.relay.pullPromise = false

/-- The pull that counts is under way. -/
def Counted (s : Activity) : Prop := s.relay.pullPromise = true → 0 < s.relay.pulls

theorem scheduleInvalidationPull_frame (s : Activity) :
    s.scheduleInvalidationPull.connected = s.connected ∧
      s.scheduleInvalidationPull.relay.pulls = s.relay.pulls ∧
      s.scheduleInvalidationPull.relay.pullPromise = s.relay.pullPromise ∧
      s.scheduleInvalidationPull.relay.pullQueued = s.relay.pullQueued := by
  obtain ⟨_, _, heq⟩ := scheduleInvalidationPull_eq s
  rw [heq]
  exact ⟨rfl, rfl, rfl, rfl⟩

theorem waits_scheduleInvalidationPull (h : s.connected = true) :
    Waits .cooldown s.scheduleInvalidationPull := by
  refine ⟨(scheduleInvalidationPull_frame s).1.trans h, ?_⟩
  unfold scheduleInvalidationPull
  split_ifs with hconnected hcooldown
  · rw [h] at hconnected
    exact absurd hconnected (by simp)
  · exact hcooldown
  · rfl

/-- What the end of a cooldown does first. -/
def cooled (s : Activity) : Activity :=
  { s with relay := { s.relay with cooldownTimer := false, cooldownQueued := false } }

theorem cooldownFires_cases (hs : step config s .cooldownFires = some s') :
    s.relay.cooldownTimer = true ∧ (s' = s.cooled.runInvalidationPull ∨
      s' = s.cooled.runInvalidationPull.scheduleInvalidationPull) := by
  obtain ⟨htimer, hs⟩ := ite_eq_some_left hs
  obtain rfl := some.inj hs
  refine ⟨htimer, ?_⟩
  split_ifs
  · exact .inr rfl
  · exact .inl rfl

theorem runInvalidationPull_of_promise (hconnected : s.connected = true)
    (hpromise : s.relay.pullPromise = true) :
    s.runInvalidationPull = { s with relay := { s.relay with pullQueued := true } } := by
  unfold runInvalidationPull
  rw [hconnected, hpromise]
  rfl

theorem runInvalidationPull_of_free (hconnected : s.connected = true)
    (hpromise : s.relay.pullPromise = false) :
    s.runInvalidationPull = { s.pull with
      relay := { s.relay with pullPromise := true, pulls := s.relay.pulls + 1 } } := by
  unfold runInvalidationPull
  rw [hconnected, hpromise]
  rfl

theorem runInvalidationPull_of_down (hconnected : s.connected = false) :
    s.runInvalidationPull = s := by
  unfold runInvalidationPull
  rw [hconnected]
  rfl

/-- What a pull of the relay leaves when it ends, before it looks at the note. -/
def relayPullEnded (s : Activity) : Activity :=
  { s with relay := { s.relay with pullPromise := false, pulls := s.relay.pulls - 1 } }

theorem relayPullEnds_cases (hs : step config s .relayPullEnds = some s') :
    s.relay.pulls ≠ 0 ∧
      (s.relay.pullQueued = true ∧ s.connected = true ∧
          s' = scheduleInvalidationPull
            { s with relay := { s.relayPullEnded.relay with pullQueued := false } } ∨
        ¬ (s.relay.pullQueued = true ∧ s.connected = true) ∧ s' = s.relayPullEnded) := by
  obtain ⟨hpulls, hs⟩ := ite_eq_some hs
  obtain rfl := some.inj hs
  refine ⟨hpulls, ?_⟩
  split_ifs with hqueued
  · rw [Bool.and_eq_true] at hqueued
    exact .inl ⟨hqueued.1, hqueued.2, rfl⟩
  · rw [Bool.and_eq_true] at hqueued
    exact .inr ⟨hqueued, rfl⟩

theorem relayMessage_cases {change : Bool} (hs : step config s (.relayMessage change) = some s') :
    ∃ timer, s' = scheduleInvalidationPull
      { s with compactions := { s.compactions with retentionTimer := timer } } := by
  obtain rfl := some.inj hs
  split_ifs
  · obtain ⟨timer, heq⟩ := scheduleRetentionCheck_eq config s
    rw [heq]
    exact ⟨timer, rfl⟩
  · exact ⟨s.compactions.retentionTimer, rfl⟩

/-! ## One step -/

theorem counted_of_relay {t : Activity} (h : Counted s) (hpulls : t.relay.pulls = s.relay.pulls)
    (hpromise : t.relay.pullPromise = s.relay.pullPromise) : Counted t := by
  intro ht
  rw [hpulls]
  exact h (hpromise ▸ ht)

theorem counted_of_stop {t : Activity} (h : t.relay.pullPromise = false) : Counted t := fun ht => by
  rw [h] at ht
  exact absurd ht (by simp)

theorem counted_schedule (h : Counted s) : Counted s.scheduleInvalidationPull :=
  counted_of_relay h (scheduleInvalidationPull_frame s).2.1 (scheduleInvalidationPull_frame s).2.2.1

theorem counted_run (h : Counted s) : Counted s.runInvalidationPull := by
  rcases hconnected : s.connected with - | -
  · rw [runInvalidationPull_of_down hconnected]
    exact h
  · rcases hpromise : s.relay.pullPromise with - | -
    · rw [runInvalidationPull_of_free hconnected hpromise]
      exact fun _ => Nat.succ_pos _
    · rw [runInvalidationPull_of_promise hconnected hpromise]
      exact h

theorem relay_goLive (subscribes : Bool) (s : Activity) :
    (s.goLive subscribes).relay = { s.relay.stop with subscribed := subscribes } := by
  unfold goLive startRemoteInvalidations
  cases subscribes
  · rfl
  · rfl

/-- Going live ends with a new relay, whatever stage of `connect()` it comes from. -/
theorem relay_connectTurn_finish {stage : ConnectStage} {subscribes : Bool}
    {r : Option ConnectStage × Activity}
    (hr : s.connectTurn config stage (.finish subscribes) = some r) :
    r.2.relay = { s.relay.stop with subscribed := subscribes } ∧ r.2.connected = true := by
  have hlive : r.2 = s.goLive subscribes := by
    cases stage <;> simp only [connectTurn, reduceCtorEq, some.injEq] at hr <;> rw [← hr]
  rw [hlive]
  exact ⟨relay_goLive subscribes s, rfl⟩

theorem relay_of_stops (hs : step config s e = some s') (he : Stops e) :
    s'.relay.pulls = s.relay.pulls ∧
      (s'.relay.pullPromise = false ∨ s'.relay.pullPromise = s.relay.pullPromise) := by
  cases e with
  | callDisconnect flushes =>
    obtain ⟨-, hs⟩ := ite_eq_some hs
    obtain rfl := some.inj hs
    unfold beginDisconnect
    split_ifs
    · exact ⟨rfl, .inl rfl⟩
    · exact ⟨rfl, .inl rfl⟩
  | connectMoves i turn =>
    obtain ⟨stage, -, hmap⟩ := bind_eq_some_iff.mp hs
    obtain ⟨r, hr, rfl⟩ := map_eq_some_iff.mp hmap
    cases turn with
    | finish subscribes =>
      show r.2.relay.pulls = _ ∧ (r.2.relay.pullPromise = false ∨ _)
      rw [(relay_connectTurn_finish hr).1]
      exact ⟨rfl, .inl rfl⟩
    | _ => exact absurd he id
  | storageSwaps i attaches =>
    obtain ⟨wasConnected, -, rfl⟩ := map_eq_some_iff.mp hs
    exact ⟨rfl, .inl rfl⟩
  | denied =>
    obtain rfl := some.inj hs
    exact ⟨rfl, .inl rfl⟩
  | poisoned =>
    obtain rfl := some.inj hs
    exact ⟨rfl, .inr rfl⟩
  | disconnectResolves =>
    obtain ⟨-, hs⟩ := ite_eq_some_left hs
    obtain rfl := some.inj hs
    exact ⟨rfl, .inr rfl⟩
  | _ => exact absurd he id

theorem connected_of_step (hs : step config s e = some s') (hstops : ¬ Stops e) :
    s'.connected = s.connected := by
  by_cases hrelays : Relays e
  · cases e with
    | relayMessage change =>
      obtain ⟨timer, rfl⟩ := relayMessage_cases hs
      exact (scheduleInvalidationPull_frame _).1
    | relayPullEnds =>
      obtain ⟨-, ⟨-, -, rfl⟩ | ⟨-, rfl⟩⟩ := relayPullEnds_cases hs
      · exact (scheduleInvalidationPull_frame _).1
      · rfl
    | cooldownFires =>
      obtain ⟨_, _, _, heq, -⟩ := runInvalidationPull_eq s.cooled
      obtain ⟨-, rfl | rfl⟩ := cooldownFires_cases hs
      · rw [heq]
        rfl
      · rw [heq]
        exact (scheduleInvalidationPull_frame _).1
    | _ => exact absurd hrelays id
  · exact (relay_of_step hs hstops hrelays).2

theorem counted_step (h : Counted s) (hs : step config s e = some s') : Counted s' := by
  by_cases hstops : Stops e
  · obtain ⟨hpulls, hfalse | hsame⟩ := relay_of_stops hs hstops
    · exact counted_of_stop hfalse
    · exact counted_of_relay h hpulls hsame
  · by_cases hrelays : Relays e
    · cases e with
      | relayMessage change =>
        obtain ⟨timer, rfl⟩ := relayMessage_cases hs
        exact counted_schedule h
      | relayPullEnds =>
        obtain ⟨-, ⟨-, -, rfl⟩ | ⟨-, rfl⟩⟩ := relayPullEnds_cases hs
        · exact counted_schedule (counted_of_stop rfl)
        · exact counted_of_stop rfl
      | cooldownFires =>
        have hcooled : Counted s.cooled := h
        obtain ⟨-, rfl | rfl⟩ := cooldownFires_cases hs
        · exact counted_run hcooled
        · exact counted_schedule (counted_run hcooled)
      | _ => exact absurd hrelays id
    · obtain ⟨hrelay, -⟩ := relay_of_step hs hstops hrelays
      exact counted_of_relay h (by rw [hrelay]) (by rw [hrelay])

/-- A waiting invalidation is handed on by every step that neither starts its pull nor stops the
engine. -/
theorem waits_step (w : Wait) (h : Counted s) (hw : Waits w s) (hs : step config s e = some s') :
    (PullStarts s e ∨ Stops e) ∨ ∃ w', Waits w' s' := by
  by_cases hstops : Stops e
  · exact .inl (.inr hstops)
  have hconnected : s.connected = true := by
    cases w
    · exact hw.1
    · exact hw.1
  by_cases hrelays : Relays e
  · cases e with
    | relayMessage change =>
      obtain ⟨timer, rfl⟩ := relayMessage_cases hs
      exact .inr ⟨.cooldown, waits_scheduleInvalidationPull hconnected⟩
    | relayPullEnds =>
      obtain ⟨-, ⟨-, -, rfl⟩ | ⟨hnote, rfl⟩⟩ := relayPullEnds_cases hs
      -- the note is answered by whoever clears it
      · exact .inr ⟨.cooldown, waits_scheduleInvalidationPull hconnected⟩
      · cases w with
        | cooldown => exact .inr ⟨.cooldown, hw.1, hw.2⟩
        | replay => exact absurd ⟨hw.2.1, hw.1⟩ hnote
    | cooldownFires =>
      obtain ⟨htimer, hcases⟩ := cooldownFires_cases hs
      rcases hpromise : s.relay.pullPromise with - | -
      · exact .inl (.inl ⟨rfl, hconnected, htimer, hpromise⟩)
      · -- a pull is under way: the note is left, and perhaps another cooldown is started
        have hrun := runInvalidationPull_of_promise (s := s.cooled) hconnected hpromise
        rw [hrun] at hcases
        rcases hcases with rfl | rfl
        · exact .inr ⟨.replay, hconnected, rfl, h hpromise⟩
        · exact .inr ⟨.cooldown, waits_scheduleInvalidationPull hconnected⟩
    | _ => exact absurd hrelays id
  · obtain ⟨hrelay, hflag⟩ := relay_of_step hs hstops hrelays
    refine .inr ⟨w, ?_⟩
    cases w with
    | cooldown => exact ⟨hflag.trans hw.1, by rw [hrelay]; exact hw.2⟩
    | replay => exact ⟨hflag.trans hw.1, by rw [hrelay]; exact hw.2.1, by rw [hrelay]; exact hw.2.2⟩

/-- A pull for the relay is started by the end of a cooldown of a connected engine in which none
counts, and by nothing else. -/
theorem pulls_by_cooldown (hs : step config s e = some s') :
    s.relay.pulls < s'.relay.pulls ↔ PullStarts s e := by
  constructor
  · intro hlt
    by_cases hstops : Stops e
    · have hpulls := (relay_of_stops hs hstops).1
      omega
    · by_cases hrelays : Relays e
      · cases e with
        | relayMessage change =>
          obtain ⟨timer, rfl⟩ := relayMessage_cases hs
          rw [(scheduleInvalidationPull_frame _).2.1] at hlt
          exact absurd hlt (Nat.lt_irrefl _)
        | relayPullEnds =>
          have hpulls : s'.relay.pulls = s.relay.pulls - 1 := by
            obtain ⟨-, ⟨-, -, rfl⟩ | ⟨-, rfl⟩⟩ := relayPullEnds_cases hs
            · exact (scheduleInvalidationPull_frame _).2.1
            · rfl
          omega
        | cooldownFires =>
          obtain ⟨htimer, hcases⟩ := cooldownFires_cases hs
          have hpulls : s'.relay.pulls = s.cooled.runInvalidationPull.relay.pulls := by
            rcases hcases with rfl | rfl
            · rfl
            · exact (scheduleInvalidationPull_frame _).2.1
          rw [hpulls] at hlt
          rcases hconnected : s.connected with - | -
          · rw [runInvalidationPull_of_down (s := s.cooled) hconnected] at hlt
            exact absurd hlt (Nat.lt_irrefl _)
          · rcases hpromise : s.relay.pullPromise with - | -
            · exact ⟨rfl, hconnected, htimer, hpromise⟩
            · rw [runInvalidationPull_of_promise (s := s.cooled) hconnected hpromise] at hlt
              exact absurd hlt (Nat.lt_irrefl _)
        | _ => exact absurd hrelays id
      · rw [(relay_of_step hs hstops hrelays).1] at hlt
        exact absurd hlt (Nat.lt_irrefl _)
  · rintro ⟨rfl, hconnected, -, hpromise⟩
    obtain ⟨-, hcases⟩ := cooldownFires_cases hs
    have hpulls : s'.relay.pulls = s.cooled.runInvalidationPull.relay.pulls := by
      rcases hcases with rfl | rfl
      · rfl
      · exact (scheduleInvalidationPull_frame _).2.1
    rw [hpulls, runInvalidationPull_of_free (s := s.cooled) hconnected hpromise]
    exact Nat.lt_succ_self _

/-- A step by which the engine starts a pull for the relay. -/
def StartsPull (config : ActivityConfig) (s : Activity) (e : ActivityEvent) : Prop :=
  ∃ s', step config s e = some s' ∧ s.relay.pulls < s'.relay.pulls

theorem PullStarts.startsPull (config : ActivityConfig) (h : PullStarts s e) :
    StartsPull config s e := by
  obtain ⟨s', hs⟩ : ∃ s', step config s e = some s' := by
    rw [h.1]
    exact ⟨_, if_pos h.2.2.1⟩
  exact ⟨s', hs, (pulls_by_cooldown hs).mpr h⟩

/-! ## Runs -/

theorem counted_start (pendingBatch : Bool) : Counted (start pendingBatch) :=
  counted_of_stop rfl

/-- In every run from a counted state, what waits is kept until its pull starts or the engine is
stopped. -/
theorem waits_run {es : List ActivityEvent} {w : Wait} (h : Counted s) (hw : Waits w s)
    (hrun : run (step config) s es = some s') :
    Occurs (step config) (fun s e => PullStarts s e ∨ Stops e) s es ∨ ∃ w', Waits w' s' := by
  have hkeeps : Keeps (step config) Counted (fun s => ∃ w, Waits w s)
      (fun s e => PullStarts s e ∨ Stops e) :=
    Keeps.handover fun w _ _ _ hI hw hs => waits_step w hI hw hs
  exact hkeeps.run (fun _ _ _ => counted_step) h ⟨w, hw⟩ hrun

/-- **No invalidation is lost.**  A connected engine gets an invalidation.  If later no cooldown
runs and no pull for the relay is under way, then it has started a pull since, or was stopped. -/
theorem invalidation_is_pulled (config : ActivityConfig) (pendingBatch : Bool)
    {before after : List ActivityEvent} {change : Bool} {s s₁ s' : Activity}
    (hbefore : run (step config) (start pendingBatch) before = some s)
    (hconnected : s.connected = true) (hmessage : step config s (.relayMessage change) = some s₁)
    (hafter : run (step config) s₁ after = some s')
    (hidle : s'.relay.cooldownTimer = false ∧ s'.relay.pulls = 0) :
    Occurs (step config) (fun s e => StartsPull config s e ∨ Stops e) s₁ after := by
  have hcounted : Counted s := invariant_run (fun _ _ _ => counted_step) (counted_start _) hbefore
  have hcounted₁ := counted_step hcounted hmessage
  have hwaits : Waits .cooldown s₁ := by
    obtain ⟨timer, rfl⟩ := relayMessage_cases hmessage
    exact waits_scheduleInvalidationPull hconnected
  rcases waits_run hcounted₁ hwaits hafter with hocc | ⟨w, hw⟩
  · exact hocc.mono fun _ _ => Or.imp_left (PullStarts.startsPull config)
  · cases w with
    | cooldown =>
      rw [Waits, hidle.1] at hw
      exact absurd hw.2 (by simp)
    | replay =>
      rw [Waits, hidle.2] at hw
      exact absurd hw.2.2 (Nat.lt_irrefl 0)

/-- After a first invalidation: another one within its cooldown, and a third one while the pull is
under way. -/
def threeInvalidations : List ActivityEvent :=
  [.relayMessage false, .cooldownFires, .relayMessage true, .cooldownFires, .relayPullEnds,
    .cooldownFires, .relayPullEnds, .cooldownFires, .relayPullEnds]

theorem threeInvalidations_pulled :
    ∃ s s₁ s' : Activity, run (step writer) (start false) (connecting ++ connectRest) = some s ∧
      step writer s (.relayMessage false) = some s₁ ∧
      run (step writer) s₁ threeInvalidations = some s' ∧ s'.started = 5 ∧
      Occurs (step writer) (fun s e => StartsPull writer s e ∨ Stops e) s₁ threeInvalidations := by
  obtain ⟨s, hs⟩ : ∃ s, run (step writer) (start false) (connecting ++ connectRest) = some s :=
    ⟨_, rfl⟩
  obtain ⟨s₁, hs₁⟩ : ∃ s₁, step writer s (.relayMessage false) = some s₁ := ⟨_, rfl⟩
  obtain ⟨s', hs', hidle, hstarted⟩ : ∃ s', run (step writer) s₁ threeInvalidations = some s' ∧
      (s'.relay.cooldownTimer = false ∧ s'.relay.pulls = 0) ∧ s'.started = 5 := by
    obtain rfl := some.inj hs
    obtain rfl := some.inj hs₁
    exact ⟨_, rfl, ⟨rfl, rfl⟩, rfl⟩
  have hconnected : s.connected = true := by
    obtain rfl := some.inj hs
    rfl
  exact ⟨s, s₁, s', hs, hs₁, hs', hstarted,
    invalidation_is_pulled writer false hs hconnected hs₁ hs' hidle⟩

end Activity

end Interocitor
