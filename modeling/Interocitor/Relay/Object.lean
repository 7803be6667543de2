import Interocitor.Foundation.CodeUnits
import Interocitor.Foundation.Unless

/-!
# `relay.ts`: the object that tells a mesh to pull

The worker tells the object of a mesh about every write.  The object keeps the latest payload, arms
a timer of a second if none is armed, and when the timer fires it sends that payload to every socket
it has.  So of several payloads within a second one is sent, and the others are as good as sent: all
of them say that there is something to pull.

What the object holds is determined by the payloads that it was given since its last flush: the
latest of them, and a timer that is due a second after the first.  `batchOf` reads them off a
history, and `run_batchOf` says that the object agrees with it at all times.  A reset throws the
batch away, and so does the runtime when it evicts the object.

Times are milliseconds; a timer fires when it is due or later.  A socket is a number.  Which sends
fail is up to the runtime.

* `broadcast_is_flushed`: an accepted payload is sent to every socket, or a later one in its place,
  by a timer that was due within a second.
* `flushes_spaced`: two flushes are at least a second apart.
-/

namespace Interocitor

open CodeUnits GuardedRuns Unless List Option

/-- `RELAY_BROADCAST_BATCH_DELAY_MS`. -/
def relayBroadcastBatchDelayMs : ℕ := 1000

/-- The object: the payload that waits, the time at which its timer is due, and what `getWebSockets`
answers. -/
structure RelayObject where
  pendingBroadcastPayload : Option Text
  pendingBroadcastTimer : Option ℕ
  sockets : List ℕ
  deriving DecidableEq

/-- What the object is asked, by path.  A new socket comes with its name. -/
inductive RelayRequest where
  | connect (upgrade : Bool) (socket : ℕ)
  -- the text of the request has been read
  | broadcast (payload : Text)
  | status
  | reset
  | other
  deriving DecidableEq

/-- What it answers. -/
inductive RelayResponse where
  | upgradeExpected
  | switching
  | queued (delayMs : ℕ)
  | status (connected : ℕ) (pendingBroadcast : Bool) (batchDelayMs : ℕ)
  | cleared (sockets : ℕ)
  | notFound
  deriving DecidableEq

/-- What can happen to it.  `fails`: the sockets that throw when they are sent to. -/
inductive RelayEvent where
  | fetch (request : RelayRequest)
  | timerFires (fails : List ℕ)
  | socketClosed (socket : ℕ)
  | evicted
  deriving DecidableEq

namespace RelayObject

/-- `new InterocitorRelayDurableObject`; sockets may have been accepted by an earlier one. -/
def new (sockets : List ℕ) : RelayObject := ⟨none, none, sockets⟩

/-- What `flushPendingBroadcast` sends: nothing for an empty payload. -/
def sent (o : RelayObject) (fails : List ℕ) : List (ℕ × Text) :=
  match o.pendingBroadcastPayload with
  | none => []
  | some payload =>
    if payload.isEmpty then []
    else (o.sockets.filter fun socket => !fails.contains socket).map fun socket => (socket, payload)

/-- `flushPendingBroadcast`, apart from what it sends. -/
def flushPendingBroadcast (o : RelayObject) : RelayObject :=
  { o with pendingBroadcastPayload := none, pendingBroadcastTimer := none }

/-- `scheduleBroadcastFlush`. -/
def scheduleBroadcastFlush (now : ℕ) (o : RelayObject) : RelayObject :=
  match o.pendingBroadcastTimer with
  | some _ => o
  | none => { o with pendingBroadcastTimer := some (now + relayBroadcastBatchDelayMs) }

/-- `fetch`.  The sockets that a reset closes are there until the runtime says that they are
closed. -/
def fetch (now : ℕ) (o : RelayObject) : RelayRequest → RelayObject × RelayResponse
  | .connect upgrade socket =>
    if upgrade then ({ o with sockets := o.sockets ++ [socket] }, .switching)
    else (o, .upgradeExpected)
  | .broadcast payload =>
    (scheduleBroadcastFlush now { o with pendingBroadcastPayload := some payload },
      .queued relayBroadcastBatchDelayMs)
  | .status =>
    (o, .status o.sockets.length o.pendingBroadcastPayload.isSome relayBroadcastBatchDelayMs)
  | .reset =>
    ({ o with pendingBroadcastPayload := none, pendingBroadcastTimer := none },
      .cleared o.sockets.length)
  | .other => (o, .notFound)

/-- One step, at a time.  The timer fires if there is one and it is due. -/
def step (o : RelayObject) : ℕ × RelayEvent → Option RelayObject
  | (now, .fetch request) => some (o.fetch now request).1
  | (now, .timerFires _) =>
    match o.pendingBroadcastTimer with
    | some due => if due ≤ now then some o.flushPendingBroadcast else none
    | none => none
  | (_, .socketClosed socket) => some { o with sockets := o.sockets.erase socket }
  | (_, .evicted) => some (new o.sockets)

/-! ## The batch of a history -/

/-- The payloads since the last flush: when the first one came, and the latest. -/
structure Batch where
  first : ℕ
  last : Text
  deriving DecidableEq

/-- The batch after one more event. -/
def batchAfter (b : Option Batch) : ℕ × RelayEvent → Option Batch
  | (now, .fetch (.broadcast payload)) => some ⟨(b.map Batch.first).getD now, payload⟩
  | (_, .fetch .reset) => none
  | (_, .timerFires _) => none
  | (_, .evicted) => none
  | (_, _) => b

/-- The batch of a history. -/
def batchOf (history : List (ℕ × RelayEvent)) : Option Batch := history.foldl batchAfter none

/-- The object holds a batch. -/
structure Holds (o : RelayObject) (b : Option Batch) : Prop where
  payload : o.pendingBroadcastPayload = b.map Batch.last
  timer : o.pendingBroadcastTimer = b.map fun b => b.first + relayBroadcastBatchDelayMs

variable {o o₁ o' : RelayObject} {b : Option Batch} {e : ℕ × RelayEvent}

theorem holds_new (sockets : List ℕ) : Holds (new sockets) none := ⟨rfl, rfl⟩

theorem timerFires_cases {now : ℕ} {fails : List ℕ}
    (hs : step o (now, .timerFires fails) = some o') :
    ∃ due, o.pendingBroadcastTimer = some due ∧ due ≤ now ∧ o' = o.flushPendingBroadcast := by
  cases htimer : o.pendingBroadcastTimer with
  | none =>
    rw [step, htimer] at hs
    exact absurd hs (by simp)
  | some due =>
    rw [step, htimer] at hs
    dsimp only at hs
    split_ifs at hs with hdue
    exact ⟨due, rfl, hdue, (some.inj hs).symm⟩

theorem Holds.broadcast (h : Holds o b) (now : ℕ) (payload : Text) :
    Holds (o.fetch now (.broadcast payload)).1
      (some ⟨(b.map Batch.first).getD now, payload⟩) := by
  show Holds (scheduleBroadcastFlush now { o with pendingBroadcastPayload := some payload }) _
  unfold scheduleBroadcastFlush
  cases b with
  | none =>
    have htimer : o.pendingBroadcastTimer = none := h.timer
    rw [htimer]
    exact ⟨rfl, rfl⟩
  | some b =>
    have htimer : o.pendingBroadcastTimer = some (b.first + relayBroadcastBatchDelayMs) :=
      h.timer
    rw [htimer]
    exact ⟨rfl, rfl⟩

/-- **One step.**  The object holds what the history says. -/
theorem Holds.step (h : Holds o b) (hs : o.step e = some o') : Holds o' (batchAfter b e) := by
  obtain ⟨now, event⟩ := e
  cases event with
  | fetch request =>
    obtain rfl := some.inj hs
    cases request with
    | connect upgrade socket =>
      cases upgrade
      · exact h
      · exact ⟨h.payload, h.timer⟩
    | broadcast payload => exact h.broadcast now payload
    | status => exact h
    | reset => exact ⟨rfl, rfl⟩
    | other => exact h
  | timerFires fails =>
    obtain ⟨-, -, -, rfl⟩ := timerFires_cases hs
    exact ⟨rfl, rfl⟩
  | socketClosed socket =>
    obtain rfl := some.inj hs
    exact ⟨h.payload, h.timer⟩
  | evicted =>
    obtain rfl := some.inj hs
    exact ⟨rfl, rfl⟩

variable {history : List (ℕ × RelayEvent)}

theorem Holds.along (h : Holds o b) (hrun : run RelayObject.step o history = some o') :
    Holds o' (history.foldl batchAfter b) := by
  induction history generalizing o b with
  | nil =>
    obtain rfl := some.inj hrun
    exact h
  | cons e history ih =>
    obtain ⟨o₁, hs, hrest⟩ := bind_eq_some_iff.mp hrun
    exact ih (h.step hs) hrest

/-- **The object and its history.**  At any time the object holds the batch of what it was given. -/
theorem run_batchOf {sockets : List ℕ} (hrun : run RelayObject.step
    (new sockets) history = some o) : Holds o (batchOf history) :=
  (holds_new sockets).along hrun

/-! ## A payload is flushed -/

/-- The latest payload, after one more event. -/
def latestAfter (payload : Text) : ℕ × RelayEvent → Text
  | (_, .fetch (.broadcast later)) => later
  | _ => payload

/-- The latest payload after a list of events. -/
def latest (payload : Text) (events : List (ℕ × RelayEvent)) : Text :=
  events.foldl latestAfter payload

/-- The event ends a batch without sending it. -/
def Discards : RelayEvent → Prop
  | .fetch .reset => True
  | .evicted => True
  | _ => False

/-- The timer fires. -/
def Flushes : RelayEvent → Prop
  | .timerFires _ => True
  | _ => False

theorem batchAfter_some {b : Batch} (hdiscards : ¬ Discards e.2) (hflushes : ¬ Flushes e.2) :
    batchAfter (some b) e = some ⟨b.first, latestAfter b.last e⟩ := by
  obtain ⟨now, event⟩ := e
  cases event with
  | fetch request =>
    cases request with
    | reset => exact absurd trivial hdiscards
    | _ => rfl
  | timerFires fails => exact absurd trivial hflushes
  | socketClosed socket => rfl
  | evicted => exact absurd trivial hdiscards

/-- An object that holds a batch flushes it before it is at rest, unless it discards it. -/
theorem Holds.flushed {b : Batch} {events : List (ℕ × RelayEvent)} (h : Holds o (some b))
    (hrun : run RelayObject.step o events = some o') (hkept : ∀ e ∈ events, ¬ Discards e.2)
    (hrest : o'.pendingBroadcastTimer = none) :
    ∃ between now fails rest o₂, events = between ++ (now, .timerFires fails) :: rest ∧
      run RelayObject.step o between = some o₂ ∧ (∀ e ∈ between, ¬ Flushes e.2) ∧
      Holds o₂ (some ⟨b.first, latest b.last between⟩) ∧
      b.first + relayBroadcastBatchDelayMs ≤ now := by
  induction events generalizing o b with
  | nil =>
    obtain rfl := some.inj hrun
    have htimer := h.timer
    rw [hrest] at htimer
    exact absurd htimer (by simp)
  | cons e events ih =>
    obtain ⟨o₁, hs, hrun⟩ := bind_eq_some_iff.mp hrun
    have hdiscards := hkept e mem_cons_self
    by_cases hflushes : Flushes e.2
    · -- this is the flush
      obtain ⟨now, event⟩ := e
      cases event with
      | timerFires fails =>
        obtain ⟨due, hdue, hle, -⟩ := timerFires_cases hs
        have htimer := h.timer
        rw [hdue] at htimer
        obtain rfl := some.inj htimer
        exact ⟨[], now, fails, events, o, rfl, rfl, fun _ he => absurd he (by simp), h, hle⟩
      | _ => exact absurd hflushes id
    · have h₁ := h.step hs
      rw [batchAfter_some hdiscards hflushes] at h₁
      obtain ⟨between, now, fails, rest, o₂, rfl, hbetween, hnone, hholds, hle⟩ :=
        ih h₁ hrun fun e' he' => hkept e' (mem_cons_of_mem _ he')
      refine ⟨e :: between, now, fails, rest, o₂, rfl, ?_, ?_, hholds, hle⟩
      · rw [GuardedRuns.run, hs]
        exact hbetween
      · intro e' he'
        rcases mem_cons.mp he' with rfl | he'
        · exact hflushes
        · exact hnone e' he'

theorem first_mem {b' : Batch} (h : history.foldl batchAfter b = some b') :
    (∃ b₀, b = some b₀ ∧ b₀.first = b'.first) ∨ b'.first ∈ history.map Prod.fst := by
  induction history generalizing b with
  | nil => exact .inl ⟨b', h, rfl⟩
  | cons e history ih =>
    rcases ih h with ⟨b₁, hb₁, hfirst⟩ | hmem
    · have hafter : b = some b₁ ∨ (∃ b₀, b = some b₀ ∧ b₀.first = b₁.first) ∨ b₁.first = e.1 := by
        obtain ⟨now, event⟩ := e
        cases event with
        | fetch request =>
          cases request with
          | broadcast payload =>
            obtain rfl := some.inj hb₁
            cases b with
            | none => exact .inr (.inr rfl)
            | some b₀ => exact .inr (.inl ⟨b₀, rfl, rfl⟩)
          | reset => exact absurd hb₁ (by simp [batchAfter])
          | _ => exact .inl hb₁
        | timerFires fails => exact absurd hb₁ (by simp [batchAfter])
        | socketClosed socket => exact .inl hb₁
        | evicted => exact absurd hb₁ (by simp [batchAfter])
      rcases hafter with rfl | ⟨b₀, rfl, hb₀⟩ | he
      · exact .inl ⟨b₁, rfl, hfirst⟩
      · exact .inl ⟨b₀, rfl, hb₀.trans hfirst⟩
      · rw [map_cons, ← hfirst, he]
        exact .inr mem_cons_self
    · exact .inr (mem_cons_of_mem _ hmem)

theorem Holds.mem_sent {b : Batch} (h : Holds o (some b)) (hne : b.last ≠ []) {socket : ℕ}
    (hsocket : socket ∈ o.sockets) {fails : List ℕ} (hfails : socket ∉ fails) :
    (socket, b.last) ∈ sent o fails := by
  have hpayload : o.pendingBroadcastPayload = some b.last := h.payload
  have hempty : b.last.isEmpty = false := by
    rw [isEmpty_eq_false_iff]
    exact hne
  unfold sent
  rw [hpayload]
  dsimp only
  rw [hempty]
  refine mem_map_of_mem (mem_filter.mpr ⟨hsocket, ?_⟩)
  rw [Bool.not_eq_true', contains_eq_mem, decide_eq_false_iff_not]
  exact hfails

/-- **A payload is flushed.**  The object accepts a payload, is neither reset nor evicted, and is at
rest later.  Then its timer has fired in between; the first time that it did, it was due within a
second of the payload, and it sent the payload, or the latest one accepted until then, to every
socket that was there and did not fail. -/
theorem broadcast_is_flushed {sockets : List ℕ} {before after : List (ℕ × RelayEvent)} {t : ℕ}
    {payload : Text}
    (hrun : run RelayObject.step (new sockets)
      (before ++ (t, .fetch (.broadcast payload)) :: after) = some o')
    (hsorted : (before ++ (t, .fetch (.broadcast payload)) :: after).Pairwise
      fun e e' => e.1 ≤ e'.1)
    (hkept : ∀ e ∈ after, ¬ Discards e.2) (hrest : o'.pendingBroadcastTimer = none) :
    ∃ between now fails rest o, after = between ++ (now, .timerFires fails) :: rest ∧
      run RelayObject.step (new sockets) (before ++ (t, .fetch (.broadcast payload)) :: between) =
        some o ∧
      (∀ e ∈ between, ¬ Flushes e.2) ∧
      (∃ due, o.pendingBroadcastTimer = some due ∧ due ≤ now ∧
        due ≤ t + relayBroadcastBatchDelayMs) ∧
      (latest payload between ≠ [] → ∀ socket ∈ o.sockets, socket ∉ fails →
        (socket, latest payload between) ∈ sent o fails) := by
  obtain ⟨o₀, hbefore, hrest'⟩ := run_append_iff.mp hrun
  obtain ⟨o₁, hs, hafter⟩ := bind_eq_some_iff.mp hrest'
  have hholds := (run_batchOf hbefore).step hs
  obtain ⟨between, now, fails, rest, o₂, hsplit, hbetween, hnone, hflushed, hle⟩ :=
    hholds.flushed hafter hkept hrest
  have hfirst : ((batchOf before).map Batch.first).getD t ≤ t := by
    cases hbatch : batchOf before with
    | none => exact le_rfl
    | some b =>
      rcases first_mem hbatch with ⟨b₀, hb₀, -⟩ | hmem
      · exact absurd hb₀ (by simp)
      · obtain ⟨e, he, hfirst⟩ := mem_map.mp hmem
        rw [map_some, getD_some, ← hfirst]
        exact (pairwise_append.mp hsorted).2.2 e he _ mem_cons_self
  refine ⟨between, now, fails, rest, o₂, hsplit, ?_, hnone, ?_, ?_⟩
  · refine run_append_iff.mpr ⟨o₀, hbefore, ?_⟩
    rw [GuardedRuns.run, hs]
    exact hbetween
  · exact ⟨_, hflushed.timer, hle, Nat.add_le_add_right hfirst _⟩
  · intro hne socket hsocket hfails
    exact hflushed.mem_sent hne hsocket hfails

/-- Two payloads within a second, and the timer. -/
def twoPayloads : List (ℕ × RelayEvent) :=
  [(5, .fetch (.broadcast [120])), (6, .fetch (.broadcast [121])), (1005, .timerFires [])]

theorem twoPayloads_flushed :
    ∃ between now fails rest o,
      [(6, .fetch (.broadcast [121])), (1005, .timerFires [])] =
        between ++ (now, .timerFires fails) :: rest ∧
      run step (new [7]) ((5, .fetch (.broadcast [120])) :: between) = some o ∧
      (latest [120] between ≠ [] → ∀ socket ∈ o.sockets, socket ∉ fails →
        (socket, latest [120] between) ∈ sent o fails) := by
  obtain ⟨o', ho'⟩ : ∃ o', run step (new [7]) ([] ++ twoPayloads) = some o' := ⟨_, rfl⟩
  have hrest : o'.pendingBroadcastTimer = none := by
    obtain rfl := some.inj ho'
    rfl
  obtain ⟨between, now, fails, rest, o, hsplit, hrun, -, -, hsent⟩ :=
    broadcast_is_flushed ho' (by decide) (by simp [Discards]) hrest
  exact ⟨between, now, fails, rest, o, hsplit, hrun, hsent⟩

/-- **One flush a second.**  Two flushes of one object are at least a second apart. -/
theorem flushes_spaced {sockets : List ℕ} {before between after : List (ℕ × RelayEvent)}
    {t t' : ℕ} {fails fails' : List ℕ}
    (hrun : run RelayObject.step (new sockets) (before ++ (t, .timerFires fails) ::
      (between ++ (t', .timerFires fails') :: after)) = some o')
    (hsorted : (before ++ (t, .timerFires fails) :: (between ++ (t', .timerFires fails') ::
      after)).Pairwise fun e e' => e.1 ≤ e'.1) :
    t + relayBroadcastBatchDelayMs ≤ t' := by
  obtain ⟨o₀, hbefore, hrest⟩ := run_append_iff.mp hrun
  obtain ⟨o₁, hs, hrest⟩ := bind_eq_some_iff.mp hrest
  obtain ⟨o₂, hbetween, hrest⟩ := run_append_iff.mp hrest
  obtain ⟨o₃, hs', -⟩ := bind_eq_some_iff.mp hrest
  -- the first flush has left nothing, so the batch of the second one began after it
  have hempty : Holds o₁ none := (run_batchOf hbefore).step hs
  have hholds := hempty.along hbetween
  obtain ⟨due, hdue, hle, -⟩ := timerFires_cases hs'
  cases hbatch : between.foldl batchAfter none with
  | none =>
    rw [hbatch] at hholds
    rw [hholds.timer] at hdue
    exact absurd hdue (by simp)
  | some b =>
    rw [hbatch] at hholds
    have htimer := hholds.timer
    rw [hdue] at htimer
    have hfirst : due = b.first + relayBroadcastBatchDelayMs := some.inj htimer
    have hbegan : t ≤ b.first := by
      rcases first_mem hbatch with ⟨b₀, hb₀, -⟩ | hmem
      · exact absurd hb₀ (by simp)
      · obtain ⟨e, he, heq⟩ := mem_map.mp hmem
        have hlater := (pairwise_append.mp hsorted).2.1
        rw [← heq]
        exact rel_of_pairwise_cons hlater (mem_append_left _ he)
    omega

theorem twoFlushes_spaced : 1000 + relayBroadcastBatchDelayMs ≤ 2200 := by
  obtain ⟨o', ho'⟩ : ∃ o', run step (new []) ([(0, .fetch (.broadcast [120]))] ++
    (1000, .timerFires []) :: ([(1200, .fetch (.broadcast [121]))] ++
      (2200, .timerFires []) :: [])) = some o' := ⟨_, rfl⟩
  exact flushes_spaced ho' (by decide)

end RelayObject

end Interocitor
