import Interocitor.Awaits.Wakeups
import Interocitor.Relay.Object
import Interocitor.Relay.Subscription

/-!
# From a write to a pull

A write that a worker accepts is broadcast to the object of the mesh; the object sends it to its
sockets a second later; the socket of a client hands it to the subscription, the subscription to the
engine, and the engine pulls when its cooldown is over.  Each of these parts drops things.  The
object keeps one payload, the cooldown one flag, a pull under way one note; and they drop them while
other things arrive, so that what was dropped may be older or newer than what was kept.

Here they are put together, for one client: its engine with all that it has going on, its
subscription, the messages on their way to its socket, and the object.  Other clients are sockets of
the object.  A broadcast that the object has accepted is then in one of four places (the batch, the
wire, the cooldown, the note), and each step that does not make a pull of it hands it on, as long as
the connection and the engine are not disturbed.

An old subscription that was cancelled is not kept here.  Its socket is one of the others, and that
it may still report an error is an event of its own.

* `broadcast_is_pulled`: when nothing is on its way any more, a client that was listening when a
  payload was accepted has started a pull since, or was disturbed.
-/

namespace Interocitor

open CodeUnits GuardedRuns Unless Option

/-- A client and the object of its mesh.  `wire` holds what is on its way to the client, by
socket. -/
structure RelayWorld where
  object : RelayObject
  engine : Activity
  subscription : Option Subscription
  wire : List (ℕ × Text)
  deriving DecidableEq

/-- How the client was made: the engine, and whether the adapter's relay is enabled and its runtime
has sockets. -/
structure RelayClient where
  engine : ActivityConfig
  relayEnabled : Bool
  webSocket : Bool

/-- What can happen.  A new socket comes with its name where a constructor is called and does not
throw. -/
inductive RelayWorldEvent where
  | object (now : ℕ) (event : RelayEvent)
  | engine (event : ActivityEvent) (made : Option ℕ)
  | socket (event : SubscriptionEvent)
  | delivers (socket : ℕ)
  -- a subscription that was cancelled reports an error
  | leftover
  deriving DecidableEq

namespace RelayWorld

variable (client : RelayClient)

/-- The callback of the engine. -/
def callback : SubscriptionCall → ActivityEvent
  | .invalidate change => .relayMessage change
  | .ready => .relayStatus
  | .error => .relayStatus
  | .closed => .relayStatus

/-- The engine, after a subscription has called it. -/
def notified (engine : Activity) (calls : List SubscriptionCall) : Activity :=
  calls.foldl (fun a c => (Activity.step client.engine a (callback c)).getD a) engine

/-- The socket is one of the client's. -/
def mine (w : RelayWorld) (socket : ℕ) : Bool :=
  match w.subscription with
  | some s => (s.find socket).isSome
  | none => false

/-- What the object puts on the wire. -/
def delivered (w : RelayWorld) : RelayEvent → List (ℕ × Text)
  | .timerFires fails => (w.object.sent fails).filter fun m => w.mine m.1
  | _ => []

/-- A name for a socket that the object does not know. -/
def unused (w : RelayWorld) (made : Option ℕ) : Bool :=
  made.all fun n => !w.object.sockets.contains n

/-- The world after an event of the engine: going live replaces the subscription, and `disconnect`,
`setRemoteStorage` and a denial cancel it. -/
def subscribed (w : RelayWorld) (engine : Activity) (made : Option ℕ) : ActivityEvent → RelayWorld
  | .connectMoves _ (.finish true) =>
    let r := Subscription.subscribeToInvalidations client.relayEnabled client.webSocket made
    { w with engine := notified client engine r.2, subscription := r.1, wire := [] }
  | .connectMoves _ (.finish false) => { w with engine := engine, subscription := none, wire := [] }
  | .callDisconnect _ => { w with engine := engine, subscription := none, wire := [] }
  | .denied => { w with engine := engine, subscription := none, wire := [] }
  | .storageSwaps _ _ => { w with engine := engine, subscription := none, wire := [] }
  | _ => { w with engine := engine }

/-- The subscription calls back. -/
def called (w : RelayWorld) (r : Subscription × List SubscriptionCall) : RelayWorld :=
  { w with subscription := some r.1, engine := notified client w.engine r.2 }

/-- One step.  The relay's events of the engine come from the subscription; a socket opens when the
object has accepted it, and what is on its way to it is lost when it is closed. -/
def step (w : RelayWorld) : RelayWorldEvent → Option RelayWorld
  | .object now event =>
    (w.object.step (now, event)).map fun o =>
      { w with object := o, wire := w.wire ++ w.delivered event }
  | .engine (.relayMessage _) _ => none
  | .engine .relayStatus _ => none
  | .engine event made =>
    if w.unused made then
      (Activity.step client.engine w.engine event).map fun a => w.subscribed client a made event
    else none
  | .socket (.reconnects delayMs made) =>
    if w.unused made then
      (w.subscription.bind fun s => s.step (.reconnects delayMs made)).map (w.called client)
    else none
  | .socket (.opens socket) =>
    if w.object.sockets.contains socket then
      (w.subscription.bind fun s => s.step (.opens socket)).map (w.called client)
    else none
  | .socket (.errors socket) =>
    (w.subscription.bind fun s => s.step (.errors socket)).map (w.called client)
  | .socket (.closes socket) =>
    (w.subscription.bind fun s => s.step (.closes socket)).map fun r =>
      { w.called client r with wire := w.wire.filter fun m => m.1 ≠ socket }
  | .socket _ => none
  | .delivers socket =>
    (w.wire.find? fun m => m.1 = socket).bind fun m =>
      (w.subscription.bind fun s => s.step (.message socket m.2)).map fun r =>
        { w.called client r with wire := w.wire.erase m }
  | .leftover => some { w with engine := notified client w.engine [.error] }

variable {client} {w w' : RelayWorld}

/-! ## What a step is -/

theorem engine_cases {event : ActivityEvent} {made : Option ℕ}
    (hs : step client w (.engine event made) = some w') :
    w.unused made = true ∧ ∃ a, Activity.step client.engine w.engine event = some a ∧
      w' = w.subscribed client a made event := by
  unfold step at hs
  split at hs
  case h_4 event' made' hmessage hstatus heq =>
    obtain ⟨rfl, rfl⟩ := RelayWorldEvent.engine.inj heq
    split_ifs at hs with hunused
    obtain ⟨a, ha, rfl⟩ := map_eq_some_iff.mp hs
    exact ⟨hunused, a, ha, rfl⟩
  all_goals simp_all

theorem socket_cases {event : SubscriptionEvent} (hs : step client w (.socket event) = some w') :
    ∃ s r wire, w.subscription = some s ∧ s.step event = some r ∧ event ≠ .unsubscribe ∧
      w' = { w.called client r with wire := wire } ∧
      ((∀ socket, event ≠ .closes socket) → wire = w.wire) := by
  have hbind : ∀ {event : SubscriptionEvent} {r},
      (w.subscription.bind fun s => s.step event) = some r →
        ∃ s, w.subscription = some s ∧ s.step event = some r :=
    fun h => bind_eq_some_iff.mp h
  cases event with
  | reconnects delayMs made =>
    rw [step] at hs
    split_ifs at hs
    obtain ⟨r, hr, rfl⟩ := map_eq_some_iff.mp hs
    obtain ⟨s, hs, hstep⟩ := hbind hr
    exact ⟨s, r, w.wire, hs, hstep, by simp, rfl, fun _ => rfl⟩
  | opens socket =>
    rw [step] at hs
    split_ifs at hs
    obtain ⟨r, hr, rfl⟩ := map_eq_some_iff.mp hs
    obtain ⟨s, hs, hstep⟩ := hbind hr
    exact ⟨s, r, w.wire, hs, hstep, by simp, rfl, fun _ => rfl⟩
  | message socket data => exact absurd hs (by simp [step])
  | errors socket =>
    obtain ⟨r, hr, rfl⟩ := map_eq_some_iff.mp hs
    obtain ⟨s, hs, hstep⟩ := hbind hr
    exact ⟨s, r, w.wire, hs, hstep, by simp, rfl, fun _ => rfl⟩
  | closes socket =>
    obtain ⟨r, hr, rfl⟩ := map_eq_some_iff.mp hs
    obtain ⟨s, hs, hstep⟩ := hbind hr
    exact ⟨s, r, _, hs, hstep, by simp, rfl, fun hne => absurd rfl (hne socket)⟩
  | unsubscribe => exact absurd hs (by simp [step])

variable {socket : ℕ}

theorem delivers_cases (hs : step client w (.delivers socket) = some w') :
    ∃ m s r, m ∈ w.wire ∧ m.1 = socket ∧ w.subscription = some s ∧
      s.step (.message socket m.2) = some r ∧
      w' = { w.called client r with wire := w.wire.erase m } := by
  obtain ⟨m, hm, hmap⟩ := bind_eq_some_iff.mp hs
  obtain ⟨r, hr, rfl⟩ := map_eq_some_iff.mp hmap
  obtain ⟨s, hsub, hstep⟩ := bind_eq_some_iff.mp hr
  have hsocket := List.find?_some hm
  exact ⟨m, s, r, List.mem_of_find?_eq_some hm, of_decide_eq_true hsocket, hsub, hstep, rfl⟩

/-! ## What the callbacks do -/

theorem callback_spec (client : RelayClient) (a : Activity) (c : SubscriptionCall) :
    ∃ a', Activity.step client.engine a (callback c) = some a' ∧ a'.connected = a.connected ∧
      a'.relay.pulls = a.relay.pulls ∧ (a.Counted → a'.Counted) ∧
      ∀ i, a.Counted → Activity.Waits i a → ∃ j, Activity.Waits j a' := by
  obtain ⟨a', ha'⟩ : ∃ a', Activity.step client.engine a (callback c) = some a' := by
    cases c <;> exact ⟨_, rfl⟩
  have hstops : ¬ Activity.Stops (callback c) := by cases c <;> exact id
  have hstarts : ¬ Activity.PullStarts a (callback c) := fun h => by
    cases c <;> exact absurd h.1 (by simp [callback])
  have hframe : a'.connected = a.connected ∧ a'.relay.pulls = a.relay.pulls := by
    cases c with
    | invalidate change =>
      obtain ⟨timer, rfl⟩ := Activity.relayMessage_cases ha'
      obtain ⟨hconnected, hpulls, -, -⟩ := Activity.scheduleInvalidationPull_frame
        { a with compactions := { a.compactions with retentionTimer := timer } }
      exact ⟨hconnected, hpulls⟩
    | _ =>
      obtain ⟨hrelay, hconnected⟩ := Activity.relay_of_step ha' hstops id
      exact ⟨hconnected, by rw [hrelay]⟩
  refine ⟨a', ha', hframe.1, hframe.2, fun h => Activity.counted_step h ha', fun i h hi => ?_⟩
  rcases Activity.waits_step i h hi ha' with (h | h) | h
  · exact absurd h hstarts
  · exact absurd h hstops
  · exact h

theorem notified_spec (client : RelayClient) (a : Activity) (calls : List SubscriptionCall) :
    (notified client a calls).connected = a.connected ∧
      (notified client a calls).relay.pulls = a.relay.pulls ∧
      (a.Counted → (notified client a calls).Counted) ∧
      ∀ i, a.Counted → Activity.Waits i a → ∃ j, Activity.Waits j (notified client a calls) := by
  induction calls generalizing a with
  | nil => exact ⟨rfl, rfl, id, fun i _ hi => ⟨i, hi⟩⟩
  | cons c calls ih =>
    obtain ⟨a', ha', hconnected, hpulls, hcounted, hwaits⟩ := callback_spec client a c
    have hcons : notified client a (c :: calls) = notified client a' calls := by
      show notified client ((Activity.step client.engine a (callback c)).getD a) calls = _
      rw [ha', getD_some]
    obtain ⟨ihconnected, ihpulls, ihcounted, ihwaits⟩ := ih a'
    rw [hcons]
    refine ⟨ihconnected.trans hconnected, ihpulls.trans hpulls, fun h => ihcounted (hcounted h),
      fun i h hi => ?_⟩
    obtain ⟨j, hj⟩ := hwaits i h hi
    exact ihwaits j (hcounted h) hj

/-! ## The parts keep their invariants -/

/-- The object holds a batch, the subscription goes on with one attempt at a time, and the engine
knows of the pull that counts. -/
structure Sound (w : RelayWorld) : Prop where
  batch : ∃ b, w.object.Holds b
  one : ∀ s, w.subscription = some s → s.One ∧ s.cancelled = false
  counted : w.engine.Counted

variable {s : Subscription}

theorem Sound.withSubscription (h : Sound w) {r : Subscription × List SubscriptionCall}
    (hs : w.subscription = some s) {e : SubscriptionEvent} (hstep : s.step e = some r)
    (he : e ≠ .unsubscribe) (wire : List (ℕ × Text)) :
    Sound { w.called client r with wire := wire } where
  batch := h.batch
  one t ht := by
    obtain rfl := some.inj ht
    obtain ⟨hone, hgoing⟩ := h.one s hs
    exact ⟨Subscription.one_step hone hstep, (Subscription.cancelled_step hstep he).trans hgoing⟩
  counted := (notified_spec client w.engine r.2).2.2.1 h.counted

theorem Sound.subscribed (h : Sound w) {a : Activity} (ha : a.Counted) (made : Option ℕ)
    (event : ActivityEvent) : Sound (w.subscribed client a made event) := by
  unfold RelayWorld.subscribed
  split
  · refine ⟨h.batch, fun s hs => ?_, (notified_spec client a _).2.2.1 ha⟩
    have hsome : (Subscription.subscribeToInvalidations client.relayEnabled client.webSocket
        made).1 = some s := hs
    exact ⟨Subscription.one_subscribe (Prod.ext hsome rfl), Subscription.going_subscribe hsome⟩
  · exact ⟨h.batch, fun s hs => absurd hs (by simp), ha⟩
  · exact ⟨h.batch, fun s hs => absurd hs (by simp), ha⟩
  · exact ⟨h.batch, fun s hs => absurd hs (by simp), ha⟩
  · exact ⟨h.batch, fun s hs => absurd hs (by simp), ha⟩
  · exact ⟨h.batch, h.one, ha⟩

variable {e : RelayWorldEvent}

theorem sound_step (h : Sound w) (hs : step client w e = some w') : Sound w' := by
  cases e with
  | object now event =>
    obtain ⟨o, ho, rfl⟩ := map_eq_some_iff.mp hs
    obtain ⟨b, hb⟩ := h.batch
    exact ⟨⟨_, hb.step ho⟩, h.one, h.counted⟩
  | engine event made =>
    obtain ⟨hunused, a, ha, rfl⟩ := engine_cases hs
    exact h.subscribed (Activity.counted_step h.counted ha) made event
  | socket event =>
    obtain ⟨s, r, wire, hsub, hstep, hne, rfl, -⟩ := socket_cases hs
    exact h.withSubscription hsub hstep hne wire
  | delivers socket =>
    obtain ⟨m, s, r, -, -, hsub, hstep, rfl⟩ := delivers_cases hs
    exact h.withSubscription hsub hstep (by simp) _
  | leftover =>
    obtain rfl := some.inj hs
    exact ⟨h.batch, h.one, (notified_spec client w.engine [.error]).2.2.1 h.counted⟩

/-! ## Where a broadcast is -/

/-- The client calls back for the payload. -/
def Invalidates (payload : Text) : Prop := payload ≠ [] ∧ (Relay.received payload).isSome = true

/-- The client is connected, its socket is open, and the object has it. -/
structure Listening (socket : ℕ) (w : RelayWorld) : Prop where
  connected : w.engine.connected = true
  opened : ∃ s, w.subscription = some s ∧ s.find socket = some ⟨socket, true, false⟩
  accepted : socket ∈ w.object.sockets

/-- The places in which a broadcast is on its way to the engine, and those in the engine. -/
inductive Place where
  | batch
  | wire
  | engine (wait : Activity.Wait)
  deriving DecidableEq

/-- A broadcast is in a place. -/
def InPlace (socket : ℕ) : Place → RelayWorld → Prop
  | .batch, w => Listening socket w ∧
      ∃ payload, w.object.pendingBroadcastPayload = some payload ∧ Invalidates payload
  | .wire, w => Listening socket w ∧
      ∃ payload, (socket, payload) ∈ w.wire ∧ (Relay.received payload).isSome = true
  | .engine wait, w => w.engine.Waits wait

/-- What disturbs the connection or the engine: the object is reset or evicted, or accepts a payload
that its clients ignore; the socket fails or is closed; the engine is stopped. -/
def Disturbs (socket : ℕ) : RelayWorldEvent → Prop
  | .object _ (.fetch .reset) => True
  | .object _ (.fetch (.broadcast payload)) => ¬ Invalidates payload
  | .object _ (.timerFires fails) => socket ∈ fails
  | .object _ (.socketClosed closed) => closed = socket
  | .object _ .evicted => True
  | .socket (.closes _) => True
  | .engine event _ => Activity.Stops event
  | _ => False

/-- The end of a cooldown starts a pull. -/
def PullStarts (w : RelayWorld) (e : RelayWorldEvent) : Prop :=
  ∃ event made, e = .engine event made ∧ w.unused made = true ∧ w.engine.PullStarts event

theorem accepted_step {o o' : RelayObject} {now : ℕ} {event : RelayEvent} (h : socket ∈ o.sockets)
    (hs : o.step (now, event) = some o') (hd : ¬ Disturbs socket (.object now event)) :
    socket ∈ o'.sockets := by
  cases event with
  | fetch request =>
    obtain rfl := some.inj hs
    cases request with
    | connect upgrade new =>
      cases upgrade
      · exact h
      · exact List.mem_append_left _ h
    | broadcast payload =>
      show socket ∈ (RelayObject.scheduleBroadcastFlush now _).sockets
      unfold RelayObject.scheduleBroadcastFlush
      split
      · exact h
      · exact h
    | status => exact h
    | reset => exact h
    | other => exact h
  | timerFires fails =>
    obtain ⟨-, -, -, rfl⟩ := RelayObject.timerFires_cases hs
    exact h
  | socketClosed closed =>
    obtain rfl := some.inj hs
    exact (List.mem_erase_of_ne fun heq => hd heq.symm).mpr h
  | evicted =>
    obtain rfl := some.inj hs
    exact h

theorem find_eq {other : ℕ} {x : RelaySocket} (hone : s.One)
    (hopen : s.find socket = some ⟨socket, true, false⟩) (hx : s.find other = some x) :
    x = ⟨socket, true, false⟩ := by
  have hsockets := (hone.of_find hopen).1
  rw [(hone.of_find hx).1] at hsockets
  exact (List.cons_eq_cons.mp hsockets).1

/-- What a subscription with an open socket can do, apart from being cancelled: call back, report an
error, or be closed. -/
theorem open_step {e : SubscriptionEvent} {r : Subscription × List SubscriptionCall} (hone : s.One)
    (hopen : s.find socket = some ⟨socket, true, false⟩) (hs : s.step e = some r)
    (hne : e ≠ .unsubscribe) (hcloses : ∀ other, e ≠ .closes other) : r.1 = s := by
  obtain ⟨s', calls⟩ := r
  cases e with
  | reconnects delayMs made =>
    rw [Subscription.step] at hs
    split_ifs at hs with hd
    rw [Bool.and_eq_true] at hd
    have hempty := (hone.of_find hopen).2.2
    rw [(hone.of_timer hd.1).1] at hempty
    exact absurd hempty (by simp)
  | opens other =>
    obtain ⟨x, hx, hclosed, -⟩ := Subscription.opens_cases hs
    rw [find_eq hone hopen hx] at hclosed
    exact absurd hclosed (by simp)
  | message other data =>
    obtain ⟨-, -, -, -, rfl, -⟩ := Subscription.message_cases hs
    rfl
  | errors other =>
    obtain ⟨-, -, heq⟩ := map_eq_some_iff.mp hs
    obtain ⟨rfl, -⟩ := Prod.mk.inj heq
    rfl
  | closes other => exact absurd rfl (hcloses other)
  | unsubscribe => exact absurd rfl hne

theorem subscribed_of_not_stops {a : Activity} {made : Option ℕ} {event : ActivityEvent}
    (h : ¬ Activity.Stops event) : w.subscribed client a made event = { w with engine := a } := by
  unfold RelayWorld.subscribed
  split
  · exact absurd trivial h
  · exact absurd trivial h
  · exact absurd trivial h
  · exact absurd trivial h
  · exact absurd trivial h
  · rfl

/-- **Listening.**  A client that listens goes on listening unless it is disturbed. -/
theorem listening_step (hsound : Sound w) (h : Listening socket w) (hs : step client w e = some w')
    (hd : ¬ Disturbs socket e) : Listening socket w' := by
  obtain ⟨s, hsub, hopen⟩ := h.opened
  obtain ⟨hone, -⟩ := hsound.one s hsub
  cases e with
  | object now event =>
    obtain ⟨o, ho, rfl⟩ := map_eq_some_iff.mp hs
    exact ⟨h.connected, h.opened, accepted_step h.accepted ho hd⟩
  | engine event made =>
    obtain ⟨hunused, a, ha, rfl⟩ := engine_cases hs
    rw [subscribed_of_not_stops hd]
    exact ⟨(Activity.connected_of_step ha hd).trans h.connected, h.opened, h.accepted⟩
  | socket event =>
    obtain ⟨t, r, wire, ht, hstep, hne, rfl, -⟩ := socket_cases hs
    rw [hsub] at ht
    obtain rfl := some.inj ht
    have hsame := open_step hone hopen hstep hne fun other heq => hd (by rw [heq]; exact trivial)
    exact ⟨(notified_spec client w.engine r.2).1.trans h.connected,
      ⟨r.1, rfl, by rw [hsame]; exact hopen⟩, h.accepted⟩
  | delivers other =>
    obtain ⟨m, t, r, -, -, ht, hstep, rfl⟩ := delivers_cases hs
    rw [hsub] at ht
    obtain rfl := some.inj ht
    have hsame := open_step hone hopen hstep (by simp) (by simp)
    exact ⟨(notified_spec client w.engine r.2).1.trans h.connected,
      ⟨r.1, rfl, by rw [hsame]; exact hopen⟩, h.accepted⟩
  | leftover =>
    obtain rfl := some.inj hs
    exact ⟨(notified_spec client w.engine [.error]).1.trans h.connected, h.opened, h.accepted⟩

theorem engine_step (socket : ℕ) {wait : Activity.Wait} (hsound : Sound w)
    (hw : w.engine.Waits wait) (hs : step client w e = some w') :
    (PullStarts w e ∨ Disturbs socket e) ∨ ∃ j, w'.engine.Waits j := by
  have hnotified : ∀ calls, ∃ j, (notified client w.engine calls).Waits j := fun calls =>
    (notified_spec client w.engine calls).2.2.2 wait hsound.counted hw
  cases e with
  | object now event =>
    obtain ⟨o, ho, rfl⟩ := map_eq_some_iff.mp hs
    exact .inr ⟨wait, hw⟩
  | engine event made =>
    obtain ⟨hunused, a, ha, rfl⟩ := engine_cases hs
    by_cases hstops : Activity.Stops event
    · exact .inl (.inr hstops)
    · rw [subscribed_of_not_stops hstops]
      rcases Activity.waits_step wait hsound.counted hw ha with (hstarts | hstop) | hwaits
      · exact .inl (.inl ⟨event, made, rfl, hunused, hstarts⟩)
      · exact absurd hstop hstops
      · exact .inr hwaits
  | socket event =>
    obtain ⟨s, r, wire, -, -, -, rfl, -⟩ := socket_cases hs
    exact .inr (hnotified r.2)
  | delivers other =>
    obtain ⟨m, s, r, -, -, -, -, rfl⟩ := delivers_cases hs
    exact .inr (hnotified r.2)
  | leftover =>
    obtain rfl := some.inj hs
    exact .inr (hnotified [.error])

theorem batch_step (hsound : Sound w) (h : InPlace socket .batch w) (hs : step client w e = some w')
    (hd : ¬ Disturbs socket e) : ∃ p, InPlace socket p w' := by
  obtain ⟨hlisten, payload, hpayload, hinvalidates⟩ := h
  have hlisten' := listening_step hsound hlisten hs hd
  have hsame : w'.object.pendingBroadcastPayload = w.object.pendingBroadcastPayload →
      ∃ p, InPlace socket p w' := fun heq =>
    ⟨.batch, hlisten', payload, heq.trans hpayload, hinvalidates⟩
  cases e with
  | object now event =>
    obtain ⟨o, ho, rfl⟩ := map_eq_some_iff.mp hs
    cases event with
    | fetch request =>
      obtain rfl := some.inj ho
      cases request with
      | connect upgrade new =>
        cases upgrade
        · exact hsame rfl
        · exact hsame rfl
      | broadcast later =>
        refine ⟨.batch, hlisten', later, ?_, not_not.mp hd⟩
        show (RelayObject.scheduleBroadcastFlush now _).pendingBroadcastPayload = some later
        unfold RelayObject.scheduleBroadcastFlush
        split
        · rfl
        · rfl
      | status => exact hsame rfl
      | reset => exact absurd trivial hd
      | other => exact hsame rfl
    | timerFires fails =>
      obtain ⟨s, hsub, hopen⟩ := hlisten.opened
      refine ⟨.wire, hlisten', payload, List.mem_append_right _ (List.mem_filter.mpr ⟨?_, ?_⟩),
        hinvalidates.2⟩
      · obtain ⟨b, hb⟩ := hsound.batch
        have hlast := hb.payload
        rw [hpayload] at hlast
        obtain ⟨b', rfl, rfl⟩ := map_eq_some_iff.mp hlast.symm
        exact hb.mem_sent hinvalidates.1 hlisten.accepted hd
      · show w.mine socket = true
        unfold mine
        rw [hsub]
        dsimp only
        rw [hopen]
        rfl
    | socketClosed closed =>
      obtain rfl := some.inj ho
      exact hsame rfl
    | evicted => exact absurd trivial hd
  | engine event made =>
    obtain ⟨-, a, -, rfl⟩ := engine_cases hs
    rw [subscribed_of_not_stops hd] at *
    exact hsame rfl
  | socket event =>
    obtain ⟨s, r, wire, -, -, -, rfl, -⟩ := socket_cases hs
    exact hsame rfl
  | delivers other =>
    obtain ⟨m, s, r, -, -, -, -, rfl⟩ := delivers_cases hs
    exact hsame rfl
  | leftover =>
    obtain rfl := some.inj hs
    exact hsame rfl

theorem wire_step (hsound : Sound w) (h : InPlace socket .wire w) (hs : step client w e = some w')
    (hd : ¬ Disturbs socket e) : ∃ p, InPlace socket p w' := by
  obtain ⟨hlisten, payload, hmem, hreceived⟩ := h
  have hlisten' := listening_step hsound hlisten hs hd
  have hkept : (socket, payload) ∈ w'.wire → ∃ p, InPlace socket p w' := fun hmem' =>
    ⟨.wire, hlisten', payload, hmem', hreceived⟩
  cases e with
  | object now event =>
    obtain ⟨o, ho, rfl⟩ := map_eq_some_iff.mp hs
    exact hkept (List.mem_append_left _ hmem)
  | engine event made =>
    obtain ⟨-, a, -, rfl⟩ := engine_cases hs
    rw [subscribed_of_not_stops hd] at *
    exact hkept hmem
  | socket event =>
    obtain ⟨s, r, wire, -, -, -, rfl, hwire⟩ := socket_cases hs
    refine hkept ?_
    rw [hwire fun other heq => hd (by rw [heq]; exact trivial)]
    exact hmem
  | delivers other =>
    obtain ⟨m, s, r, hm, hsocket, hsub, hstep, rfl⟩ := delivers_cases hs
    by_cases heq : (socket, payload) = m
    · -- this is the message
      obtain ⟨s', calls⟩ := r
      obtain ⟨x, -, -, -, -, hcalls⟩ := Subscription.message_cases hstep
      obtain ⟨change, hchange⟩ := isSome_iff_exists.mp hreceived
      have hinvalidate : calls = [.invalidate change] := by
        rw [hcalls, ← heq, hchange]
        rfl
      have hmessage : ∃ a, Activity.step client.engine w.engine (.relayMessage change) = some a ∧
          notified client w.engine calls = a := ⟨_, rfl, by rw [hinvalidate]; rfl⟩
      obtain ⟨a, ha, hnotified⟩ := hmessage
      obtain ⟨timer, rfl⟩ := Activity.relayMessage_cases ha
      refine ⟨.engine .cooldown, ?_⟩
      show (notified client w.engine calls).Waits .cooldown
      rw [hnotified]
      exact Activity.waits_scheduleInvalidationPull hlisten.connected
    · exact hkept ((List.mem_erase_of_ne heq).mpr hmem)
  | leftover =>
    obtain rfl := some.inj hs
    exact hkept hmem

/-- **One step.**  A broadcast in some place is handed on, unless its pull is started or the client
is disturbed. -/
theorem place_step (socket : ℕ) (p : Place) (hsound : Sound w) (h : InPlace socket p w)
    (hs : step client w e = some w') :
    (PullStarts w e ∨ Disturbs socket e) ∨ ∃ p', InPlace socket p' w' := by
  by_cases hd : Disturbs socket e
  · exact .inl (.inr hd)
  cases p with
  | batch => exact .inr (batch_step hsound h hs hd)
  | wire => exact .inr (wire_step hsound h hs hd)
  | engine wait =>
    rcases engine_step socket hsound h hs with hq | ⟨j, hj⟩
    · exact .inl hq
    · exact .inr ⟨.engine j, hj⟩

/-! ## Runs -/

/-- A client that was just made, and an object with the sockets of others. -/
def start (pendingBatch : Bool) (sockets : List ℕ) : RelayWorld :=
  ⟨.new sockets, .start pendingBatch, none, []⟩

theorem sound_start (pendingBatch : Bool) (sockets : List ℕ) : Sound (start pendingBatch sockets) :=
  ⟨⟨none, RelayObject.holds_new sockets⟩, fun _ hs => absurd hs (by simp [start]),
    Activity.counted_start pendingBatch⟩

/-- A step by which the client starts a pull for the relay. -/
def StartsPull (client : RelayClient) (w : RelayWorld) (e : RelayWorldEvent) : Prop :=
  ∃ w', step client w e = some w' ∧ w.engine.relay.pulls < w'.engine.relay.pulls

/-- Nothing is on its way: the object has no timer, the wire is empty, and the engine has no
cooldown and no pull for the relay. -/
structure Quiet (w : RelayWorld) : Prop where
  timer : w.object.pendingBroadcastTimer = none
  wire : w.wire = []
  cooldown : w.engine.relay.cooldownTimer = false
  pulls : w.engine.relay.pulls = 0

theorem not_inPlace_of_quiet {p : Place} (hsound : Sound w) (h : Quiet w) :
    ¬ InPlace socket p w := by
  intro hp
  cases p with
  | batch =>
    obtain ⟨-, payload, hpayload, -⟩ := hp
    obtain ⟨b, hb⟩ := hsound.batch
    have htimer := hb.timer
    rw [h.timer] at htimer
    rw [hb.payload, map_eq_none_iff.mp htimer.symm] at hpayload
    exact absurd hpayload (by simp)
  | wire =>
    obtain ⟨-, payload, hmem, -⟩ := hp
    rw [h.wire] at hmem
    exact absurd hmem List.not_mem_nil
  | engine wait =>
    cases wait with
    | cooldown =>
      have hcooldown := hp.2
      rw [h.cooldown] at hcooldown
      exact absurd hcooldown (by simp)
    | replay =>
      have hpulls := hp.2.2
      rw [h.pulls] at hpulls
      exact absurd hpulls (Nat.lt_irrefl 0)

theorem PullStarts.startsPull (h : PullStarts w e) : StartsPull client w e := by
  obtain ⟨event, made, rfl, hunused, hstarts⟩ := h
  obtain ⟨a, ha, hpulls⟩ := hstarts.startsPull client.engine
  obtain rfl := hstarts.1
  refine ⟨{ w with engine := a }, ?_, hpulls⟩
  show (if w.unused made = true then _ else none) = _
  rw [if_pos hunused, ha]
  rfl

/-- **From a write to a pull.**  A client is connected, its socket is open, and the object of its
mesh accepts a payload that is an invalidation.  Later nothing is on its way: no batch, no message,
no cooldown, no pull for the relay.  Then the client has started a pull since, or something has
disturbed the connection or the engine. -/
theorem broadcast_is_pulled (client : RelayClient) (pendingBatch : Bool) (sockets : List ℕ)
    {before after : List RelayWorldEvent} {now socket : ℕ} {payload : Text} {w w₁ w' : RelayWorld}
    (hbefore : run (step client) (start pendingBatch sockets) before = some w)
    (hlisten : Listening socket w) (hpayload : Invalidates payload)
    (haccept : step client w (.object now (.fetch (.broadcast payload))) = some w₁)
    (hafter : run (step client) w₁ after = some w') (hquiet : Quiet w') :
    Occurs (step client) (fun w e => StartsPull client w e ∨ Disturbs socket e) w₁ after := by
  have hsound : Sound w := invariant_run (fun _ _ _ => sound_step) (sound_start _ _) hbefore
  have hsound₁ := sound_step hsound haccept
  have hplace : InPlace socket .batch w₁ := by
    refine ⟨listening_step hsound hlisten haccept (not_not.mpr hpayload), payload, ?_, hpayload⟩
    obtain rfl := some.inj haccept
    show (RelayObject.scheduleBroadcastFlush now _).pendingBroadcastPayload = some payload
    unfold RelayObject.scheduleBroadcastFlush
    split
    · rfl
    · rfl
  have hkeeps : Keeps (step client) Sound (fun w => ∃ p, InPlace socket p w)
      (fun w e => PullStarts w e ∨ Disturbs socket e) :=
    Keeps.handover fun p _ _ _ hI hp hs => place_step socket p hI hp hs
  rcases hkeeps.run (fun _ _ _ => sound_step) hsound₁ ⟨_, hplace⟩ hafter with hocc | ⟨p, hp⟩
  · exact hocc.mono fun _ _ => Or.imp_left PullStarts.startsPull
  · have hsound' := invariant_run (fun _ _ _ => sound_step) hsound₁ hafter
    exact absurd hp (not_inPlace_of_quiet hsound' hquiet)

/-- An adapter whose relay is enabled, in a runtime with sockets. -/
def subscriber : RelayClient := ⟨Activity.writer, true, true⟩

/-- The client connects and subscribes, and the object accepts its socket. -/
def subscribing : List RelayWorldEvent :=
  (Activity.connecting ++ Activity.connectRest).map (fun event => .engine event (some 1)) ++
    [.object 0 (.fetch (.connect true 1)), .socket (.opens 1)]

/-- The text of `{"type":"compact"}`. -/
def compactPayload : Text :=
  [123, 34, 116, 121, 112, 101, 34, 58, 34, 99, 111, 109, 112, 97, 99, 116, 34, 125]

/-- The timer of the object, the message, the cooldown, and the end of the pull. -/
def arriving : List RelayWorldEvent :=
  [.object 1000 (.timerFires []), .delivers 1, .engine .cooldownFires none,
    .engine .relayPullEnds none]

theorem compact_is_pulled :
    ∃ w w₁ w', run (step subscriber) (start false [7]) subscribing = some w ∧
      step subscriber w (.object 0 (.fetch (.broadcast compactPayload))) = some w₁ ∧
      run (step subscriber) w₁ arriving = some w' ∧
      Occurs (step subscriber) (fun w e => StartsPull subscriber w e ∨ Disturbs 1 e) w₁
        arriving := by
  obtain ⟨w, hw⟩ : ∃ w, run (step subscriber) (start false [7]) subscribing = some w := ⟨_, rfl⟩
  obtain ⟨w₁, hw₁⟩ : ∃ w₁, step subscriber w (.object 0 (.fetch (.broadcast compactPayload))) =
    some w₁ := ⟨_, rfl⟩
  obtain ⟨w', hw'⟩ : ∃ w', run (step subscriber) w₁ arriving = some w' := by
    obtain rfl := some.inj hw
    obtain rfl := some.inj hw₁
    exact ⟨_, rfl⟩
  have hlisten : Listening 1 w := by
    obtain rfl := some.inj hw
    exact ⟨rfl, ⟨_, rfl, rfl⟩, by decide⟩
  have hquiet : Quiet w' := by
    obtain rfl := some.inj hw
    obtain rfl := some.inj hw₁
    obtain rfl := some.inj hw'
    exact ⟨rfl, rfl, rfl, rfl⟩
  exact ⟨w, w₁, w', hw, hw₁, hw',
    broadcast_is_pulled subscriber false [7] hw hlisten ⟨by decide, by decide⟩ hw₁ hw' hquiet⟩

end RelayWorld

end Interocitor
