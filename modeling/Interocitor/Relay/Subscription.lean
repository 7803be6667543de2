import Interocitor.Foundation.Unless
import Interocitor.Handshake.Capabilities
import Interocitor.Native.StoredFrames

/-!
# `cloudflare.ts`: a subscription to invalidations

A subscription keeps a socket to the object of its mesh.  When the socket is closed it waits and
makes another one, and it waits longer each time, up to half a minute; a socket that opens resets
that.  Sockets that close before they have opened are counted, and after the fifth in a row the
subscription waits for an hour.  It never gives up.

The sockets and the timers are kept in lists, for nothing in the code says that there is one of
them; `One` says it, and it is an invariant.  That matters when the subscription is cancelled: what
is closed then is the socket in the variable `ws`, and there is no other.  A closing socket is not
opened any more and receives nothing; it may still report an error.

* `subscription_sound`: at any time there is one socket or one timer; the waits are at least a
  second; and a subscription that is cancelled is silent, but for errors.
* `received_payload`: every payload that the worker broadcasts is an invalidation to its clients.
-/

namespace Interocitor

open CodeUnits GuardedRuns Unless JsonText JsonReader List Option

/-! ## Messages -/

namespace Relay

/-- `"type"`. -/
def typeName : Text := [116, 121, 112, 101]

/-- `"path"`. -/
def pathName : Text := [112, 97, 116, 104]

/-- `"pathType"`. -/
def pathTypeName : Text := [112, 97, 116, 104, 84, 121, 112, 101]

/-- `"op"`. -/
def opName : Text := [111, 112]

/-- `"ts"`. -/
def tsName : Text := [116, 115]

/-- `"invalidation"`. -/
def invalidationType : Text := [105, 110, 118, 97, 108, 105, 100, 97, 116, 105, 111, 110]

/-- `"invalidate"`. -/
def invalidateType : Text := [105, 110, 118, 97, 108, 105, 100, 97, 116, 101]

/-- `"compact"`. -/
def compactType : Text := [99, 111, 109, 112, 97, 99, 116]

/-- `"change"`. -/
def changeType : Text := [99, 104, 97, 110, 103, 101]

/-- `"/changes/"`. -/
def changesPart : Text := [47, 99, 104, 97, 110, 103, 101, 115, 47]

/-- `includes` of a string. -/
def includes (part t : Text) : Bool := t.tails.any part.isPrefixOf

/-- `payload.pathType === "change" || payload.path.includes("/changes/")`, in the callback of the
engine; `none` if it throws. -/
def isChange (payload : JsValue) : Option Bool :=
  match Handshake.property pathTypeName payload, Handshake.property pathName payload with
  | .string t, .string path => some (decide (t = changeType) || includes changesPart path)
  | _, .string path => some (includes changesPart path)
  | .string t, .array items => some (decide (t = changeType) || items.any (isText changesPart))
  | _, .array items => some (items.any (isText changesPart))
  | .string t, _ => if t = changeType then some true else none
  | _, _ => none
where
  /-- Is the value this string? -/
  isText (t : Text) : JsValue → Bool
    | .string s => decide (s = t)
    | _ => false

/-- `onmessage`: whether the callback is called, and whether it then is about a change.  What cannot
be read, or what the callback throws on, is passed on as an invalidation of an unknown type. -/
def received (data : Text) : Option Bool :=
  match jsonParse data with
  | none => some false
  | some .null => some false
  | some message =>
    match Handshake.property typeName message with
    | .string t =>
      if t = invalidationType ∨ t = invalidateType ∨ t = compactType then
        some ((isChange message).getD false)
      else none
    | _ => none

/-- What the worker broadcasts after a write, with the type of the path, or a delete, without. -/
def payloadFields (op path : Text) (pathType : Option Text) (ts : ℕ) : List (Text × JsValue) :=
  [(typeName, .string invalidationType), (opName, .string op), (pathName, .string path)] ++
    (pathType.map fun t => (pathTypeName, .string t)).toList ++ [(tsName, .number (.finite ts))]

theorem jsonWritten_nat {P : Printers} {m : ℕ} (hm : m < 2 ^ 53)
    (hnumber : P.number (.finite m) = numeral 10 m) (n : ℕ) :
    JsonWritten P (n + 1) (numeral 10 m) (.number (.finite m)) where
  text := by rw [stringify, hnumber]
  parses := parses_numeral (congrArg (fun x => some (JsValue.number x))
    (StoredFrames.jsNumber_ofNat hm)) n
  solid := solid_numeral m
  wellFormed := isWellFormed_of_plain fun _ hu =>
    isSurrogate_of_mem_numeral (by norm_num) (by norm_num) hu

theorem payloadFields_cases {op path : Text} {pathType : Option Text} {ts : ℕ} {f : Text × JsValue}
    (hf : f ∈ payloadFields op path pathType ts) :
    (∃ s, f.2 = .string s) ∨ f.2 = .number (.finite ts) := by
  simp only [payloadFields, mem_append, mem_cons, not_mem_nil, or_false,
    Option.mem_toList, map_eq_some_iff] at hf
  rcases hf with ((rfl | rfl | rfl) | ⟨t, -, rfl⟩) | rfl
  · exact .inl ⟨_, rfl⟩
  · exact .inl ⟨_, rfl⟩
  · exact .inl ⟨_, rfl⟩
  · exact .inl ⟨_, rfl⟩
  · exact .inr rfl

theorem exists_jsonWritten_payload {P : Printers} {ts : ℕ} (hts : ts < 2 ^ 53)
    (hnumber : P.number (.finite ts) = numeral 10 ts) (op path : Text) (pathType : Option Text) :
    ∃ t, t ≠ [] ∧ stringify P (.object (payloadFields op path pathType ts)) = some t ∧
      jsonParse t = some (.object (payloadFields op path pathType ts)) := by
  have hkeys : ((payloadFields op path pathType ts).map Prod.fst).Nodup := by
    cases pathType
    · show [typeName, opName, pathName, tsName].Nodup
      decide
    · show [typeName, opName, pathName, pathTypeName, tsName].Nodup
      decide
  have hvalues : ∀ f ∈ payloadFields op path pathType ts,
      ∃ t, ∀ n, JsonWritten P (n + 1) t f.2 := by
    intro f hf
    rcases payloadFields_cases hf with ⟨s, hs⟩ | hs
    · rw [hs]
      exact ⟨quote s, fun n => jsonWritten_string n s⟩
    · rw [hs]
      exact ⟨numeral 10 ts, fun n => jsonWritten_nat hts hnumber n⟩
  obtain ⟨t, -, hwritten⟩ := exists_jsonWritten_object hkeys hvalues
  exact ⟨123 :: t, cons_ne_nil _ _, (hwritten 0).text,
    JsonWritten.jsonParse (P := P) (hwritten t.length)⟩

/-- **Broadcasts are invalidations.**  Whatever the worker broadcasts is written as a text that is
not empty; a client that receives it calls back, and the engine's test for a change has the result
that it has on the path and its type. -/
theorem received_payload {P : Printers} {ts : ℕ} (hts : ts < 2 ^ 53)
    (hnumber : P.number (.finite ts) = numeral 10 ts) (op path : Text) (pathType : Option Text) :
    ∃ t, t ≠ [] ∧ stringify P (.object (payloadFields op path pathType ts)) = some t ∧
      received t = some (decide (pathType = some changeType) || includes changesPart path) := by
  obtain ⟨t, hne, htext, hparse⟩ := exists_jsonWritten_payload hts hnumber op path pathType
  refine ⟨t, hne, htext, ?_⟩
  rw [received, hparse]
  cases pathType with
  | none => rfl
  | some s =>
    show some (decide (s = changeType) || includes changesPart path) = _
    rw [decide_eq_decide.mpr some_inj]

/-- The digits of a natural number. -/
def naturalText : JsNumber → Text
  | .finite q => numeral 10 q.num.natAbs
  | _ => []

theorem received_payload_delete :
    ∃ t, t ≠ [] ∧ received t = some (includes changesPart [47, 97]) := by
  obtain ⟨t, hne, -, hreceived⟩ :=
    received_payload (P := ⟨naturalText, fun _ => []⟩) (show 3 < 2 ^ 53 by norm_num) rfl [100]
      [47, 97] none
  exact ⟨t, hne, hreceived⟩

end Relay

/-! ## The subscription -/

/-- A socket whose `onclose` has not been called.  `closing`: `close()` was called on it. -/
structure RelaySocket where
  name : ℕ
  opened : Bool
  closing : Bool
  deriving DecidableEq

/-- A subscription: its variables, the sockets and the timers. -/
structure Subscription where
  ws : Option ℕ
  cancelled : Bool
  backoffMs : ℕ
  failedUpgradeStreak : ℕ
  sockets : List RelaySocket
  reconnects : List ℕ
  deriving DecidableEq

/-- The callbacks that a subscription calls. -/
inductive SubscriptionCall where
  | invalidate (change : Bool)
  | ready
  | error
  | closed
  deriving DecidableEq

/-- What can happen to it. -/
inductive SubscriptionEvent where
  -- a timer; `made`: the new socket, if the constructor does not throw
  | reconnects (delayMs : ℕ) (made : Option ℕ)
  | opens (socket : ℕ)
  | message (socket : ℕ) (data : Text)
  | errors (socket : ℕ)
  | closes (socket : ℕ)
  | unsubscribe
  deriving DecidableEq

namespace Subscription

/-- `MAX_BACKOFF_MS`. -/
def maxBackoffMs : ℕ := 30000

/-- `MAX_FAILED_UPGRADES`. -/
def maxFailedUpgrades : ℕ := 5

/-- `COOLDOWN_MS`. -/
def cooldownMs : ℕ := 60 * 60 * 1000

/-- `scheduleReconnect`. -/
def scheduleReconnect (s : Subscription) : Subscription :=
  if s.cancelled then s
  else
    { s with
      reconnects := s.backoffMs :: s.reconnects
      backoffMs := min (s.backoffMs * 2) maxBackoffMs }

/-- `connect`. -/
def connect (made : Option ℕ) (s : Subscription) : Subscription × List SubscriptionCall :=
  if s.cancelled then (s, [])
  else
    match made with
    | none =>
      (scheduleReconnect { s with failedUpgradeStreak := s.failedUpgradeStreak + 1 }, [.error])
    | some socket =>
      ({ s with ws := some socket, sockets := ⟨socket, false, false⟩ :: s.sockets }, [])

/-- `onclose`, for a socket that was opened or not. -/
def onclose (opened : Bool) (s : Subscription) : Subscription × List SubscriptionCall :=
  let streak := if opened then s.failedUpgradeStreak else s.failedUpgradeStreak + 1
  let counted : Subscription := { s with failedUpgradeStreak := streak }
  if counted.cancelled then (counted, [])
  else if maxFailedUpgrades ≤ streak then
    ({ counted with
        failedUpgradeStreak := 0
        backoffMs := 1000
        reconnects := cooldownMs :: counted.reconnects }, [.closed])
  else (counted.scheduleReconnect, [.closed])

/-- The function that `subscribeToInvalidations` returns. -/
def unsubscribe (s : Subscription) : Subscription :=
  { s with
    cancelled := true
    ws := none
    sockets := s.sockets.map fun socket =>
      if s.ws = some socket.name then { socket with closing := true } else socket }

/-- `subscribeToInvalidations`: nothing if the relay is disabled or there are no sockets in the
runtime. -/
def subscribeToInvalidations (relayEnabled webSocket : Bool) (made : Option ℕ) :
    Option Subscription × List SubscriptionCall :=
  if !relayEnabled then (none, [.closed])
  else if !webSocket then (none, [.error, .closed])
  else
    let subscribed := connect made ⟨none, false, 1000, 0, [], []⟩
    (some subscribed.1, subscribed.2)

/-- A socket by its name. -/
def find (s : Subscription) (socket : ℕ) : Option RelaySocket :=
  s.sockets.find? fun x => x.name = socket

/-- One step, and what it calls.  A closing socket is neither opened nor sent to; the names of new
sockets are new. -/
def step (s : Subscription) : SubscriptionEvent → Option (Subscription × List SubscriptionCall)
  | .reconnects delayMs made =>
    if s.reconnects.contains delayMs && made.all fun socket => (s.find socket).isNone then
      some (connect made { s with reconnects := s.reconnects.erase delayMs })
    else none
  | .opens socket =>
    match s.find socket with
    | some ⟨_, false, false⟩ =>
      some ({ s with
        failedUpgradeStreak := 0
        backoffMs := 1000
        sockets := s.sockets.map fun x =>
          if x.name = socket then { x with opened := true } else x }, [.ready])
    | _ => none
  | .message socket data =>
    match s.find socket with
    | some ⟨_, true, false⟩ => some (s, ((Relay.received data).map .invalidate).toList)
    | _ => none
  | .errors socket => (s.find socket).map fun _ => (s, [.error])
  | .closes socket =>
    (s.find socket).map fun x =>
      onclose x.opened { s with sockets := s.sockets.filter fun x => x.name ≠ socket }
  | .unsubscribe => if s.cancelled then none else some (s.unsubscribe, [])

/-- The states of a subscription. -/
def next (s : Subscription) (e : SubscriptionEvent) : Option Subscription := (s.step e).map Prod.fst

/-! ## One attempt at a time -/

/-- The invariant.  A subscription that is not cancelled has one socket, the one in `ws`, or one
timer; one that is cancelled has at most one of them, and its socket is closing. -/
structure One (s : Subscription) : Prop where
  atMost : s.sockets.length + s.reconnects.length ≤ 1
  going : s.cancelled = false → s.sockets.length + s.reconnects.length = 1
  current : s.cancelled = false → ∀ x ∈ s.sockets, s.ws = some x.name
  closing : s.cancelled = true → ∀ x ∈ s.sockets, x.closing = true
  backoff : 1000 ≤ s.backoffMs ∧ s.backoffMs ≤ maxBackoffMs
  waits : ∀ d ∈ s.reconnects, 1000 ≤ d ∧ (d ≤ maxBackoffMs ∨ d = cooldownMs)

variable {s s' : Subscription} {e : SubscriptionEvent} {calls : List SubscriptionCall}

theorem One.of_timer (h : One s) {d : ℕ} (hd : s.reconnects.contains d = true) :
    s.reconnects = [d] ∧ s.sockets = [] := by
  have hmem : d ∈ s.reconnects := contains_iff_mem.mp hd
  have hlength : 0 < s.reconnects.length := length_pos_of_mem hmem
  have hsum := h.atMost
  have hone : s.reconnects.length = 1 := by omega
  obtain ⟨d', hd'⟩ := length_eq_one_iff.mp hone
  rw [hd', mem_singleton] at hmem
  exact ⟨by rw [hd', hmem], length_eq_zero_iff.mp (by omega)⟩

variable {socket : ℕ}

theorem One.of_find (h : One s) {x : RelaySocket} (hx : s.find socket = some x) :
    s.sockets = [x] ∧ x.name = socket ∧ s.reconnects = [] := by
  have hmem : x ∈ s.sockets := mem_of_find?_eq_some hx
  have hname : x.name = socket := by
    have hfound := List.find?_some hx
    exact of_decide_eq_true hfound
  have hlength : 0 < s.sockets.length := length_pos_of_mem hmem
  have hsum := h.atMost
  have hone : s.sockets.length = 1 := by omega
  obtain ⟨x', hx'⟩ := length_eq_one_iff.mp hone
  rw [hx', mem_singleton] at hmem
  exact ⟨by rw [hx', hmem], hname, length_eq_zero_iff.mp (by omega)⟩

theorem one_scheduleReconnect (hsockets : s.sockets = []) (hreconnects : s.reconnects = [])
    (hbackoff : 1000 ≤ s.backoffMs ∧ s.backoffMs ≤ maxBackoffMs) : One s.scheduleReconnect := by
  unfold scheduleReconnect
  split_ifs with hcancelled
  · refine ⟨by rw [hsockets, hreconnects]; exact Nat.zero_le _, fun hgoing => ?_, fun _ x hx => ?_,
      fun _ x hx => ?_, hbackoff, fun d hd => ?_⟩
    · rw [hcancelled] at hgoing
      exact absurd hgoing (by simp)
    · rw [hsockets] at hx
      exact absurd hx not_mem_nil
    · rw [hsockets] at hx
      exact absurd hx not_mem_nil
    · rw [hreconnects] at hd
      exact absurd hd not_mem_nil
  · have hempty : ∀ x ∈ s.sockets, False := fun x hx => by
      rw [hsockets] at hx
      exact absurd hx not_mem_nil
    refine ⟨?_, fun _ => ?_, fun _ x hx => (hempty x hx).elim, fun _ x hx => (hempty x hx).elim,
      ?_, fun d hd => ?_⟩
    · show s.sockets.length + (s.backoffMs :: s.reconnects).length ≤ 1
      rw [hsockets, hreconnects]
      exact le_rfl
    · show s.sockets.length + (s.backoffMs :: s.reconnects).length = 1
      rw [hsockets, hreconnects]
      rfl
    · show 1000 ≤ min (s.backoffMs * 2) maxBackoffMs ∧ min (s.backoffMs * 2) maxBackoffMs ≤ _
      refine ⟨le_min (by omega) (by decide), min_le_right _ _⟩
    · have hd : d ∈ s.backoffMs :: s.reconnects := hd
      rw [hreconnects, mem_singleton] at hd
      rw [hd]
      exact ⟨hbackoff.1, .inl hbackoff.2⟩

theorem one_connect (hsockets : s.sockets = []) (hreconnects : s.reconnects = [])
    (hbackoff : 1000 ≤ s.backoffMs ∧ s.backoffMs ≤ maxBackoffMs) (made : Option ℕ) :
    One (s.connect made).1 := by
  unfold connect
  split_ifs with hcancelled
  · -- a subscription that is cancelled schedules nothing either
    have hsame : s.scheduleReconnect = s := if_pos hcancelled
    have hone := one_scheduleReconnect hsockets hreconnects hbackoff
    rwa [hsame] at hone
  · cases made with
    | none => exact one_scheduleReconnect hsockets hreconnects hbackoff
    | some socket =>
      have hnew : ∀ x ∈ ⟨socket, false, false⟩ :: s.sockets, x = ⟨socket, false, false⟩ := by
        intro x hx
        rwa [hsockets, mem_singleton] at hx
      refine ⟨?_, fun _ => ?_, fun _ x hx => ?_, fun hcancel => absurd hcancel hcancelled, hbackoff,
        fun d hd => ?_⟩
      · show (⟨socket, false, false⟩ :: s.sockets).length + s.reconnects.length ≤ 1
        rw [hsockets, hreconnects]
        exact le_rfl
      · show (⟨socket, false, false⟩ :: s.sockets).length + s.reconnects.length = 1
        rw [hsockets, hreconnects]
        rfl
      · rw [hnew x hx]
      · have hd : d ∈ s.reconnects := hd
        rw [hreconnects] at hd
        exact absurd hd not_mem_nil

theorem one_onclose (hsockets : s.sockets = []) (hreconnects : s.reconnects = [])
    (hbackoff : 1000 ≤ s.backoffMs ∧ s.backoffMs ≤ maxBackoffMs) (opened : Bool) :
    One (s.onclose opened).1 := by
  unfold onclose
  dsimp only
  generalize (if opened then s.failedUpgradeStreak else s.failedUpgradeStreak + 1) = streak
  have hone := one_scheduleReconnect (s := { s with failedUpgradeStreak := streak }) hsockets
    hreconnects hbackoff
  split_ifs with hcancelled hcooldown
  · have hsame : scheduleReconnect { s with failedUpgradeStreak := streak } =
        { s with failedUpgradeStreak := streak } := if_pos hcancelled
    rwa [hsame] at hone
  · have hempty : ∀ x ∈ s.sockets, False := fun x hx => by
      rw [hsockets] at hx
      exact absurd hx not_mem_nil
    refine ⟨?_, fun _ => ?_, fun _ x hx => (hempty x hx).elim, fun _ x hx => (hempty x hx).elim,
      ⟨le_rfl, show 1000 ≤ maxBackoffMs by decide⟩, fun d hd => ?_⟩
    · show s.sockets.length + (cooldownMs :: s.reconnects).length ≤ 1
      rw [hsockets, hreconnects]
      exact le_rfl
    · show s.sockets.length + (cooldownMs :: s.reconnects).length = 1
      rw [hsockets, hreconnects]
      rfl
    · have hd : d ∈ cooldownMs :: s.reconnects := hd
      rw [hreconnects, mem_singleton] at hd
      rw [hd]
      exact ⟨by decide, .inr rfl⟩
  · exact hone

/-- Changing the sockets one by one, without touching their names. -/
theorem One.mapSockets (h : One s) (f : RelaySocket → RelaySocket)
    (hname : ∀ x, (f x).name = x.name)
    (hclosing : ∀ x, x.closing = true → (f x).closing = true) (streak backoffMs : ℕ)
    (hbackoff : 1000 ≤ backoffMs ∧ backoffMs ≤ maxBackoffMs) :
    One { s with
      failedUpgradeStreak := streak
      backoffMs := backoffMs
      sockets := s.sockets.map f } where
  atMost := by
    show (s.sockets.map f).length + _ ≤ 1
    rw [length_map]
    exact h.atMost
  going hgoing := by
    show (s.sockets.map f).length + _ = 1
    rw [length_map]
    exact h.going hgoing
  current hgoing x hx := by
    obtain ⟨y, hy, rfl⟩ := mem_map.mp hx
    rw [hname]
    exact h.current hgoing y hy
  closing hcancelled x hx := by
    obtain ⟨y, hy, rfl⟩ := mem_map.mp hx
    exact hclosing y (h.closing hcancelled y hy)
  backoff := hbackoff
  waits := h.waits

theorem One.unsubscribe (h : One s) (hgoing : s.cancelled = false) : One s.unsubscribe := by
  have hlength : s.unsubscribe.sockets.length = s.sockets.length := length_map _
  refine ⟨?_, fun hcancelled => absurd hcancelled (by simp [Subscription.unsubscribe]),
    fun hcancelled => absurd hcancelled (by simp [Subscription.unsubscribe]), fun _ x hx => ?_,
    h.backoff, h.waits⟩
  · rw [hlength]
    exact h.atMost
  · obtain ⟨y, hy, rfl⟩ := mem_map.mp hx
    rw [if_pos (h.current hgoing y hy)]

theorem opens_cases (hs : s.step (.opens socket) = some (s', calls)) :
    ∃ x, s.find socket = some x ∧ x.opened = false ∧ x.closing = false ∧ calls = [.ready] ∧
      s' = { s with
        failedUpgradeStreak := 0
        backoffMs := 1000
        sockets := s.sockets.map fun x =>
          if x.name = socket then { x with opened := true } else x } := by
  rw [step] at hs
  split at hs
  case h_1 name hfind =>
    obtain ⟨rfl, rfl⟩ := Prod.mk.inj (some.inj hs)
    exact ⟨_, hfind, rfl, rfl, rfl, rfl⟩
  case h_2 => exact absurd hs (by simp)

theorem message_cases {data : Text} (hs : s.step (.message socket data) = some (s', calls)) :
    ∃ x, s.find socket = some x ∧ x.opened = true ∧ x.closing = false ∧ s' = s ∧
      calls = ((Relay.received data).map SubscriptionCall.invalidate).toList := by
  rw [step] at hs
  split at hs
  case h_1 name hfind =>
    obtain ⟨rfl, rfl⟩ := Prod.mk.inj (some.inj hs)
    exact ⟨_, hfind, rfl, rfl, rfl, rfl⟩
  case h_2 => exact absurd hs (by simp)

theorem closes_cases (hs : s.step (.closes socket) = some (s', calls)) :
    ∃ x, s.find socket = some x ∧ (s', calls) =
      onclose x.opened { s with sockets := s.sockets.filter fun x => x.name ≠ socket } := by
  obtain ⟨x, hx, heq⟩ := map_eq_some_iff.mp hs
  exact ⟨x, hx, heq.symm⟩

/-- **One step.** -/
theorem one_step (h : One s) (hs : s.step e = some (s', calls)) : One s' := by
  cases e with
  | reconnects delayMs made =>
    rw [step] at hs
    split_ifs at hs with hd
    rw [Bool.and_eq_true] at hd
    obtain ⟨hreconnects, hsockets⟩ := h.of_timer hd.1
    obtain ⟨rfl, -⟩ := Prod.mk.inj (some.inj hs)
    refine one_connect (s := { s with reconnects := s.reconnects.erase delayMs }) hsockets ?_
      h.backoff made
    show s.reconnects.erase delayMs = []
    rw [hreconnects, erase_cons_head]
  | opens socket =>
    obtain ⟨x, -, -, -, -, rfl⟩ := opens_cases hs
    refine h.mapSockets _ (fun x => ?_) (fun x hx => ?_) 0 1000 ⟨le_rfl, by decide⟩
    · split_ifs
      · rfl
      · rfl
    · split_ifs
      · exact hx
      · exact hx
  | message socket data =>
    obtain ⟨-, -, -, -, rfl, -⟩ := message_cases hs
    exact h
  | errors socket =>
    obtain ⟨-, -, heq⟩ := map_eq_some_iff.mp hs
    obtain ⟨rfl, -⟩ := Prod.mk.inj heq
    exact h
  | closes socket =>
    obtain ⟨x, hx, heq⟩ := closes_cases hs
    obtain ⟨hsockets, hname, hreconnects⟩ := h.of_find hx
    obtain ⟨rfl, -⟩ := Prod.mk.inj heq
    refine one_onclose (s := { s with sockets := s.sockets.filter fun x => x.name ≠ socket }) ?_
      hreconnects h.backoff x.opened
    show s.sockets.filter (fun x => x.name ≠ socket) = []
    rw [hsockets, filter_cons_of_neg (by simp [hname]), filter_nil]
  | unsubscribe =>
    rw [step] at hs
    split_ifs at hs with hcancelled
    obtain ⟨rfl, -⟩ := Prod.mk.inj (some.inj hs)
    exact h.unsubscribe (Bool.eq_false_iff.mpr hcancelled)

/-! ## Going on -/

theorem cancelled_scheduleReconnect (s : Subscription) :
    s.scheduleReconnect.cancelled = s.cancelled := by
  unfold scheduleReconnect
  split_ifs
  · rfl
  · rfl

theorem cancelled_connect (made : Option ℕ) (s : Subscription) :
    (s.connect made).1.cancelled = s.cancelled := by
  unfold connect
  split_ifs
  · rfl
  · cases made with
    | none => exact cancelled_scheduleReconnect _
    | some socket => rfl

theorem cancelled_onclose (opened : Bool) (s : Subscription) :
    (s.onclose opened).1.cancelled = s.cancelled := by
  unfold onclose
  dsimp only
  generalize (if opened then s.failedUpgradeStreak else s.failedUpgradeStreak + 1) = streak
  split_ifs
  · rfl
  · rfl
  · exact cancelled_scheduleReconnect { s with failedUpgradeStreak := streak }

theorem cancelled_step (hs : s.step e = some (s', calls)) (he : e ≠ .unsubscribe) :
    s'.cancelled = s.cancelled := by
  cases e with
  | reconnects delayMs made =>
    rw [step] at hs
    split_ifs at hs
    obtain ⟨rfl, -⟩ := Prod.mk.inj (some.inj hs)
    exact cancelled_connect made _
  | opens socket =>
    obtain ⟨x, -, -, -, -, rfl⟩ := opens_cases hs
    rfl
  | message socket data =>
    obtain ⟨-, -, -, -, rfl, -⟩ := message_cases hs
    rfl
  | errors socket =>
    obtain ⟨-, -, heq⟩ := map_eq_some_iff.mp hs
    obtain ⟨rfl, -⟩ := Prod.mk.inj heq
    rfl
  | closes socket =>
    obtain ⟨x, -, heq⟩ := closes_cases hs
    obtain ⟨rfl, -⟩ := Prod.mk.inj heq
    exact cancelled_onclose x.opened _
  | unsubscribe => exact absurd rfl he

/-! ## Silence -/

/-- A subscription that is cancelled stays cancelled, and calls nothing but `onError`. -/
theorem silent_step (h : One s) (hcancelled : s.cancelled = true)
    (hs : s.step e = some (s', calls)) : s'.cancelled = true ∧ ∀ c ∈ calls, c = .error := by
  have hnot : ∀ x, x ∈ s.sockets → x.closing ≠ false := fun x hx => by
    rw [h.closing hcancelled x hx]
    simp
  cases e with
  | reconnects delayMs made =>
    rw [step] at hs
    split_ifs at hs
    have hsame : connect made { s with reconnects := s.reconnects.erase delayMs } =
        ({ s with reconnects := s.reconnects.erase delayMs }, []) := if_pos hcancelled
    rw [hsame] at hs
    obtain ⟨rfl, rfl⟩ := Prod.mk.inj (some.inj hs)
    exact ⟨hcancelled, fun c hc => absurd hc not_mem_nil⟩
  | opens socket =>
    obtain ⟨x, hx, -, hclosing, -⟩ := opens_cases hs
    exact absurd hclosing (hnot x (mem_of_find?_eq_some hx))
  | message socket data =>
    obtain ⟨x, hx, -, hclosing, -⟩ := message_cases hs
    exact absurd hclosing (hnot x (mem_of_find?_eq_some hx))
  | errors socket =>
    obtain ⟨-, -, heq⟩ := map_eq_some_iff.mp hs
    obtain ⟨rfl, rfl⟩ := Prod.mk.inj heq
    exact ⟨hcancelled, fun c hc => mem_singleton.mp hc⟩
  | closes socket =>
    obtain ⟨x, -, heq⟩ := closes_cases hs
    rw [onclose] at heq
    dsimp only at heq
    rw [if_pos hcancelled] at heq
    obtain ⟨rfl, rfl⟩ := Prod.mk.inj heq
    exact ⟨hcancelled, fun c hc => absurd hc not_mem_nil⟩
  | unsubscribe =>
    rw [step, if_pos hcancelled] at hs
    exact absurd hs (by simp)

/-! ## Runs -/

theorem one_subscribe {relayEnabled webSocket : Bool} {made : Option ℕ}
    (h : subscribeToInvalidations relayEnabled webSocket made = (some s, calls)) : One s := by
  unfold subscribeToInvalidations at h
  split_ifs at h
  · obtain ⟨hnone, -⟩ := Prod.mk.inj h
    exact absurd hnone (by simp)
  · obtain ⟨hnone, -⟩ := Prod.mk.inj h
    exact absurd hnone (by simp)
  · obtain ⟨hsome, -⟩ := Prod.mk.inj h
    obtain rfl := some.inj hsome
    exact one_connect rfl rfl ⟨le_rfl, by decide⟩ made

theorem going_subscribe {relayEnabled webSocket : Bool} {made : Option ℕ}
    (h : (subscribeToInvalidations relayEnabled webSocket made).1 = some s) :
    s.cancelled = false := by
  unfold subscribeToInvalidations at h
  split_ifs at h
  obtain rfl := some.inj h
  exact cancelled_connect made _

/-- **A subscription is sound.**  In every run: as long as it is not cancelled there is exactly one
socket or one timer, so it neither gives up nor tries twice at once; every wait is at least a
second, and at most half a minute or else the hour; and from the moment it is cancelled nothing but
`onError` is called. -/
theorem subscription_sound {relayEnabled webSocket : Bool} {made : Option ℕ} {s₀ s : Subscription}
    {first : List SubscriptionCall} {es : List SubscriptionEvent}
    (hsubscribe : subscribeToInvalidations relayEnabled webSocket made = (some s₀, first))
    (hrun : run next s₀ es = some s) :
    (s.cancelled = false → s.sockets.length + s.reconnects.length = 1) ∧
      (∀ d ∈ s.reconnects, 1000 ≤ d ∧ (d ≤ maxBackoffMs ∨ d = cooldownMs)) ∧
      ∀ later s', run next s later = some s' → s.cancelled = true →
        s'.cancelled = true ∧
          ∀ e s'' calls, s'.step e = some (s'', calls) → ∀ c ∈ calls, c = .error := by
  have hone : ∀ ⦃t e t'⦄, One t → next t e = some t' → One t' := by
    intro t e t' ht hstep
    obtain ⟨⟨t'', calls⟩, hs, rfl⟩ := map_eq_some_iff.mp hstep
    exact one_step ht hs
  have hs : One s := invariant_run hone (one_subscribe hsubscribe) hrun
  refine ⟨hs.going, hs.waits, fun later s' hlater hcancelled => ?_⟩
  have hboth : One s' ∧ s'.cancelled = true := by
    refine invariant_run (I := fun t => One t ∧ t.cancelled = true) ?_ ⟨hs, hcancelled⟩ hlater
    rintro t e t' ⟨ht, htc⟩ hstep
    obtain ⟨⟨t'', calls⟩, hst, rfl⟩ := map_eq_some_iff.mp hstep
    exact ⟨one_step ht hst, (silent_step ht htc hst).1⟩
  exact ⟨hboth.2, fun e s'' calls hs'' => (silent_step hboth.1 hboth.2 hs'').2⟩

/-- A socket opens and is closed, another one is made, and the subscription is cancelled. -/
def reconnecting : List SubscriptionEvent :=
  [.opens 1, .closes 1, .reconnects 1000 (some 2), .unsubscribe]

theorem reconnecting_sound : ∃ s₀ s calls,
    subscribeToInvalidations true true (some 1) = (some s₀, calls) ∧
    run next s₀ reconnecting = some s ∧
    ∀ later s', run next s later = some s' → s'.cancelled = true := by
  obtain ⟨s₀, calls, hs₀⟩ : ∃ s₀ calls, subscribeToInvalidations true true (some 1) =
    (some s₀, calls) := ⟨_, _, rfl⟩
  obtain ⟨s, hs, hcancelled⟩ : ∃ s, run next s₀ reconnecting = some s ∧ s.cancelled = true := by
    obtain ⟨hsome, -⟩ := Prod.mk.inj hs₀
    obtain rfl := some.inj hsome
    exact ⟨_, rfl, rfl⟩
  obtain ⟨-, -, hsilent⟩ := subscription_sound hs₀ hs
  exact ⟨s₀, s, calls, hs₀, hs, fun later s' hlater => (hsilent later s' hlater hcancelled).1⟩

end Subscription

end Interocitor
