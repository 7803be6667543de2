import Interocitor.Foundation.GuardedRuns
import Interocitor.Handshake.Channel

/-!
# Pairing over a relay that cannot be trusted

The relay does what it likes: it answers a read with nothing, with what it was given, with what it
was given earlier, or with anything else it can make.  It has key pairs of its own, it knows all
texts, and it sees everything that is written.  It does not know the private keys of the devices,
and it does not know the invitation, which goes from screen to camera.

A generator may be waiting several times, and an invitation may be scanned several times, with other
profiles every time; of one invitation either the generator joins or the scanners do.

The proof is about where a sealed message comes from.  The public key of the generator is never
written to the relay, so that the relay cannot compute any key that a device agrees on, not even
with a public key of its own in place of the scanner's.  So whatever a device opens was sealed by
one of the devices, under the key and with the additional data that this device holds.

* `pairing_agrees`: whoever joins with credentials got them from a device that holds the same two
  profiles, unless none of the profiles that one of them holds requires anything; and whatever a
  profile requires is supported by both.
* `stripped_profile`: where nothing is required, the relay may change the profile of the scanner.
-/

namespace Interocitor

open CodeUnits OrderedRecord GuardedRuns SymbolicChannel List Option

namespace Handshake

/-- The devices, and what was written to the relay. -/
structure Pairing where
  generators : List GeneratorCall
  -- scan `i` has the key pair `.scanner i`
  scanners : List Run
  traffic : List RelayFile

/-- What can happen: a generator starts to wait, an invitation is scanned, a device reads from the
relay, or gives up waiting.  `nonce` is the nonce it takes if it seals, `written` and `helloWritten`
say whether the relay accepts what it writes, and `invited` is the profile of the invitation. -/
inductive PairingEvent where
  | complete (handshakeId : Text) (own : Option HandshakeCredentials) (capabilities : JsValue)
  | generatorReads (i : ℕ) (file : RelayFile) (nonce : ℕ) (written : Bool)
  | generatorTimesOut (i : ℕ)
  | scan (handshakeId : Text) (invited : JsValue) (own : Option HandshakeCredentials)
      (capabilities : JsValue) (nonce : ℕ) (helloWritten written : Bool)
  | scannerReads (i : ℕ) (file : RelayFile)
  | scannerTimesOut (i : ℕ)

/-- `pollFor` tries again. -/
def RelayFile.absent : RelayFile → Bool
  | .missing => true
  | _ => false

@[inherit_doc RelayFile.absent]
def RelayFile.noHello : RelayFile → Bool
  | .missing => true
  | .empty => true
  | _ => false

/-- A device reads the credentials. -/
def Negotiated.opens (n : Negotiated) (file : RelayFile) : Run :=
  match decryptCredentials n.wrappingKey file n.additionalData with
  | .ok credentials => .received n credentials
  | .error e => .failed e

theorem Negotiated.opens_ne_waiting (n : Negotiated) (file : RelayFile) (n' : Negotiated) :
    n.opens file ≠ .waitingCredentials n' := by
  unfold Negotiated.opens
  split
  · exact fun h => absurd h (by simp)
  · exact fun h => absurd h (by simp)

namespace Pairing

/-- A call of `complete` goes on. -/
def setGenerator (s : Pairing) (i : ℕ) (call : GeneratorCall) (run : Run) : Pairing :=
  { s with generators := s.generators.set i { call with run := run } }

/-- A scan goes on. -/
def setScanner (s : Pairing) (i : ℕ) (run : Run) : Pairing :=
  { s with scanners := s.scanners.set i run }

/-- A call of `complete` has read something that may be a hello. -/
def generatorHears (intent : HandshakeIntent) (s : Pairing) (i : ℕ) (call : GeneratorCall)
    (file : RelayFile) (nonce : ℕ) (written : Bool) : Pairing :=
  match call.hears intent file with
  | .error e => s.setGenerator i call (.failed e)
  | .ok n =>
    match intent, call.credentials with
    | .share, some creds =>
      { s.setGenerator i call (.sent n creds written) with
        traffic := n.envelope creds nonce :: s.traffic }
    | _, _ => s.setGenerator i call (.waitingCredentials n)

/-- What is left of `runScannerHandshake`, or its await of the credentials. -/
def scans (intent : HandshakeIntent) (s : Pairing) (n : Negotiated)
    (own : Option HandshakeCredentials) (nonce : ℕ) (helloWritten written : Bool) : Pairing :=
  let hello : Pairing := { s with traffic := scannerHello n :: s.traffic }
  if !helloWritten then { hello with scanners := s.scanners ++ [.failed .writeFailed] }
  else
    match intent, own with
    | .join, some creds =>
      { hello with
        traffic := n.envelope creds nonce :: hello.traffic
        scanners := s.scanners ++ [.sent n creds written] }
    | _, _ => { hello with scanners := s.scanners ++ [.waitingCredentials n] }

/-- One step, if the event can happen. -/
def step (intent : HandshakeIntent) (s : Pairing) : PairingEvent → Option Pairing
  | .complete handshakeId own capabilities =>
    match complete intent handshakeId own capabilities with
    | .ok call => some { s with generators := s.generators ++ [call] }
    | .error _ => some s
  | .generatorReads i file nonce written =>
    s.generators[i]?.bind fun call =>
      match call.run with
      | .waitingHello =>
        some (if file.noHello then s else generatorHears intent s i call file nonce written)
      | .waitingCredentials n =>
        some (if file.absent then s else s.setGenerator i call (n.opens file))
      | _ => none
  | .generatorTimesOut i =>
    s.generators[i]?.bind fun call =>
      match call.run with
      | .waitingHello => some (s.setGenerator i call (.failed .timedOut))
      | .waitingCredentials _ => some (s.setGenerator i call (.failed .timedOut))
      | _ => none
  | .scan handshakeId invited own capabilities nonce helloWritten written =>
    match runScannerHandshake intent handshakeId invited own capabilities
        (.scanner s.scanners.length) with
    | .ok n => some (s.scans intent n own nonce helloWritten written)
    | .error _ => some s
  | .scannerReads i file =>
    s.scanners[i]?.bind fun run =>
      match run with
      | .waitingCredentials n => some (if file.absent then s else s.setScanner i (n.opens file))
      | _ => none
  | .scannerTimesOut i =>
    s.scanners[i]?.bind fun run =>
      match run with
      | .waitingCredentials _ => some (s.setScanner i (.failed .timedOut))
      | _ => none

/-- What the relay has seen. -/
def Seen (s : Pairing) (t : Term Party ℕ (Option CapabilityTranscript) JsValue) : Prop :=
  ∃ file ∈ s.traffic, t ∈ file.terms

/-- The key pairs of the relay. -/
def Relays (p : Party) : Prop := ∃ i, p = .relay i

/-- **The relay.**  It can write everything that it hands out. -/
def Relayed (s : Pairing) : PairingEvent → Prop
  | .generatorReads _ file _ _ => ∀ t ∈ file.terms, Derives Relays s.Seen t
  | .scannerReads _ file => ∀ t ∈ file.terms, Derives Relays s.Seen t
  | _ => True

/-- The calls and scans that send credentials. -/
def senders (s : Pairing) : HandshakeIntent → List Run
  | .share => s.generators.map GeneratorCall.run
  | .join => s.scanners

/-- The calls and scans that join. -/
def joiners (s : Pairing) : HandshakeIntent → List Run
  | .share => s.scanners
  | .join => s.generators.map GeneratorCall.run

/-- Nobody has started. -/
def start : Pairing := ⟨[], [], []⟩

/-! ## Where a sealed message comes from -/

/-- A device has sealed the message. -/
def SealedBy (m : Negotiated) (creds : HandshakeCredentials) (c : Ciphertext) : Prop :=
  c.key = m.wrappingKey ∧ c.additional = m.additionalData ∧ c.plain = credentialPayload creds

/-- A device that sends the credentials agrees with one that has received them on the key and on the
additional data. -/
def SentAlike (intent : HandshakeIntent) (s : Pairing) (n : Negotiated)
    (creds : HandshakeCredentials) : Prop :=
  ∃ m written, Run.sent m creds written ∈ s.senders intent ∧ n.wrappingKey = m.wrappingKey ∧
    n.additionalData = m.additionalData

/-- The invariant.  The public key of the generator has not been written to the relay, what was
sealed was sealed by a sender, a device that waits for credentials has agreed on a key with the
generator, or is the generator, and what was received was sent. -/
structure Sound (intent : HandshakeIntent) (s : Pairing) : Prop where
  pubs : ∀ p, s.Seen (.pub p) → p ≠ .generator
  seals : ∀ c, s.Seen (.sealed c) → ∃ m creds written,
    Run.sent m creds written ∈ s.senders intent ∧ SealedBy m creds c
  waiting : ∀ n, Run.waitingCredentials n ∈ s.generators.map GeneratorCall.run ∨
    Run.waitingCredentials n ∈ s.scanners → n.generatorPub.party = .generator
  joined : ∀ n creds, Run.received n creds ∈ s.joiners intent → SentAlike intent s n creds

/-- One run of a list goes on as `r`, or is new; what was sent stays so. -/
structure Moves (l l' : List Run) (r : Run) : Prop where
  kept : ∀ m creds written, Run.sent m creds written ∈ l → Run.sent m creds written ∈ l'
  added : ∀ x ∈ l', x ∈ l ∨ x = r

variable {intent : HandshakeIntent} {s s' : Pairing} {l : List Run} {r : Run}

theorem Moves.refl (l : List Run) (r : Run) : Moves l l r :=
  ⟨fun _ _ _ h => h, fun _ h => .inl h⟩

theorem Moves.append (l : List Run) (r : Run) : Moves l (l ++ [r]) r where
  kept _ _ _ h := mem_append_left _ h
  added x h := by
    rcases mem_append.mp h with h | h
    · exact .inl h
    · exact .inr (mem_singleton.mp h)

variable {i : ℕ}

theorem Moves.set {old : Run} (hi : l[i]? = some old)
    (hold : ∀ m creds written, old ≠ .sent m creds written) (r : Run) : Moves l (l.set i r) r where
  kept m creds written h := by
    obtain ⟨k, hk⟩ := mem_iff_getElem?.mp h
    have hne : i ≠ k := by
      rintro rfl
      rw [hi] at hk
      exact hold _ _ _ (some.inj hk)
    refine mem_iff_getElem?.mpr ⟨k, ?_⟩
    rw [List.getElem?_set_ne hne]
    exact hk
  added x h := mem_or_eq_of_mem_set h

variable {t : Term Party ℕ (Option CapabilityTranscript) JsValue}

theorem seen_open (h : s.Seen t) : t.Open := by
  have hfield : ∀ f : Field, t ∈ f.terms → t.Open := by
    intro f hf
    cases f with
    | value v => exact absurd hf not_mem_nil
    | pub p =>
      obtain rfl := mem_singleton.mp hf
      trivial
    | iv nonce spelling => exact absurd hf not_mem_nil
    | ct c spelling =>
      obtain rfl := mem_singleton.mp hf
      trivial
  obtain ⟨file, -, ht⟩ := h
  cases file with
  | missing => exact absurd ht not_mem_nil
  | empty => exact absurd ht not_mem_nil
  | malformed => exact absurd ht not_mem_nil
  | object o =>
    simp only [RelayFile.terms, mem_append] at ht
    rcases ht with (((ht | ht) | ht) | ht) | ht
    · exact hfield _ ht
    · exact hfield _ ht
    · exact hfield _ ht
    · exact hfield _ ht
    · exact hfield _ ht

variable {n : Negotiated}

theorem Sound.key_unknown (h : Sound intent s) (hn : n.generatorPub.party = .generator)
    {a b : Party} (ha : Relays a) (hb : Relays b ∨ s.Seen (.pub b)) : n.wrappingKey ≠ s(a, b) := by
  intro heq
  have hmem : Party.generator ∈ s(a, b) := by
    rw [← heq, Negotiated.wrappingKey, hn]
    exact Sym2.mem_mk_left _ _
  obtain ⟨i, rfl⟩ := ha
  rcases Sym2.mem_iff.mp hmem with hgenerator | rfl
  · exact absurd hgenerator (by simp)
  · rcases hb with ⟨j, hj⟩ | hb
    · exact absurd hj (by simp)
    · exact h.pubs _ hb rfl

variable {creds : HandshakeCredentials} {file : RelayFile}

/-- **The relay cannot seal.**  What a device opens that has agreed on a key with the generator was
sealed by a device, whatever the relay makes of what it has seen. -/
theorem Sound.opens (h : Sound intent s) {n n' : Negotiated}
    (hn : n.generatorPub.party = .generator) (hfile : ∀ t ∈ file.terms, Derives Relays s.Seen t)
    (hopens : n.opens file = .received n' creds) : n' = n ∧ SentAlike intent s n creds := by
  unfold Negotiated.opens at hopens
  split at hopens
  · rename_i credentials hdecrypted
    obtain ⟨rfl, rfl⟩ := Run.received.inj hopens
    obtain ⟨c, hc, hkey, hdata, hplain⟩ := decryptCredentials_ok hdecrypted
    refine ⟨rfl, ?_⟩
    rcases (hfile _ hc).sealed_seen fun t ht => seen_open ht with hseen | ⟨a, b, hab, ha, hb⟩
    · obtain ⟨m, creds', written, hm, hmkey, hmdata, hmplain⟩ := h.seals c hseen
      rw [hmplain, parse_credentialPayload] at hplain
      obtain rfl := Except.ok.inj hplain
      exact ⟨m, written, hm, hkey.symm.trans hmkey, hdata.symm.trans hmdata⟩
    · exact absurd (hkey.symm.trans hab) (h.key_unknown hn ha hb)
  · exact absurd hopens (by simp)

/-! ## The steps -/

theorem Sound.move (h : Sound intent s)
    (hgenerators : Moves (s.generators.map GeneratorCall.run)
      (s'.generators.map GeneratorCall.run) r)
    (hscanners : Moves s.scanners s'.scanners r)
    (hpubs : ∀ p, s'.Seen (.pub p) → s.Seen (.pub p) ∨ p ≠ .generator)
    (hseals : ∀ c, s'.Seen (.sealed c) → s.Seen (.sealed c) ∨ ∃ m creds written,
      Run.sent m creds written ∈ s'.senders intent ∧ SealedBy m creds c)
    (hwaiting : ∀ n, r = .waitingCredentials n → n.generatorPub.party = .generator)
    (hreceived : ∀ n creds, r = .received n creds → SentAlike intent s n creds) :
    Sound intent s' := by
  have hsent : ∀ m creds written, Run.sent m creds written ∈ s.senders intent →
      Run.sent m creds written ∈ s'.senders intent := by
    cases intent with
    | share => exact hgenerators.kept
    | join => exact hscanners.kept
  have halike : ∀ n creds, SentAlike intent s n creds → SentAlike intent s' n creds :=
    fun n creds ⟨m, written, hm, hkey, hdata⟩ => ⟨m, written, hsent _ _ _ hm, hkey, hdata⟩
  refine ⟨fun p hp => ?_, fun c hc => ?_, fun n hn => ?_, fun n creds hn => ?_⟩
  · rcases hpubs p hp with hp | hp
    · exact h.pubs p hp
    · exact hp
  · rcases hseals c hc with hc | hc
    · obtain ⟨m, creds, written, hm, hsealed⟩ := h.seals c hc
      exact ⟨m, creds, written, hsent _ _ _ hm, hsealed⟩
    · exact hc
  · rcases hn with hn | hn
    · rcases hgenerators.added _ hn with hn | hn
      · exact h.waiting n (.inl hn)
      · exact hwaiting n hn.symm
    · rcases hscanners.added _ hn with hn | hn
      · exact h.waiting n (.inr hn)
      · exact hwaiting n hn.symm
  · have hold : Run.received n creds ∈ s.joiners intent ∨ Run.received n creds = r := by
      cases intent with
      | share => exact hscanners.added _ hn
      | join => exact hgenerators.added _ hn
    rcases hold with hold | hnew
    · exact halike n creds (h.joined n creds hold)
    · exact halike n creds (hreceived n creds hnew.symm)

theorem Sound.quiet (h : Sound intent s)
    (hgenerators : Moves (s.generators.map GeneratorCall.run)
      (s'.generators.map GeneratorCall.run) r)
    (hscanners : Moves s.scanners s'.scanners r) (htraffic : s'.traffic = s.traffic)
    (hwaiting : ∀ n, r = .waitingCredentials n → n.generatorPub.party = .generator)
    (hreceived : ∀ n creds, r = .received n creds → SentAlike intent s n creds) :
    Sound intent s' := by
  have hseen : ∀ t, s'.Seen t → s.Seen t := fun t ⟨file, hfile, ht⟩ => ⟨file, htraffic ▸ hfile, ht⟩
  exact h.move hgenerators hscanners (fun p hp => .inl (hseen _ hp)) (fun c hc => .inl (hseen _ hc))
    hwaiting hreceived

theorem seen_cons (htraffic : s'.traffic = file :: s.traffic) (h : s'.Seen t) :
    t ∈ file.terms ∨ s.Seen t := by
  obtain ⟨file', hfile, ht⟩ := h
  rw [htraffic] at hfile
  rcases mem_cons.mp hfile with rfl | hfile
  · exact .inl ht
  · exact .inr ⟨file', hfile, ht⟩

theorem pub_of_envelope {nonce : ℕ} (htraffic : s'.traffic = n.envelope creds nonce :: s.traffic)
    {p : Party} (h : s'.Seen (.pub p)) : s.Seen (.pub p) := by
  rcases seen_cons htraffic h with hnew | hold
  · rw [terms_envelope] at hnew
    exact absurd (mem_singleton.mp hnew) (by simp)
  · exact hold

theorem sealed_of_envelope {nonce : ℕ} (htraffic : s'.traffic = n.envelope creds nonce :: s.traffic)
    {c : Ciphertext} (h : s'.Seen (.sealed c)) : SealedBy n creds c ∨ s.Seen (.sealed c) := by
  rcases seen_cons htraffic h with hnew | hold
  · rw [terms_envelope] at hnew
    obtain rfl := Term.sealed.inj (mem_singleton.mp hnew)
    exact .inl ⟨rfl, rfl, rfl⟩
  · exact .inr hold

theorem seen_of_hello (htraffic : s'.traffic = scannerHello n :: s.traffic) (h : s'.Seen t) :
    t = .pub n.scannerPub.party ∨ s.Seen t := by
  rcases seen_cons htraffic h with hnew | hold
  · rw [terms_scannerHello] at hnew
    exact .inl (mem_singleton.mp hnew)
  · exact .inr hold

variable {call : GeneratorCall}

theorem moves_setGenerator (hcall : s.generators[i]? = some call)
    (hold : ∀ m creds written, call.run ≠ .sent m creds written) (r : Run) :
    Moves (s.generators.map GeneratorCall.run)
      ((s.setGenerator i call r).generators.map GeneratorCall.run) r := by
  show Moves _ ((s.generators.set i { call with run := r }).map GeneratorCall.run) r
  rw [map_set]
  refine Moves.set ?_ hold r
  rw [List.getElem?_map, hcall]
  rfl

/-- A call of `complete` goes on, and nothing new is written. -/
theorem Sound.setGenerator (h : Sound intent s) (hcall : s.generators[i]? = some call)
    (hold : ∀ m creds written, call.run ≠ .sent m creds written)
    (hwaiting : ∀ n, r = .waitingCredentials n → n.generatorPub.party = .generator)
    (hreceived : ∀ n creds, r = .received n creds → SentAlike intent s n creds) :
    Sound intent (s.setGenerator i call r) :=
  h.quiet (moves_setGenerator hcall hold r) (Moves.refl _ _) rfl hwaiting hreceived

theorem Sound.setScanner (h : Sound intent s) {old : Run} (hi : s.scanners[i]? = some old)
    (hold : ∀ m creds written, old ≠ .sent m creds written)
    (hwaiting : ∀ n, r = .waitingCredentials n → n.generatorPub.party = .generator)
    (hreceived : ∀ n creds, r = .received n creds → SentAlike intent s n creds) :
    Sound intent (s.setScanner i r) :=
  h.quiet (Moves.refl _ _) (Moves.set hi hold r) rfl hwaiting hreceived

theorem Sound.failed_generator (h : Sound intent s) (hcall : s.generators[i]? = some call)
    (hold : ∀ m creds written, call.run ≠ .sent m creds written) (e : HandshakeError) :
    Sound intent (s.setGenerator i call (.failed e)) :=
  h.setGenerator hcall hold (fun _ hr => absurd hr (by simp)) fun _ _ hr => absurd hr (by simp)

theorem Sound.generatorHears (h : Sound intent s) (hcall : s.generators[i]? = some call)
    (hrun : call.run = .waitingHello) (file : RelayFile) (nonce : ℕ) (written : Bool) :
    Sound intent (s.generatorHears intent i call file nonce written) := by
  have hold : ∀ m creds written, call.run ≠ .sent m creds written := fun _ _ _ hsent => by
    rw [hrun] at hsent
    exact absurd hsent (by simp)
  unfold Pairing.generatorHears
  split
  · exact h.failed_generator hcall hold _
  · rename_i n hn
    split
    · rename_i creds _
      refine h.move (moves_setGenerator hcall hold _) (Moves.refl _ _) (fun p hp => ?_)
        (fun c hc => ?_) (fun _ hr => absurd hr (by simp)) fun _ _ hr => absurd hr (by simp)
      · exact .inl (pub_of_envelope rfl hp)
      · rcases sealed_of_envelope rfl hc with hsealed | hold
        · refine .inr ⟨n, creds, written, ?_, hsealed⟩
          show _ ∈ (s.generators.set i _).map GeneratorCall.run
          rw [map_set]
          obtain ⟨hlt, -⟩ := List.getElem?_eq_some_iff.mp hcall
          exact mem_set (by rwa [length_map]) _
        · exact .inl hold
    · refine h.setGenerator hcall hold (fun n' hr => ?_) fun _ _ hr => absurd hr (by simp)
      obtain rfl := Run.waitingCredentials.inj hr
      exact hears_generatorPub hn

theorem Sound.hello (h : Sound intent s) (hn : n.scannerPub.party ≠ .generator) :
    Sound intent { s with traffic := scannerHello n :: s.traffic } := by
  refine h.move (r := .waitingHello) (Moves.refl _ _) (Moves.refl _ _) (fun p hp => ?_)
    (fun c hc => ?_) (fun _ hr => absurd hr (by simp)) fun _ _ hr => absurd hr (by simp)
  · rcases seen_of_hello rfl hp with hnew | hold
    · obtain rfl := Term.pub.inj hnew
      exact .inr hn
    · exact .inl hold
  · rcases seen_of_hello rfl hc with hnew | hold
    · exact absurd hnew (by simp)
    · exact .inl hold

theorem Sound.scans (h : Sound intent s) (hgenerator : n.generatorPub.party = .generator)
    (hscanner : n.scannerPub.party ≠ .generator) (own : Option HandshakeCredentials) (nonce : ℕ)
    (helloWritten written : Bool) :
    Sound intent (s.scans intent n own nonce helloWritten written) := by
  have hhello := h.hello hscanner
  unfold Pairing.scans
  dsimp only
  split
  · exact hhello.quiet (Moves.refl _ _) (Moves.append _ _) rfl (fun _ hr => absurd hr (by simp))
      fun _ _ hr => absurd hr (by simp)
  · split
    · rename_i creds
      refine hhello.move (Moves.refl _ _) (Moves.append _ (.sent n creds written))
        (fun p hp => ?_) (fun c hc => ?_) (fun _ hr => absurd hr (by simp))
        fun _ _ hr => absurd hr (by simp)
      · exact .inl (pub_of_envelope rfl hp)
      · rcases sealed_of_envelope (s := { s with traffic := scannerHello n :: s.traffic }) rfl hc
          with hsealed | hold
        · have hlast : Run.sent n creds written ∈ s.scanners ++ [.sent n creds written] :=
            mem_append_right _ (mem_singleton_self _)
          exact .inr ⟨n, creds, written, hlast, hsealed⟩
        · exact .inl hold
    · refine hhello.quiet (Moves.refl _ _) (Moves.append _ _) rfl (fun n' hr => ?_)
        fun _ _ hr => absurd hr (by simp)
      obtain rfl := Run.waitingCredentials.inj hr
      exact hgenerator

theorem complete_run {handshakeId : Text} {own : Option HandshakeCredentials}
    {capabilities : JsValue} (h : complete intent handshakeId own capabilities = .ok call) :
    call.run = .waitingHello := by
  obtain ⟨_, -, h⟩ := of_bind_eq_ok h
  obtain ⟨_, -, h⟩ := of_bind_eq_ok h
  obtain ⟨_, -, h⟩ := of_bind_eq_ok h
  obtain ⟨_, -, h⟩ := of_bind_eq_ok h
  obtain rfl := Except.ok.inj h
  rfl

theorem Sound.generatorReads (h : Sound intent s) {i nonce : ℕ} {written : Bool}
    (hfile : ∀ t ∈ file.terms, Derives Relays s.Seen t)
    (hs : step intent s (.generatorReads i file nonce written) = some s') : Sound intent s' := by
  obtain ⟨call, hcall, hs⟩ := bind_eq_some_iff.mp hs
  split at hs
  · rename_i hrun
    obtain rfl := some.inj hs
    split_ifs
    · exact h
    · exact h.generatorHears hcall hrun file nonce written
  · rename_i n hrun
    obtain rfl := some.inj hs
    split_ifs
    · exact h
    · have hmem : Run.waitingCredentials n ∈ s.generators.map GeneratorCall.run :=
        mem_map.mpr ⟨call, mem_of_getElem? hcall, hrun⟩
      have hn := h.waiting n (.inl hmem)
      refine h.setGenerator hcall (fun _ _ _ hsent => ?_) (fun n' hr => ?_) fun n' creds hr => ?_
      · rw [hrun] at hsent
        exact absurd hsent (by simp)
      · exact absurd hr (n.opens_ne_waiting file n')
      · obtain ⟨rfl, halike⟩ := h.opens hn hfile hr
        exact halike
  · exact absurd hs (by simp)

theorem Sound.scannerReads (h : Sound intent s) (hfile : ∀ t ∈ file.terms, Derives Relays s.Seen t)
    (hs : step intent s (.scannerReads i file) = some s') : Sound intent s' := by
  obtain ⟨run, hrun, hs⟩ := bind_eq_some_iff.mp hs
  split at hs
  · rename_i n
    obtain rfl := some.inj hs
    split_ifs
    · exact h
    · have hn := h.waiting n (.inr (mem_of_getElem? hrun))
      refine h.setScanner hrun (fun _ _ _ hsent => absurd hsent (by simp)) (fun n' hr => ?_)
        fun n' creds hr => ?_
      · exact absurd hr (n.opens_ne_waiting file n')
      · obtain ⟨rfl, halike⟩ := h.opens hn hfile hr
        exact halike
  · exact absurd hs (by simp)

/-- **One step.** -/
theorem sound_step {e : PairingEvent} (h : Sound intent s) (hs : step intent s e = some s')
    (hok : Relayed s e) : Sound intent s' := by
  cases e with
  | complete handshakeId own capabilities =>
    simp only [step] at hs
    split at hs
    · rename_i call hcall
      obtain rfl := some.inj hs
      have hwaits := complete_run hcall
      refine h.quiet (r := .waitingHello) ?_ (Moves.refl _ _) rfl (fun _ hr => absurd hr (by simp))
        fun _ _ hr => absurd hr (by simp)
      rw [map_append, map_singleton, hwaits]
      exact Moves.append _ _
    · obtain rfl := some.inj hs
      exact h
  | generatorReads i file nonce written => exact h.generatorReads hok hs
  | generatorTimesOut i =>
    obtain ⟨call, hcall, hs⟩ := bind_eq_some_iff.mp hs
    split at hs
    · rename_i hrun
      obtain rfl := some.inj hs
      exact h.failed_generator hcall (fun _ _ _ hsent => absurd (hrun.symm.trans hsent) (by simp)) _
    · rename_i hrun
      obtain rfl := some.inj hs
      exact h.failed_generator hcall (fun _ _ _ hsent => absurd (hrun.symm.trans hsent) (by simp)) _
    · exact absurd hs (by simp)
  | scan handshakeId invited own capabilities nonce helloWritten written =>
    simp only [step] at hs
    split at hs
    · rename_i n hn
      obtain rfl := some.inj hs
      obtain ⟨hgenerator, hscanner⟩ := runScannerHandshake_pubs hn
      refine h.scans hgenerator ?_ own nonce helloWritten written
      rw [hscanner]
      exact fun hne => absurd hne (by simp)
    · obtain rfl := some.inj hs
      exact h
  | scannerReads i file => exact h.scannerReads hok hs
  | scannerTimesOut i =>
    obtain ⟨run, hrun, hs⟩ := bind_eq_some_iff.mp hs
    split at hs
    · obtain rfl := some.inj hs
      exact h.setScanner hrun (fun _ _ _ hsent => absurd hsent (by simp))
        (fun _ hr => absurd hr (by simp)) fun _ _ hr => absurd hr (by simp)
    · exact absurd hs (by simp)

theorem sound_start : Sound intent start where
  pubs p hp := by
    obtain ⟨file, hfile, -⟩ := hp
    exact absurd hfile not_mem_nil
  seals c hc := by
    obtain ⟨file, hfile, -⟩ := hc
    exact absurd hfile not_mem_nil
  waiting n hn := by
    rcases hn with hn | hn
    · exact absurd hn not_mem_nil
    · exact absurd hn not_mem_nil
  joined n creds hn := by
    cases intent with
    | share => exact absurd hn not_mem_nil
    | join => exact absurd hn not_mem_nil

/-- **Pairing.**  Whatever the relay does, a device that joins with credentials has got them from a
device that shares its key.  If one of the profiles that one of the two devices holds requires
something, they hold the same two profiles; and each of them holds two profiles of which both
support what one of them requires. -/
theorem pairing_agrees (intent : HandshakeIntent) {s : Pairing}
    (h : Reached start (step intent) Relayed s) {n : Negotiated} {creds : HandshakeCredentials}
    (hjoined : Run.received n creds ∈ s.joiners intent) :
    ∃ m written, Run.sent m creds written ∈ s.senders intent ∧ n.wrappingKey = m.wrappingKey ∧
      (n.Requires ∨ m.Requires → n.profiles = m.profiles) ∧
      Compatible n.generatorCapabilities n.scannerCapabilities ∧
      Compatible m.generatorCapabilities m.scannerCapabilities := by
  have hsound : Sound intent s :=
    h.invariant sound_start fun _ _ _ hi hs hok => sound_step hi hs hok
  obtain ⟨m, written, hm, hkey, hdata⟩ := hsound.joined n creds hjoined
  exact ⟨m, written, hm, hkey, Negotiated.profiles_of_additionalData hdata, n.compatible,
    m.compatible⟩

/-! ### Two runs -/

/-- A profile as an application gives it. -/
def profileOf (supported required : List Text) : JsValue :=
  .object [(ProfileField.supported.key, idsValue supported),
    (ProfileField.required.key, idsValue required)]

/-- A path, and no passphrase. -/
def meshCredentials : HandshakeCredentials := ⟨[109], none, none⟩

/-- A generator that supports `a` waits to share, and a scanner with the profile scans. -/
def scanned (profile : JsValue) : List PairingEvent :=
  [.complete [104] (some meshCredentials) (profileOf [[97]] []),
    .scan [104] (profileOf [[97]] []) none profile 0 true true]

/-- What was written last. -/
def lastWritten (s : Pairing) : RelayFile := s.traffic.headD .missing

theorem derives_lastWritten (s : Pairing) : ∀ t ∈ s.lastWritten.terms, Derives Relays s.Seen t := by
  intro t ht
  unfold lastWritten at ht
  cases htraffic : s.traffic with
  | nil =>
    rw [htraffic] at ht
    exact absurd ht not_mem_nil
  | cons file files =>
    rw [htraffic] at ht
    exact .seen ⟨file, by rw [htraffic]; exact mem_cons_self, ht⟩

/-- The generator reads some hello, and the scanner reads what the generator has written. -/
theorem reached_shared {profile : JsValue} {hello : RelayFile} {s₁ s₂ s₃ : Pairing}
    (h₁ : run (step .share) start (scanned profile) = some s₁)
    (hhello : ∀ t ∈ hello.terms, Derives Relays s₁.Seen t)
    (h₂ : step .share s₁ (.generatorReads 0 hello 1 true) = some s₂)
    (h₃ : step .share s₂ (.scannerReads 0 s₂.lastWritten) = some s₃) :
    Reached start (step .share) Relayed s₃ := by
  have hscanned : Reached start (step .share) Relayed s₁ := by
    refine Reached.run .start _ (allOk_of_forall (fun _ e he => ?_) _) h₁
    rcases mem_pair.mp he with rfl | rfl <;> trivial
  exact (hscanned.step h₂ hhello).step h₃ (derives_lastWritten s₂)

/-- A scanner that requires `a` gets the credentials from a generator that knows it does. -/
theorem required_profile_is_shared :
    ∃ s n m written, Reached start (step .share) Relayed s ∧
      Run.received n meshCredentials ∈ s.joiners .share ∧ n.Requires ∧
      Run.sent m meshCredentials written ∈ s.senders .share ∧ n.profiles = m.profiles := by
  obtain ⟨s₁, h₁⟩ : ∃ s, run (step .share) start (scanned (profileOf [[97]] [[97]])) = some s :=
    ⟨_, rfl⟩
  obtain ⟨s₂, h₂⟩ : ∃ s, step .share s₁ (.generatorReads 0 s₁.lastWritten 1 true) = some s := by
    obtain rfl := some.inj h₁
    exact ⟨_, rfl⟩
  obtain ⟨s₃, n, h₃, hjoined, hrequires⟩ : ∃ s n,
      step .share s₂ (.scannerReads 0 s₂.lastWritten) = some s ∧
        Run.received n meshCredentials ∈ s.joiners .share ∧ n.Requires := by
    obtain rfl := some.inj h₁
    obtain rfl := some.inj h₂
    exact ⟨_, _, rfl, mem_singleton_self _, .inr (by decide)⟩
  have hreached := reached_shared h₁ (derives_lastWritten s₁) h₂ h₃
  obtain ⟨m, written, hm, -, hprofiles, -⟩ := pairing_agrees .share hreached hjoined
  exact ⟨s₃, n, m, written, hreached, hjoined, hrequires, hm, hprofiles (.inl hrequires)⟩

/-- The hello of the first scan, without a profile. -/
def strippedHello : RelayFile :=
  .object {
    pub := .pub (exportECDHPublicKey (.scanner 0))
    capabilities := .value .undefined
    v := .value .undefined
    iv := .value .undefined
    ct := .value .undefined }

/-- **Where nothing is required.**  The relay takes the profile out of the hello of a scanner that
supports `a` and requires nothing.  The scanner gets the credentials, and every device that has sent
any holds another pair of profiles. -/
theorem stripped_profile :
    ∃ s n, Reached start (step .share) Relayed s ∧
      Run.received n meshCredentials ∈ s.joiners .share ∧
      ∀ m creds written, Run.sent m creds written ∈ s.senders .share → n.profiles ≠ m.profiles := by
  obtain ⟨s₁, h₁⟩ : ∃ s, run (step .share) start (scanned (profileOf [[97]] [])) = some s :=
    ⟨_, rfl⟩
  obtain ⟨s₂, h₂⟩ : ∃ s, step .share s₁ (.generatorReads 0 strippedHello 1 true) = some s := by
    obtain rfl := some.inj h₁
    exact ⟨_, rfl⟩
  have hhello : ∀ t ∈ strippedHello.terms, Derives Relays s₁.Seen t := by
    have hterms : strippedHello.terms = s₁.lastWritten.terms := by
      obtain rfl := some.inj h₁
      rfl
    rw [hterms]
    exact derives_lastWritten s₁
  obtain ⟨s₃, n, h₃, hjoined, hprofiles⟩ : ∃ s n,
      step .share s₂ (.scannerReads 0 s₂.lastWritten) = some s ∧
        Run.received n meshCredentials ∈ s.joiners .share ∧
        ∀ m creds written, Run.sent m creds written ∈ s.senders .share →
          n.profiles ≠ m.profiles := by
    obtain rfl := some.inj h₁
    obtain rfl := some.inj h₂
    refine ⟨_, _, rfl, mem_singleton_self _, fun m creds written hm => ?_⟩
    obtain ⟨rfl, -, -⟩ := Run.sent.inj (mem_singleton.mp hm)
    decide
  exact ⟨s₃, n, reached_shared h₁ hhello h₂ h₃, hjoined, hprofiles⟩

end Pairing

end Handshake

end Interocitor
