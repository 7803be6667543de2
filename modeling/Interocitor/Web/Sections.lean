import Interocitor.Foundation.CodeUnits
import Interocitor.Foundation.GuardedRuns

/-!
# `resilient-store.ts`: locked sections

The resilient store runs every call on its active store, and if that fails because the IndexedDB
connection is going away, it replaces the store by one in memory and makes the call again.  For a
read that is harmless.  `withLock` goes through the same helper: the call that is made again is the
whole section, and the lock it is made under is another one, since a memory store has locks of its
own.

A section is a call of `withLock`.  Its body is code of the caller, which may end when it likes and
throw what it likes.  The lock is one of three: Web Locks under the name of the database, the
queue in this realm that is used where Web Locks is refused, and the queue of a memory store.
Everything else the store is asked to do shows up here only by what it does to the active store:
it is opened and closed, and any call may degrade it.

* `sections_exclusive`: sections run once and not beside each other, as long as none of them ends
  with a connection error while the store may still degrade, and each is requested from the lock
  that the unfinished ones of its name stand at.
* `section_runs_twice_or_beside`: runs in which a section is started twice, and in which two of one
  name overlap.
-/

namespace Interocitor

namespace Web

open CodeUnits GuardedRuns Option

/-! ## Which errors mean that the connection is gone -/

/-- `toLowerCase`, on the letters that the phrases below are made of. -/
def toLowerCase (text : Text) : Text := text.map fun u => if 65 ≤ u ∧ u ≤ 90 then u + 32 else u

/-- `includes`. -/
def includes (text phrase : Text) : Bool := text.tails.any fun t => phrase.isPrefixOf t

/-- `"connection is closing"`, which is also in `"database connection is closing"`. -/
def connectionIsClosing : Text :=
  [99, 111, 110, 110, 101, 99, 116, 105, 111, 110, 32, 105, 115, 32, 99, 108, 111, 115, 105, 110,
    103]

/-- `"database "`. -/
def databasePhrase : Text := [100, 97, 116, 97, 98, 97, 115, 101, 32]

/-- `"invalidstateerror"`. -/
def invalidStateError : Text :=
  [105, 110, 118, 97, 108, 105, 100, 115, 116, 97, 116, 101, 101, 114, 114, 111, 114]

/-- `"the database connection is closed"`. -/
def databaseConnectionIsClosed : Text :=
  [116, 104, 101, 32] ++ databasePhrase ++
    [99, 111, 110, 110, 101, 99, 116, 105, 111, 110, 32, 105, 115, 32, 99, 108, 111, 115, 101, 100]

/-- `"transaction on idbdatabase"`. -/
def transactionOnIdbDatabase : Text :=
  [116, 114, 97, 110, 115, 97, 99, 116, 105, 111, 110, 32, 111, 110, 32, 105, 100, 98, 100, 97, 116,
    97, 98, 97, 115, 101]

/-- `"connection closed"`. -/
def connectionClosed : Text :=
  [99, 111, 110, 110, 101, 99, 116, 105, 111, 110, 32, 99, 108, 111, 115, 101, 100]

/-- `isUnrecoverableIdbState`, of the message of an error. -/
def isUnrecoverableIdbState (message : Text) : Bool :=
  let normalized := toLowerCase message
  includes normalized (databasePhrase ++ connectionIsClosing) ||
    includes normalized connectionIsClosing ||
    includes normalized invalidStateError ||
    includes normalized databaseConnectionIsClosed ||
    includes normalized transactionOnIdbDatabase ||
    includes normalized connectionClosed

/-! ## The store and its sections -/

/-- The lock that a section is requested from: Web Locks, the queue of this realm, or the queue of
a memory store. -/
inductive Lock where
  | webLocks
  | fallback
  | memory (n : ℕ)
  deriving DecidableEq

/-- The store that calls go to: the IndexedDB store, or a memory store. -/
inductive Store where
  | primary
  | memory (n : ℕ)
  deriving DecidableEq

/-- Where a section is. -/
inductive Phase where
  | waiting (lock : Lock)
  | running (lock : Lock)
  -- the body has thrown, and `runWithRecovery` has not seen it yet
  | failed (message : Text)
  | settled
  deriving DecidableEq

/-- A call of `withLock`: how often its body was started, and whether it is the second try. -/
structure Section where
  name : Text
  phase : Phase
  retried : Bool
  starts : ℕ
  deriving DecidableEq

/-- The lock that a section waits for or holds. -/
def Section.lock (c : Section) : Option Lock :=
  match c.phase with
  | .waiting lock => some lock
  | .running lock => some lock
  | _ => none

/-- The body of the section is running. -/
def Section.Running (c : Section) : Prop := ∃ lock, c.phase = .running lock

/-- One resilient store: `active`, `degraded`, the `open` calls on their way, the unpushed marker,
how many memory stores were made, and whether this realm has given up on Web Locks. -/
structure ResilientStore where
  active : Option Store
  degraded : Bool
  opening : ℕ
  marker : Bool
  memories : ℕ
  refused : Bool
  sections : List Section
  deriving DecidableEq

/-- What can happen. -/
inductive Event where
  -- `withLock` is called; Web Locks may be missing
  | request (name : Text) (available : Bool)
  | grant (i : ℕ)
  -- Web Locks rejects a request before the section was entered
  | refuse (i : ℕ) (permanent : Bool)
  | finish (i : ℕ)
  | fail (i : ℕ) (message : Text)
  | recover (i : ℕ)
  -- some other call of the store fails
  | otherFails (message : Text)
  -- some other call has set or cleared the marker
  | mark (dirty : Bool)
  | callOpen
  | opened
  | openFails
  | close
  deriving DecidableEq

namespace ResilientStore

/-- A store that was not opened yet. -/
def fresh (marker : Bool) : ResilientStore := ⟨none, false, 0, marker, 0, false, []⟩

/-- `fallback`: a memory store, unless unpushed writes forbid it. -/
def fallback (allow : Bool) (s : ResilientStore) : Option ResilientStore :=
  if !allow && s.marker then none
  else some { s with
    active := some (.memory s.memories)
    degraded := true
    memories := s.memories + 1 }

/-- The lock that a section on the active store is requested from. -/
def lockOf (s : ResilientStore) (available : Bool) : Option Lock :=
  match s.active with
  | none => none
  | some .primary => some (if available && !s.refused then .webLocks else .fallback)
  | some (.memory n) => some (.memory n)

/-- A section of that name is running under the lock. -/
def held (s : ResilientStore) (lock : Lock) (name : Text) : Bool :=
  s.sections.any fun c => decide (c.name = name ∧ c.phase = .running lock)

/-- Replace a section. -/
def update (s : ResilientStore) (i : ℕ) (c : Section) : ResilientStore :=
  { s with sections := s.sections.set i c }

/-- What `runWithRecovery` does with the error of a section: it is the caller's, unless the store
degrades and the section is requested again, now from the memory store. -/
def recover (allow : Bool) (s : ResilientStore) (i : ℕ) (c : Section) (message : Text) :
    ResilientStore :=
  if !isUnrecoverableIdbState message || s.degraded then s.update i { c with phase := .settled }
  else
    match s.fallback allow with
    | none => s.update i { c with phase := .settled }
    | some s' => s'.update i { c with phase := .waiting (.memory s.memories), retried := true }

/-- One step, if the event can happen. -/
def step (allow : Bool) (s : ResilientStore) : Event → Option ResilientStore
  | .request name available =>
    (s.lockOf available).map fun lock =>
      { s with sections := s.sections ++ [⟨name, .waiting lock, false, 0⟩] }
  | .grant i =>
    s.sections[i]?.bind fun c =>
      match c.phase with
      | .waiting lock =>
        if s.held lock c.name then none
        else some (s.update i { c with phase := .running lock, starts := c.starts + 1 })
      | _ => none
  | .refuse i permanent =>
    s.sections[i]?.bind fun c =>
      if c.phase = .waiting .webLocks then
        some { s.update i { c with phase := .waiting .fallback } with
          refused := s.refused || permanent }
      else none
  | .finish i =>
    s.sections[i]?.bind fun c =>
      match c.phase with
      | .running _ => some (s.update i { c with phase := .settled })
      | _ => none
  | .fail i message =>
    s.sections[i]?.bind fun c =>
      match c.phase with
      | .running _ =>
        -- the second try is not wrapped again
        some (s.update i { c with phase := if c.retried then .settled else .failed message })
      | _ => none
  | .recover i =>
    s.sections[i]?.bind fun c =>
      match c.phase with
      | .failed message => some (s.recover allow i c message)
      | _ => none
  | .otherFails message =>
    if !isUnrecoverableIdbState message || s.degraded then some s
    else some ((s.fallback allow).getD s)
  | .mark dirty => some { s with marker := dirty }
  | .callOpen => if s.active.isSome then some s else some { s with opening := s.opening + 1 }
  | .opened =>
    if s.opening = 0 then none
    else some { s with active := some .primary, opening := s.opening - 1 }
  | .openFails =>
    if s.opening = 0 then none
    else some ((({ s with opening := s.opening - 1 } : ResilientStore).fallback allow).getD
      { s with opening := s.opening - 1 })
  | .close => if s.active.isSome then some { s with active := none, degraded := false } else some s

/-! ## What keeps sections apart -/

/-- The condition on a step: a section that ends with a connection error finds the store degraded
already or not to be degraded, and a section is requested from the lock at which every unfinished
section of its name stands. -/
def Orderly (allow : Bool) (s : ResilientStore) : Event → Prop
  | .request name available => ∀ lock, s.lockOf available = some lock →
      ∀ c ∈ s.sections, c.name = name → ∀ l, c.lock = some l → l = lock
  | .refuse i _ => ∀ c, s.sections[i]? = some c → ∀ (j : ℕ) c', j ≠ i → s.sections[j]? = some c' →
      c'.name = c.name → ∀ l, c'.lock = some l → l = .fallback
  | .recover i => ∀ c message, s.sections[i]? = some c → c.phase = .failed message →
      isUnrecoverableIdbState message = true → s.degraded = true ∨ (allow = false ∧ s.marker = true)
  | _ => True

end ResilientStore

/-- Sections that were started at most once, of which those of one name stand at one lock, and at
most one of them is running. -/
structure Exclusive (sections : List Section) : Prop where
  once : ∀ (i : ℕ) c, sections[i]? = some c → c.starts ≤ 1
  unstarted : ∀ (i : ℕ) c, sections[i]? = some c → ∀ l, c.phase = .waiting l → c.starts = 0
  oneLock : ∀ (i j : ℕ) c d, i ≠ j → sections[i]? = some c → sections[j]? = some d →
    c.name = d.name → ∀ l l', c.lock = some l → d.lock = some l' → l = l'
  alone : ∀ (i j : ℕ) c d, i ≠ j → sections[i]? = some c → sections[j]? = some d →
    c.name = d.name → c.Running → ¬ d.Running

section Exclusive

variable {sections : List Section} {i : ℕ} {c c' : Section}

theorem exclusive_nil : Exclusive [] :=
  ⟨fun i c h => by simp at h, fun i c h => by simp at h, fun i j c d _ h => by simp at h,
    fun i j c d _ h => by simp at h⟩

/-- What the other sections of a name have to be for a section to be as it is. -/
structure Fits (sections : List Section) (i : ℕ) (c' : Section) : Prop where
  once : c'.starts ≤ 1
  unstarted : ∀ l, c'.phase = .waiting l → c'.starts = 0
  oneLock : ∀ (j : ℕ) d, j ≠ i → sections[j]? = some d → d.name = c'.name →
    ∀ l l', c'.lock = some l → d.lock = some l' → l' = l
  alone : c'.Running → ∀ (j : ℕ) d, j ≠ i → sections[j]? = some d → d.name = c'.name → ¬ d.Running

/-- **One section at a time:** lists that differ in one place. -/
theorem Exclusive.replace {sections' : List Section} (h : Exclusive sections)
    (hfits : Fits sections i c') (hself : ∀ d, sections'[i]? = some d → d = c')
    (hother : ∀ j, j ≠ i → sections'[j]? = sections[j]?) : Exclusive sections' := by
  refine ⟨fun j d hd => ?_, fun j d hd => ?_, fun j k d e hjk hd he hname l l' hl hl' => ?_,
    fun j k d e hjk hd he hname hrun => ?_⟩
  · by_cases hj : j = i
    · subst hj
      rw [hself d hd]
      exact hfits.once
    · exact h.once j d (hother j hj ▸ hd)
  · by_cases hj : j = i
    · subst hj
      rw [hself d hd]
      exact hfits.unstarted
    · exact h.unstarted j d (hother j hj ▸ hd)
  · by_cases hj : j = i
    · subst hj
      obtain rfl := hself d hd
      rw [hother k (Ne.symm hjk)] at he
      exact (hfits.oneLock k e (Ne.symm hjk) he hname.symm l l' hl hl').symm
    · rw [hother j hj] at hd
      by_cases hk : k = i
      · subst hk
        obtain rfl := hself e he
        exact hfits.oneLock j d hj hd hname l' l hl' hl
      · rw [hother k hk] at he
        exact h.oneLock j k d e hjk hd he hname l l' hl hl'
  · by_cases hj : j = i
    · subst hj
      obtain rfl := hself d hd
      rw [hother k (Ne.symm hjk)] at he
      exact hfits.alone hrun k e (Ne.symm hjk) he hname.symm
    · rw [hother j hj] at hd
      by_cases hk : k = i
      · subst hk
        obtain rfl := hself e he
        exact fun hrun' => hfits.alone hrun' j d hj hd hname hrun
      · rw [hother k hk] at he
        exact h.alone j k d e hjk hd he hname hrun

theorem Exclusive.set (h : Exclusive sections) (hfits : Fits sections i c') :
    Exclusive (sections.set i c') := by
  refine h.replace hfits (fun d hd => ?_) fun j hj => ?_
  · rw [List.getElem?_set_self'] at hd
    obtain ⟨-, -, rfl⟩ := map_eq_some_iff.mp hd
    rfl
  · exact List.getElem?_set_ne (Ne.symm hj)

theorem Exclusive.append (h : Exclusive sections) (hfits : Fits sections sections.length c') :
    Exclusive (sections ++ [c']) := by
  refine h.replace hfits (fun d hd => ?_) fun j hj => ?_
  · rw [List.getElem?_append_right (le_refl _), Nat.sub_self] at hd
    exact (some.inj hd).symm
  · rcases Nat.lt_or_gt_of_ne hj with hlt | hgt
    · exact List.getElem?_append_left hlt
    · rw [List.getElem?_eq_none (by rw [List.length_append, List.length_singleton]; omega),
        List.getElem?_eq_none (by omega)]

theorem fits_of_lock_eq_none (hlock : c'.lock = none) (honce : c'.starts ≤ 1) :
    Fits sections i c' := by
  refine ⟨honce, fun l hl => ?_, fun j d _ _ _ l l' hl => ?_, fun hrun => ?_⟩
  · rw [Section.lock, hl] at hlock
    exact absurd hlock (by simp)
  · rw [hlock] at hl
    exact absurd hl (by simp)
  · obtain ⟨l, hl⟩ := hrun
    rw [Section.lock, hl] at hlock
    exact absurd hlock (by simp)

end Exclusive

namespace ResilientStore

variable {allow : Bool} {s s' : ResilientStore}

theorem sections_fallback (h : s.fallback allow = some s') : s'.sections = s.sections := by
  rw [fallback] at h
  split_ifs at h
  obtain rfl := some.inj h
  rfl

theorem sections_getD_fallback (s : ResilientStore) :
    ((s.fallback allow).getD s).sections = s.sections := by
  cases hf : s.fallback allow with
  | none => rfl
  | some s' => exact sections_fallback hf

theorem recover_eq {i : ℕ} {c : Section} {message : Text}
    (h : isUnrecoverableIdbState message = true →
      s.degraded = true ∨ allow = false ∧ s.marker = true) :
    s.recover allow i c message = s.update i { c with phase := .settled } := by
  rw [recover]
  split_ifs with hcond
  · rfl
  · rw [Bool.or_eq_true, not_or, Bool.not_eq_true', Bool.not_eq_false, Bool.not_eq_true] at hcond
    rcases h hcond.1 with hdegraded | ⟨rfl, hmarker⟩
    · exact absurd (hcond.2.symm.trans hdegraded) (by simp)
    · rw [fallback, hmarker]
      rfl

/-- **One orderly step keeps sections apart.** -/
theorem exclusive_step {e : Event} (h : Exclusive s.sections) (hs : s.step allow e = some s')
    (hok : s.Orderly allow e) : Exclusive s'.sections := by
  cases e with
  | request name available =>
    obtain ⟨lock, hlock, rfl⟩ := map_eq_some_iff.mp hs
    refine h.append ⟨Nat.zero_le _, fun _ _ => rfl, fun j d _ hd hname l l' hl hl' => ?_,
      fun hrun => ?_⟩
    · obtain rfl : lock = l := some.inj hl
      exact hok lock hlock d (List.mem_of_getElem? hd) hname l' hl'
    · obtain ⟨l, hl⟩ := hrun
      exact absurd hl (by simp)
  | grant i =>
    obtain ⟨c, hc, hs⟩ := bind_eq_some_iff.mp hs
    split at hs
    · rename_i lock hphase
      split_ifs at hs with hheld
      obtain rfl := some.inj hs
      have hlock : c.lock = some lock := by rw [Section.lock, hphase]
      refine h.set ⟨?_, fun l hl => absurd hl (by simp), fun j d hj hd hname l l' hl hl' => ?_,
        fun _ j d hj hd hname hrun => hheld ?_⟩
      · rw [h.unstarted i c hc lock hphase]
      · obtain rfl : lock = l := some.inj hl
        exact h.oneLock j i d c hj hd hc hname l' lock hl' hlock
      · -- the other one stands at the same lock, which would be held
        obtain ⟨l, hl⟩ := hrun
        have hl' : d.lock = some l := by rw [Section.lock, hl]
        obtain rfl : l = lock := h.oneLock j i d c hj hd hc hname l lock hl' hlock
        exact List.any_eq_true.mpr ⟨d, List.mem_of_getElem? hd, decide_eq_true ⟨hname, hl⟩⟩
    · exact absurd hs (by simp)
  | refuse i permanent =>
    obtain ⟨c, hc, hs⟩ := bind_eq_some_iff.mp hs
    split_ifs at hs with hphase
    obtain rfl := some.inj hs
    refine h.set ⟨h.once i c hc, fun _ _ => h.unstarted i c hc _ hphase,
      fun j d hj hd hname l l' hl hl' => ?_, fun hrun => ?_⟩
    · obtain rfl : Lock.fallback = l := some.inj hl
      exact hok c hc j d hj hd hname l' hl'
    · obtain ⟨l, hl⟩ := hrun
      exact absurd hl (by simp)
  | finish i =>
    obtain ⟨c, hc, hs⟩ := bind_eq_some_iff.mp hs
    split at hs
    · obtain rfl := some.inj hs
      exact h.set (fits_of_lock_eq_none rfl (h.once i c hc))
    · exact absurd hs (by simp)
  | fail i message =>
    obtain ⟨c, hc, hs⟩ := bind_eq_some_iff.mp hs
    split at hs
    · obtain rfl := some.inj hs
      refine h.set (fits_of_lock_eq_none ?_ (h.once i c hc))
      rw [Section.lock]
      cases c.retried <;> rfl
    · exact absurd hs (by simp)
  | recover i =>
    obtain ⟨c, hc, hs⟩ := bind_eq_some_iff.mp hs
    split at hs
    · rename_i message hphase
      obtain rfl := some.inj hs
      rw [recover_eq (hok c message hc hphase)]
      exact h.set (fits_of_lock_eq_none rfl (h.once i c hc))
    · exact absurd hs (by simp)
  | otherFails message =>
    rw [step] at hs
    split_ifs at hs
    · obtain rfl := some.inj hs
      exact h
    · obtain rfl := some.inj hs
      rw [sections_getD_fallback]
      exact h
  | mark dirty =>
    obtain rfl := some.inj hs
    exact h
  | callOpen =>
    rw [step] at hs
    split_ifs at hs <;> (obtain rfl := some.inj hs; exact h)
  | opened =>
    rw [step] at hs
    split_ifs at hs
    obtain rfl := some.inj hs
    exact h
  | openFails =>
    rw [step] at hs
    split_ifs at hs
    obtain rfl := some.inj hs
    rw [sections_getD_fallback]
    exact h
  | close =>
    rw [step] at hs
    split_ifs at hs <;> (obtain rfl := some.inj hs; exact h)

/-- **Sections run once and not beside each other**, in every run of orderly steps. -/
theorem sections_exclusive {marker : Bool}
    (h : Reached (fresh marker) (step allow) (Orderly allow) s) :
    (∀ c ∈ s.sections, c.starts ≤ 1) ∧
      ∀ (i j : ℕ) c d, i ≠ j → s.sections[i]? = some c → s.sections[j]? = some d →
        c.Running → d.Running → c.name ≠ d.name := by
  have hexclusive : Exclusive s.sections :=
    h.invariant (I := fun s => Exclusive s.sections) exclusive_nil fun _ _ _ => exclusive_step
  refine ⟨fun c hc => ?_, fun i j c d hij hc hd hrun hrun' hname => ?_⟩
  · obtain ⟨i, hi⟩ := List.getElem?_of_mem hc
    exact hexclusive.once i c hi
  · exact hexclusive.alone i j c d hij hc hd hname hrun hrun'

/-- The store is opened on IndexedDB, and a section named `"s"` is entered. -/
def entering : List Event := [.callOpen, .opened, .request [115] true, .grant 0]

/-- The state it is in then. -/
def entered : ResilientStore :=
  ⟨some .primary, false, 0, false, 0, false, [⟨[115], .running .webLocks, false, 1⟩]⟩

/-- The next section of the name is requested from the same lock, and waits for the first. -/
theorem next_section_waits :
    Reached (fresh false) (step false) (Orderly false)
        { entered with sections := entered.sections ++ [⟨[115], .waiting .webLocks, false, 0⟩] } ∧
      ∀ c ∈ entered.sections ++ [⟨[115], .waiting .webLocks, false, 0⟩], c.starts ≤ 1 := by
  have hreached : Reached (fresh false) (step false) (Orderly false) entered := by
    refine Reached.run .start entering ⟨trivial, ?_⟩ rfl
    rintro _ ⟨⟩
    refine ⟨trivial, ?_⟩
    rintro _ ⟨⟩
    exact ⟨fun _ _ c hc => absurd hc List.not_mem_nil, fun _ _ => ⟨trivial, fun _ _ => trivial⟩⟩
  have hnext : Reached (fresh false) (step false) (Orderly false)
      { entered with sections := entered.sections ++ [⟨[115], .waiting .webLocks, false, 0⟩] } := by
    refine hreached.step (e := .request [115] true) rfl fun lock hlock c hc _ l hl => ?_
    obtain rfl : c = ⟨[115], .running .webLocks, false, 1⟩ := List.mem_singleton.mp hc
    exact (some.inj hl).symm.trans (some.inj hlock)
  exact ⟨hnext, (sections_exclusive hnext).1⟩

/-- **A section that ends with `"connection closed"` is run again, and one that is running when the
store degrades has company.** -/
theorem section_runs_twice_or_beside :
    (∃ s, Reached (fresh false) (step false) (fun _ _ => True) s ∧ ∃ c ∈ s.sections, c.starts = 2) ∧
      ∃ s, Reached (fresh false) (step false) (fun _ _ => True) s ∧
        ∃ c d, s.sections[0]? = some c ∧ s.sections[1]? = some d ∧ c.Running ∧ d.Running ∧
          c.name = d.name := by
  have hreached : Reached (fresh false) (step false) (fun _ _ => True) entered :=
    Reached.run .start entering (allOk_of_forall (fun _ _ _ => trivial) _) rfl
  have hrun : ∀ {es : List Event} {s : ResilientStore}, run (step false) entered es = some s →
      Reached (fresh false) (step false) (fun _ _ => True) s := fun hes =>
    hreached.run _ (allOk_of_forall (fun _ _ _ => trivial) _) hes
  have htwice : run (step false) entered [.fail 0 connectionClosed, .recover 0, .grant 0] =
      some ⟨some (.memory 0), true, 0, false, 1, false,
        [⟨[115], .running (.memory 0), true, 2⟩]⟩ := by decide
  have hbeside : run (step false) entered
      [.otherFails connectionClosed, .request [115] true, .grant 1] =
      some ⟨some (.memory 0), true, 0, false, 1, false,
        [⟨[115], .running .webLocks, false, 1⟩, ⟨[115], .running (.memory 0), false, 1⟩]⟩ := by
    decide
  refine ⟨⟨_, hrun htwice, _, List.mem_singleton.mpr rfl, rfl⟩, _, hrun hbeside, _, _, rfl, rfl,
    ⟨_, rfl⟩, ⟨_, rfl⟩, rfl⟩

end ResilientStore

end Web

end Interocitor
