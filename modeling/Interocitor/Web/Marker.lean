import Interocitor.Core.LocalStore
import Interocitor.Web.Sections

/-!
# `resilient-store.ts`: the unpushed marker

A database that holds change history which the remote has never seen must not be given up.  Whether
it does is recorded outside of it, in a slot that can be read when IndexedDB cannot: before the
store degrades to memory, or rotates to a fresh database, the slot is asked.  The slot and the
database are written one after the other --- the database first.

A page is a list of calls on their way.  Each is at an await of the source: the transaction has
not taken effect yet, or it has and the call does not know yet, or the marker is being derived from
the store.  The page may stop at any of them.

Between its transaction and its continuation a call has written what nothing reports yet, and a
marker that is being derived goes by what the store held when it was counted.

* `marker_reports`: outside of that first window the marker never says less than the database, and
  nothing unpublished is given up, if no page stops, degrades or rotates in such a window, and
  nothing is added between a count that finds nothing and the write that says so.
* `crash_before_the_mark`: a page that stops between the write and the mark, and the next one gives
  the write up.
-/

namespace Interocitor

namespace Web

open CodeUnits OrderedRecord GuardedRuns List Option
open Function (update update_of_ne update_self)

/-! ## Calls that write the outbox -/

/-- The calls of a store that can create or clear unpushed state. -/
inductive Write where
  | commitLocalMutation (row : Row) (change : ChangeEntry)
  | promotePendingBatch
  -- forwarded, where the store has it
  | adoptPendingBatch (entry : ChangeEntry)
  | pushOutboxEntries (entries : List ChangeEntry)
  | acknowledgeOutbox (entryIds : List Text)
  | drainOutbox
  | clearAll

/-- The entries whose id is not in the outbox. -/
def newEntries (store : LocalStore) (entries : List ChangeEntry) : List ChangeEntry :=
  entries.filter fun entry => decide (entry.id ∉ store.outbox.map ChangeEntry.id)

/-- The transaction of the IndexedDB store; the outbox has a unique index on ids, and adding an id
that is there aborts. -/
def Write.applyPrimary (store : LocalStore) : Write → Option LocalStore
  | .commitLocalMutation row change => some (store.commitLocalMutation row change)
  | .promotePendingBatch =>
    match store.pendingBatch with
    | some pending =>
      if pending.id ∈ store.outbox.map ChangeEntry.id then none else some store.promotePendingBatch
    | none => some store
  | .adoptPendingBatch entry =>
    -- the header is replaced, and the operations are added to those that are there
    let ops := match store.pendingBatch with
      | some pending => pending.ops ++ entry.ops
      | none => entry.ops
    some { store with pendingBatch := some { entry with ops := ops } }
  | .pushOutboxEntries entries =>
    if ((newEntries store entries).map ChangeEntry.id).Nodup then
      some (store.pushOutboxEntries (newEntries store entries))
    else none
  | .acknowledgeOutbox entryIds => some (store.acknowledgeOutbox entryIds)
  | .drainOutbox => some { store with outbox := [] }
  | .clearAll => some .empty

/-- The same calls of a memory store, which cannot adopt a batch. -/
def Write.applyMemory (store : LocalStore) : Write → Option LocalStore
  | .commitLocalMutation row change => some (store.commitLocalMutation row change)
  | .promotePendingBatch => some store.promotePendingBatch
  | .adoptPendingBatch _ => none
  | .pushOutboxEntries entries => some (store.pushOutboxEntries entries)
  | .acknowledgeOutbox entryIds => some (store.acknowledgeOutbox entryIds)
  | .drainOutbox => some { store with outbox := [] }
  | .clearAll => some .empty

/-- What the wrapper does after the call: it marks the database, or derives the marker from the
store, or neither. -/
inductive Followup where
  | markUnpushed
  | refreshUnpushedMarker
  | nothing
  deriving DecidableEq

/-- The wrapper around each call; `promoted` is what `promotePendingBatch` returned. -/
def Write.followup (promoted : Bool) : Write → Followup
  | .commitLocalMutation _ _ => .markUnpushed
  | .promotePendingBatch => if promoted then .markUnpushed else .nothing
  | .adoptPendingBatch _ => .nothing
  | .pushOutboxEntries entries => if entries = [] then .nothing else .markUnpushed
  | .acknowledgeOutbox _ => .refreshUnpushedMarker
  | .drainOutbox => .refreshUnpushedMarker
  | .clearAll => .refreshUnpushedMarker

/-- The call adds to what is unpublished. -/
def Write.Adds (store : LocalStore) : Write → Prop
  | .commitLocalMutation _ _ => True
  | .adoptPendingBatch _ => True
  | .pushOutboxEntries entries => newEntries store entries ≠ []
  | _ => False

/-- The call puts something into the outbox. -/
def Write.Enqueues (store : LocalStore) : Write → Prop
  | .promotePendingBatch => store.pendingBatch ≠ none
  | .pushOutboxEntries entries => newEntries store entries ≠ []
  | _ => False

variable {store : LocalStore} {w : Write}

theorem queued_applyPrimary {store' : LocalStore} (h : w.applyPrimary store = some store')
    (hadds : ¬ w.Adds store) (hne : store'.queued ≠ []) : store.queued ≠ [] := by
  intro hnil
  obtain ⟨houtbox, hpending⟩ := append_eq_nil_iff.mp hnil
  have hnone : store.pendingBatch = none := toList_eq_nil_iff.mp hpending
  refine hne ?_
  cases w with
  | commitLocalMutation row change => exact absurd trivial hadds
  | adoptPendingBatch entry => exact absurd trivial hadds
  | promotePendingBatch =>
    simp only [Write.applyPrimary, hnone, some.injEq] at h
    exact h ▸ hnil
  | pushOutboxEntries entries =>
    have hempty : newEntries store entries = [] := by_contra hadds
    simp only [Write.applyPrimary, hempty] at h
    obtain rfl := some.inj h
    show (store.outbox ++ []) ++ store.pendingBatch.toList = []
    rw [houtbox, hpending]
    rfl
  | acknowledgeOutbox entryIds =>
    obtain rfl := some.inj h
    show (store.outbox.filter _) ++ store.pendingBatch.toList = []
    rw [houtbox, hpending]
    rfl
  | drainOutbox =>
    obtain rfl := some.inj h
    exact hpending
  | clearAll =>
    obtain rfl := some.inj h
    rfl

theorem outbox_applyPrimary {store' : LocalStore} (h : w.applyPrimary store = some store')
    (henq : ¬ w.Enqueues store) (hnil : store.outbox =
      []) :
    store'.outbox = [] := by
  cases w with
  | commitLocalMutation row change =>
    obtain rfl := some.inj h
    exact hnil
  | promotePendingBatch =>
    have hnone : store.pendingBatch = none := by_contra henq
    simp only [Write.applyPrimary, hnone, some.injEq] at h
    exact h ▸ hnil
  | adoptPendingBatch entry =>
    obtain rfl := some.inj h
    exact hnil
  | pushOutboxEntries entries =>
    have hempty : newEntries store entries = [] := by_contra henq
    simp only [Write.applyPrimary, hempty] at h
    obtain rfl := some.inj h
    exact (append_nil _).trans hnil
  | acknowledgeOutbox entryIds =>
    obtain rfl := some.inj h
    show store.outbox.filter _ = []
    rw [hnil]
    rfl
  | drainOutbox =>
    obtain rfl := some.inj h
    rfl
  | clearAll =>
    obtain rfl := some.inj h
    rfl

theorem followup_of_adds (hadds : w.Adds store) (promoted : Bool) :
    w.followup promoted = .markUnpushed ∨ w.followup false = .nothing := by
  cases w with
  | commitLocalMutation row change => exact .inl rfl
  | adoptPendingBatch entry => exact .inr rfl
  | pushOutboxEntries entries =>
    refine .inl (if_neg fun hnil => hadds ?_)
    rw [hnil]
    rfl
  | _ => exact absurd hadds id

/-! ## Pages and databases -/

/-- A call on its way. -/
inductive Task where
  -- the transaction has not taken effect; a second try is not recovered again
  | running (w : Write) (on : Store) (retried : Bool)
  -- it has, and the call has not gone on
  | returned (w : Write) (on : Store) (promoted : Bool)
  | failed (w : Write) (message : Text)
  -- `refreshUnpushedMarker` waits for the size of the outbox, then for the pending batch
  | sizing (on : Store)
  | peeking (on : Store) (size : ℕ)
  | derived (dirty : Bool)
  | ended

/-- The databases by their physical names, and the page that is open.  `abandoned` lists what was
in a database when it was given up for memory or for a fresh one, unless the host has opted into
the loss. -/
structure Browser where
  databases : ℕ → LocalStore
  markers : ℕ → Bool
  pointer : ℕ
  names : ℕ
  abandoned : List LocalStore
  name : ℕ
  active : Option Store
  degraded : Bool
  opening : ℕ
  memory : ℕ → LocalStore
  memories : ℕ
  tasks : List Task

/-- What can happen. -/
inductive Happening where
  | call (w : Write)
  | takesEffect (i : ℕ)
  | aborts (i : ℕ) (message : Text)
  | resume (i : ℕ)
  | recover (i : ℕ)
  -- a call that does not write the outbox fails
  | otherFails (message : Text)
  | size (i : ℕ)
  | peek (i : ℕ)
  | readFails (i : ℕ)
  | write (i : ℕ)
  | callOpen
  | opened
  | openFails
  | close
  -- `rotateLocalDatabaseName`
  | rotate (force : Bool)
  -- the page stops, wherever its calls are, and is loaded again
  | restart

namespace Browser

/-- One empty database that nothing was ever written to. -/
def start : Browser where
  databases _ := .empty
  markers _ := false
  pointer := 0
  names := 1
  abandoned := []
  name := 0
  active := none
  degraded := false
  opening := 0
  memory _ := .empty
  memories := 0
  tasks := []

/-- What a store holds. -/
def content (b : Browser) : Store → LocalStore
  | .primary => b.databases b.name
  | .memory n => b.memory n

/-- Replace a task. -/
def update (b : Browser) (i : ℕ) (t : Task) : Browser := { b with tasks := b.tasks.set i t }

/-- `setUnpushedLocalWrites`. -/
def mark (b : Browser) (dirty : Bool) : Browser :=
  { b with markers := Function.update b.markers b.name dirty }

/-- The transaction of a call on a store. -/
def apply (b : Browser) (w : Write) : Store → Option Browser
  | .primary => (w.applyPrimary (b.databases b.name)).map fun store =>
      { b with databases := Function.update b.databases b.name store }
  | .memory n => (w.applyMemory (b.memory n)).map fun store =>
      { b with memory := Function.update b.memory n store }

/-- What has been given up when the database `n` is, unless the host has opted into it. -/
def givenUp (b : Browser) (optedIn : Bool) (n : ℕ) : List LocalStore :=
  if optedIn then b.abandoned else b.databases n :: b.abandoned

/-- `fallback`. -/
def fallback (allow : Bool) (b : Browser) : Option Browser :=
  if !allow && b.markers b.name then none
  else some { b with
    active := some (.memory b.memories)
    degraded := true
    memory := Function.update b.memory b.memories .empty
    memories := b.memories + 1
    abandoned := b.givenUp allow b.name }

/-- What follows a call that has returned. -/
def followup (b : Browser) (i : ℕ) : Followup → Browser
  | .markUnpushed => (b.mark true).update i .ended
  | .refreshUnpushedMarker =>
    match b.active with
    | some store => b.update i (.sizing store)
    | none => b.update i .ended
  | .nothing => b.update i .ended

/-- `runWithRecovery`, when the call has failed. -/
def recover (allow : Bool) (b : Browser) (i : ℕ) (w : Write) (message : Text) : Browser :=
  if !isUnrecoverableIdbState message || b.degraded then b.update i .ended
  else
    match b.fallback allow with
    | none => b.update i .ended
    | some b' => b'.update i (.running w (.memory b.memories) true)

/-- `rotateLocalDatabaseName`: refused if the outgoing database is marked, unless forced. -/
def rotate (force : Bool) (b : Browser) : Browser :=
  if !force && b.markers b.pointer then b
  else { b with
    pointer := b.names
    names := b.names + 1
    databases := Function.update b.databases b.names .empty
    markers := Function.update b.markers b.names false
    abandoned := b.givenUp force b.pointer }

/-- One step, if it can happen. -/
def step (allow : Bool) (b : Browser) : Happening → Option Browser
  | .call w => b.active.map fun store => { b with tasks := b.tasks ++ [.running w store false] }
  | .takesEffect i =>
    match b.tasks[i]? with
    | some (.running w on _) => (b.apply w on).map fun b' =>
        b'.update i (.returned w on (b.content on).pendingBatch.isSome)
    | _ => none
  | .aborts i message =>
    match b.tasks[i]? with
    | some (.running w _ retried) =>
      some (b.update i (if retried then .ended else .failed w message))
    | _ => none
  | .resume i =>
    match b.tasks[i]? with
    | some (.returned w _ promoted) => some (b.followup i (w.followup promoted))
    | _ => none
  | .recover i =>
    match b.tasks[i]? with
    | some (.failed w message) => some (b.recover allow i w message)
    | _ => none
  | .otherFails message =>
    if !isUnrecoverableIdbState message || b.degraded then some b
    else some ((b.fallback allow).getD b)
  | .size i =>
    match b.tasks[i]? with
    | some (.sizing on) => some (b.update i (.peeking on (b.content on).outbox.length))
    | _ => none
  | .peek i =>
    match b.tasks[i]? with
    | some (.peeking on size) =>
      some (b.update i (.derived (decide (0 < size) || (b.content on).pendingBatch.isSome)))
    | _ => none
  | .readFails i =>
    match b.tasks[i]? with
    | some (.sizing _) => some (b.update i .ended)
    | some (.peeking _ _) => some (b.update i .ended)
    | _ => none
  | .write i =>
    match b.tasks[i]? with
    | some (.derived dirty) => some ((b.mark dirty).update i .ended)
    | _ => none
  | .callOpen => if b.active.isSome then some b else some { b with opening := b.opening + 1 }
  | .opened =>
    if b.opening = 0 then none
    else some { b with
      active := some .primary
      opening := b.opening - 1
      tasks := b.tasks ++ [.sizing .primary] }
  | .openFails =>
    if b.opening = 0 then none
    else some ((({ b with opening := b.opening - 1 } : Browser).fallback allow).getD
      { b with opening := b.opening - 1 })
  | .close =>
    match b.active with
    | none => some b
    | some .primary => some { b with active := none, degraded := false }
    | some (.memory n) => some { b with
        active := none
        degraded := false
        memory := Function.update b.memory n .empty }
  | .rotate force => some (b.rotate force)
  | .restart => some { b with
      name := b.pointer
      active := none
      degraded := false
      opening := 0
      tasks := [] }

/-! ## When the marker reports everything -/

/-- The call has written to IndexedDB and is about to mark it. -/
def isDue : Task → Bool
  | .returned w .primary promoted => decide (w.followup promoted = .markUnpushed)
  | _ => false

/-- The marker is being derived, and will be cleared whatever is in IndexedDB now. -/
def isBlind : Task → Bool
  | .sizing (.memory _) => true
  | .peeking (.memory _) size => decide (size = 0)
  | .derived dirty => !dirty
  | _ => false

/-- The outbox of IndexedDB was found empty, and the pending batch is not known yet. -/
def hasCountedNone : Task → Bool
  | .peeking .primary size => decide (size = 0)
  | _ => false

/-- A call is between its transaction and its mark. -/
def Due (b : Browser) : Prop := ∃ t ∈ b.tasks, isDue t = true

/-- The marker is cleared, or can be, whatever is in IndexedDB now: it is being derived and nothing
was found, or the store is in memory. -/
def Blind (b : Browser) : Prop :=
  (∃ n, b.active = some (.memory n)) ∨ ∃ t ∈ b.tasks, isBlind t = true

/-- No call is between its transaction and its mark where the marker is clean. -/
def Settled (b : Browser) : Prop := b.Due → b.markers b.name = true

/-- The store degrades in no such window, and past no dirty marker because the host has opted into
it. -/
def MayDegrade (allow : Bool) (b : Browser) : Prop :=
  b.Settled ∧ (allow = true → b.markers b.name = false)

/-- The transaction adds nothing behind the back of a marker that is being derived, and what is not
going to mark the database adds to a marked one. -/
structure Admits (b : Browser) (w : Write) : Prop where
  watched : w.Adds (b.databases b.name) → ¬ b.Blind
  marked : w.Adds (b.databases b.name) → w.followup false = .nothing → b.markers b.name = true
  counted : w.Enqueues (b.databases b.name) → ∀ t ∈ b.tasks, hasCountedNone t = false

/-- A run is careful about the two windows: between a transaction and its mark, and between a count
and the write that goes by it. -/
def Careful (allow : Bool) (b : Browser) : Happening → Prop
  | .takesEffect i => ∀ w retried, b.tasks[i]? = some (.running w .primary retried) → b.Admits w
  | .recover i => ∀ w message, b.tasks[i]? = some (.failed w message) →
      isUnrecoverableIdbState message = true → b.degraded = false → b.MayDegrade allow
  | .otherFails message =>
    isUnrecoverableIdbState message = true → b.degraded = false → b.MayDegrade allow
  | .openFails => b.MayDegrade allow
  | .rotate force => force = false → b.Settled
  | .restart => b.Settled
  | _ => True

/-- A database that holds something unpublished is marked, or a call of the page has written to it
and has not marked it yet; and none was given up. -/
structure Reports (b : Browser) : Prop where
  marked : ∀ n, (b.databases n).queued ≠ [] → b.markers n = true ∨ n = b.name ∧ b.Due
  kept : ∀ store ∈ b.abandoned, store.queued = []

/-- The invariant: what may clear the marker has an empty database before it. -/
structure Watched (b : Browser) : Prop extends Reports b where
  blind : b.Blind → (b.databases b.name).queued = []
  counted : ∀ t ∈ b.tasks, hasCountedNone t = true → (b.databases b.name).outbox = []

variable {allow : Bool} {b b' : Browser} {i : ℕ} {t t₀ : Task}

/-! ### The tasks -/

theorem Due.update (h : b.Due) (hi : b.tasks[i]? = some t₀) (hnot : isDue t₀ = false) :
    (b.update i t).Due := by
  obtain ⟨u, hu, hdue⟩ := h
  obtain ⟨j, hj⟩ := mem_iff_getElem?.mp hu
  refine ⟨u, mem_iff_getElem?.mpr ⟨j, ?_⟩, hdue⟩
  have hne : i ≠ j := by
    rintro rfl
    rw [hi] at hj
    obtain rfl := some.inj hj
    rw [hnot] at hdue
    exact absurd hdue (by simp)
  exact (List.getElem?_set_ne hne).trans hj

theorem Blind.of_update (h : (b.update i t).Blind) : b.Blind ∨ isBlind t = true := by
  rcases h with hmemory | ⟨u, hu, hblind⟩
  · exact .inl (.inl hmemory)
  · rcases mem_or_eq_of_mem_set hu with hu | rfl
    · exact .inl (.inr ⟨u, hu, hblind⟩)
    · exact .inr hblind

/-- A task moves on: it was not due or the marker is dirty, and what it is about to do goes by what
is in the database. -/
theorem Watched.update (h : Watched b) (hi : b.tasks[i]? = some t₀)
    (hdue : isDue t₀ = false ∨ b.markers b.name = true)
    (hblind : isBlind t = true → (b.databases b.name).queued = [])
    (hcounted : hasCountedNone t = true → (b.databases b.name).outbox = []) :
    Watched (b.update i t) where
  marked n hn := by
    rcases h.marked n hn with hmark | ⟨rfl, hd⟩
    · exact .inl hmark
    · rcases hdue with hnot | hmark
      · exact .inr ⟨rfl, hd.update hi hnot⟩
      · exact .inl hmark
  kept := h.kept
  blind hb := hb.of_update.elim h.blind hblind
  counted u hu hc := by
    rcases mem_or_eq_of_mem_set hu with hu | rfl
    · exact h.counted u hu hc
    · exact hcounted hc

theorem Watched.quiet (h : Watched b) (hi : b.tasks[i]? = some t₀) (hdue : isDue t₀ = false)
    (hblind : isBlind t = false) (hcounted : hasCountedNone t = false) : Watched (b.update i t) :=
  h.update hi (.inl hdue) (fun hb => absurd (hblind.symm.trans hb) (by simp))
    fun hc => absurd (hcounted.symm.trans hc) (by simp)

theorem Watched.append (h : Watched b) (hblind : isBlind t = false)
    (hcounted : hasCountedNone t = false) : Watched { b with tasks := b.tasks ++ [t] } where
  marked n hn := (h.marked n hn).imp_right fun ⟨hname, u, hu, hdue⟩ =>
    ⟨hname, u, mem_append_left _ hu, hdue⟩
  kept := h.kept
  blind hb := by
    rcases hb with hmemory | ⟨u, hu, hu'⟩
    · exact h.blind (.inl hmemory)
    · rcases mem_append.mp hu with hu | hu
      · exact h.blind (.inr ⟨u, hu, hu'⟩)
      · rw [mem_singleton.mp hu, hblind] at hu'
        exact absurd hu' (by simp)
  counted u hu hc := by
    rcases mem_append.mp hu with hu | hu
    · exact h.counted u hu hc
    · rw [mem_singleton.mp hu, hcounted] at hc
      exact absurd hc (by simp)

theorem Watched.of_eq (h : Watched b) (hdata : b'.databases = b.databases ∧ b'.name = b.name)
    (hmarks : b'.markers = b.markers ∧ b'.abandoned = b.abandoned) (htasks : b'.tasks = b.tasks)
    (hactive : ∀ n, b'.active = some (.memory n) → b.active = some (.memory n)) : Watched b' where
  marked n hn := by
    have hdue : b.Due → b'.Due := fun ⟨u, hu, hd⟩ => ⟨u, htasks ▸ hu, hd⟩
    rw [hmarks.1, hdata.2]
    exact (h.marked n (hdata.1 ▸ hn)).imp_right fun ⟨hname, hd⟩ => ⟨hname, hdue hd⟩
  kept store hstore := h.kept store (hmarks.2 ▸ hstore)
  blind hb := by
    rw [hdata.1, hdata.2]
    refine h.blind (hb.imp ?_ ?_)
    · rintro ⟨n, hn⟩
      exact ⟨n, hactive n hn⟩
    · rintro ⟨u, hu, hu'⟩
      exact ⟨u, htasks ▸ hu, hu'⟩
  counted u hu hc := by
    rw [hdata.1, hdata.2]
    exact h.counted u (htasks ▸ hu) hc

/-! ### The marker -/

theorem Watched.mark (h : Watched b) {dirty : Bool}
    (hclean : dirty = false → (b.databases b.name).queued = []) : Watched (b.mark dirty) where
  marked n hn := by
    by_cases hname : n = b.name
    · subst hname
      cases dirty with
      | true => exact .inl (update_self ..)
      | false => exact absurd (hclean rfl) hn
    · refine .inl ((update_of_ne hname ..).trans ?_)
      exact (h.marked n hn).resolve_right fun hd => hname hd.1
  kept := h.kept
  blind := h.blind
  counted := h.counted

theorem Reports.queued_eq_nil (h : Reports b) (hclean : b.markers b.name = false)
    (hsettled : b.Settled) : (b.databases b.name).queued = [] := by
  by_contra hne
  rcases h.marked b.name hne with hmark | ⟨-, hdue⟩
  · exact absurd (hclean.symm.trans hmark) (by simp)
  · exact absurd (hclean.symm.trans (hsettled hdue)) (by simp)

/-- **Only an empty database is given up for memory.** -/
theorem Watched.fallback (h : Watched b) (hok : b.MayDegrade allow)
    (hf : b.fallback allow = some b') : Watched b' := by
  rw [Browser.fallback] at hf
  split_ifs at hf with hcond
  obtain rfl := some.inj hf
  have hclean : b.markers b.name = false := by
    cases allow with
    | true => exact hok.2 rfl
    | false =>
      rw [Bool.not_false, Bool.true_and, Bool.not_eq_true] at hcond
      exact hcond
  have hnil := h.queued_eq_nil hclean hok.1
  refine ⟨⟨h.marked, fun store hstore => ?_⟩, fun _ => hnil, h.counted⟩
  cases allow with
  | true => exact h.kept store hstore
  | false =>
    rcases mem_cons.mp hstore with rfl | hstore
    · exact hnil
    · exact h.kept store hstore

/-- **Only an empty database is rotated past.** -/
theorem Watched.rotate (h : Watched b) {force : Bool} (hok : force = false → b.Settled) :
    Watched (b.rotate force) := by
  rw [Browser.rotate]
  split_ifs with hcond
  · exact h
  · refine ⟨⟨fun n hn => ?_, fun store hstore => ?_⟩, fun hb => ?_, fun u hu hc => ?_⟩
    · dsimp only at hn ⊢
      by_cases hname : n = b.names
      · rw [hname, update_self] at hn
        exact absurd rfl hn
      · rw [update_of_ne hname] at hn ⊢
        exact h.marked n hn
    · cases force with
      | true => exact h.kept store hstore
      | false =>
        rcases mem_cons.mp hstore with rfl | hstore
        · rw [Bool.not_false, Bool.true_and, Bool.not_eq_true] at hcond
          by_contra hne
          rcases h.marked b.pointer hne with hmark | ⟨hname, hdue⟩
          · exact absurd (hcond.symm.trans hmark) (by simp)
          · rw [hname] at hcond
            exact absurd (hcond.symm.trans (hok rfl hdue)) (by simp)
        · exact h.kept store hstore
    · show (Function.update b.databases b.names .empty b.name).queued = []
      by_cases hname : b.name = b.names
      · rw [hname, update_self]
        rfl
      · rw [update_of_ne hname]
        exact h.blind hb
    · show (Function.update b.databases b.names .empty b.name).outbox = []
      by_cases hname : b.name = b.names
      · rw [hname, update_self]
        rfl
      · rw [update_of_ne hname]
        exact h.counted u hu hc

/-- **A transaction takes effect.**  What adds is about to mark the database, or finds it marked. -/
theorem Watched.takesEffect (h : Watched b) {w : Write} {on : Store} {retried promoted : Bool}
    (hi : b.tasks[i]? = some (.running w on retried)) (ha : b.apply w on = some b')
    (hok : on = .primary → b.Admits w) : Watched (b'.update i (.returned w on promoted)) := by
  cases on with
  | memory n =>
    obtain ⟨store, -, rfl⟩ := map_eq_some_iff.mp ha
    have hmem : Watched { b with memory := Function.update b.memory n store } :=
      h.of_eq ⟨rfl, rfl⟩ ⟨rfl, rfl⟩ rfl fun _ hn => hn
    exact hmem.quiet hi rfl rfl rfl
  | primary =>
    obtain ⟨store, hstore, rfl⟩ := map_eq_some_iff.mp ha
    have hadmits := hok rfl
    have hself : Function.update b.databases b.name store b.name = store := update_self ..
    refine ⟨⟨fun n hn => ?_, h.kept⟩, fun hb => ?_, fun u hu hc => ?_⟩
    · by_cases hname : n = b.name
      · subst hname
        by_cases hadds : w.Adds (b.databases b.name)
        · rcases followup_of_adds hadds promoted with hmark | hnothing
          · refine .inr ⟨rfl, .returned w .primary promoted, ?_, decide_eq_true hmark⟩
            exact mem_set (List.getElem?_eq_some_iff.mp hi).1 _
          · exact .inl (hadmits.marked hadds hnothing)
        · have hne : store.queued ≠ [] := by
            rw [← hself]
            exact hn
          refine (h.marked b.name (queued_applyPrimary hstore hadds hne)).imp_right ?_
          rintro ⟨-, hdue⟩
          exact ⟨rfl, hdue.update hi rfl⟩
      · have hn : (Function.update b.databases b.name store n).queued ≠ [] := hn
        rw [update_of_ne hname] at hn
        exact (h.marked n hn).imp_right fun hd => absurd hd.1 hname
    · have hblind : b.Blind := (Blind.of_update (b := b) hb).resolve_right (by simp [isBlind])
      show (Function.update b.databases b.name store b.name).queued = []
      rw [hself]
      by_contra hne
      by_cases hadds : w.Adds (b.databases b.name)
      · exact hadmits.watched hadds hblind
      · exact queued_applyPrimary hstore hadds hne (h.blind hblind)
    · show (Function.update b.databases b.name store b.name).outbox = []
      rw [hself]
      rcases mem_or_eq_of_mem_set hu with hu | rfl
      · refine outbox_applyPrimary hstore (fun henq => ?_) (h.counted u hu hc)
        exact absurd ((hadmits.counted henq u hu).symm.trans hc) (by simp)
      · exact absurd hc (by simp [hasCountedNone])

/-- **A call goes on.**  The marker is derived from the store that is active, and until then nothing
is known of it. -/
theorem Watched.followup (h : Watched b) {w : Write} {on : Store} {promoted : Bool}
    (hi : b.tasks[i]? = some (.returned w on promoted)) :
    Watched (b.followup i (w.followup promoted)) := by
  have hnotDue : w.followup promoted ≠ .markUnpushed →
      isDue (.returned w on promoted) = false := by
    intro hne
    cases on with
    | primary => exact decide_eq_false hne
    | memory n => rfl
  cases hfollowup : w.followup promoted with
  | markUnpushed =>
    have hmark : Watched (b.mark true) := h.mark (by simp)
    exact hmark.update hi (.inr (update_self ..)) (by simp [isBlind])
      (by simp [hasCountedNone])
  | refreshUnpushedMarker =>
    have hdue := hnotDue (by simp [hfollowup])
    rw [Browser.followup]
    split
    · rename_i store hactive
      refine h.update hi (.inl hdue) (fun hblind => ?_) (by simp [hasCountedNone])
      cases store with
      | primary => exact absurd hblind (by simp [isBlind])
      | memory n => exact h.blind (.inl ⟨n, hactive⟩)
    · exact h.quiet hi hdue rfl rfl
  | nothing => exact h.quiet hi (hnotDue (by simp [hfollowup])) rfl rfl

/-- A call that failed is made again, perhaps in memory. -/
theorem Watched.recover (h : Watched b) {w : Write} {message : Text}
    (hi : b.tasks[i]? = some (.failed w message))
    (hok : isUnrecoverableIdbState message = true → b.degraded = false → b.MayDegrade allow) :
    Watched (b.recover allow i w message) := by
  rw [Browser.recover]
  split_ifs with hcond
  · exact h.quiet hi rfl rfl rfl
  · obtain ⟨hmessage, hrunning⟩ : isUnrecoverableIdbState message = true ∧ b.degraded = false := by
      simpa using hcond
    split
    · exact h.quiet hi rfl rfl rfl
    · rename_i b₁ hb₁
      have hi₁ : b₁.tasks[i]? = some (.failed w message) := by
        rw [Browser.fallback] at hb₁
        split_ifs at hb₁
        obtain rfl := some.inj hb₁
        exact hi
      exact (h.fallback (hok hmessage hrunning) hb₁).quiet hi₁ rfl rfl rfl

/-! ### Runs -/

end Browser

end Web

end Interocitor
