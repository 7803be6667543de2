import Interocitor.Foundation.GuardedRuns
import Mathlib.Data.List.Range

/-!
# The listeners of the Swift engine

The Swift engine keeps its listeners in an array.  `on` returns a closure that remembers the
position at which the listener was put, and calling the closure starts a task that removes whatever
stands at that position once the actor comes to it.  Positions shift when an earlier listener is
removed, so the position remembered is the listener's own only in some histories.

A session is the engine together with what its caller did: the registrations, the closures that were
called, the tasks that wait for the actor and those that have run.  Tasks run in any order.

* `emit_iff`: after a run whose tasks all do, the listeners that receive an event are those
  registered and not unsubscribed if and only if no call still waits for its task.
* `not_exact`: two listeners unsubscribed in the order of their registration.
-/

namespace Interocitor

namespace SwiftListeners

open GuardedRuns List

variable {Listener : Type*}

/-! ## The engine -/

/-- The listeners of a `SyncEngine`. -/
structure Engine (Listener : Type*) where
  listeners : List Listener

namespace Engine

/-- `on`: the engine, and the position that the closure returned remembers. -/
def on (e : Engine Listener) (listener : Listener) : Engine Listener × ℕ :=
  (⟨e.listeners ++ [listener]⟩, e.listeners.length)

/-- `removeListener(at:)`. -/
def removeListener (e : Engine Listener) (index : ℕ) : Engine Listener :=
  if index < e.listeners.length then ⟨e.listeners.eraseIdx index⟩ else e

/-- `emit`: the listeners that are called with the event, in order. -/
def emit (e : Engine Listener) : List Listener := e.listeners

end Engine

/-! ## Sessions -/

/-- A call of `on`: its number, its listener and the position that its closure remembers. -/
structure Registration (Listener : Type*) where
  serial : ℕ
  listener : Listener
  index : ℕ

/-- The engine, and what was done with it. -/
structure Session (Listener : Type*) where
  engine : Engine Listener
  registrations : List (Registration Listener)
  /-- The registrations whose closures were called. -/
  called : List ℕ
  /-- The registrations for which a task waits. -/
  tasks : List ℕ
  /-- The registrations for which a task has run. -/
  done : List ℕ

/-- What a caller does, and when the actor runs a task. -/
inductive Event (Listener : Type*) where
  | on (listener : Listener)
  | unsubscribe (serial : ℕ)
  | run (serial : ℕ)

namespace Session

/-- An engine without listeners. -/
def start : Session Listener := ⟨⟨[]⟩, [], [], [], []⟩

/-- One step of a session. -/
def step (s : Session Listener) : Event Listener → Option (Session Listener)
  | .on listener =>
    some { s with
      engine := (s.engine.on listener).1
      registrations := s.registrations ++
        [⟨s.registrations.length, listener, (s.engine.on listener).2⟩] }
  | .unsubscribe serial =>
    if serial < s.registrations.length then
      some { s with called := serial :: s.called, tasks := s.tasks ++ [serial] }
    else none
  | .run serial =>
    if serial ∈ s.tasks then
      s.registrations[serial]?.map fun r =>
        { s with
          engine := s.engine.removeListener r.index
          tasks := s.tasks.erase serial
          done := serial :: s.done }
    else none

/-- The listeners of the registrations whose closures were not called. -/
def subscribed (s : Session Listener) : List Listener :=
  (s.registrations.filter fun r => r.serial ∉ s.called).map (·.listener)

/-- The registrations for which no task has run. -/
def remaining (registrations : List (Registration Listener)) (done : List ℕ) :
    List (Registration Listener) :=
  registrations.filter fun r => r.serial ∉ done

/-- Every closure that was called had its task run. -/
def Settled (s : Session Listener) : Prop := ∀ serial ∈ s.called, serial ∈ s.done

/-- A task that runs finds its listener at the position remembered: no listener before it was
removed since its registration.  Where its listener is gone, nothing stands at that position. -/
def OwnPlace (s : Session Listener) : Event Listener → Prop
  | .run serial => ∀ r ∈ s.registrations[serial]?,
    if serial ∈ s.done then (remaining s.registrations s.done).length ≤ r.index
    else r.index = (remaining (s.registrations.take serial) s.done).length
  | _ => True

instance (s : Session Listener) (e : Event Listener) : Decidable (s.OwnPlace e) := by
  cases e <;> unfold OwnPlace <;> infer_instance

/-! ## What such steps keep -/

/-- The engine has the listeners for which no task has run. -/
structure Inv (s : Session Listener) : Prop where
  serials : s.registrations.map (·.serial) = List.range s.registrations.length
  called : ∀ serial ∈ s.called, serial < s.registrations.length
  done : ∀ serial ∈ s.done, serial ∈ s.called
  tasks : ∀ serial ∈ s.tasks, serial ∈ s.called
  engine : s.engine.listeners = (remaining s.registrations s.done).map (·.listener)

theorem inv_start : (start : Session Listener).Inv := by
  refine ⟨rfl, ?_, ?_, ?_, rfl⟩ <;> exact fun _ h => absurd h not_mem_nil

variable {s : Session Listener} {r : Registration Listener} {serial : ℕ}

theorem serial_getElem (h : s.Inv) (hr : s.registrations[serial]? = some r) :
    r.serial = serial := by
  obtain ⟨hlt, rfl⟩ := List.getElem?_eq_some_iff.mp hr
  have hserial := congrArg (fun l => l[serial]?) h.serials
  simp only [List.getElem?_map, List.getElem?_eq_getElem hlt, Option.map_some] at hserial
  rw [List.getElem?_range hlt] at hserial
  exact Option.some.inj hserial

/-- The registrations are those before one, itself and those after it, with other numbers. -/
theorem split_at (h : s.Inv) (hr : s.registrations[serial]? = some r) :
    s.registrations = s.registrations.take serial ++ r :: s.registrations.drop (serial + 1) ∧
      ∀ q, q ∈ s.registrations.take serial ∨ q ∈ s.registrations.drop (serial + 1) →
        q.serial ≠ serial := by
  obtain ⟨hlt, rfl⟩ := List.getElem?_eq_some_iff.mp hr
  refine ⟨?_, fun q hq => ?_⟩
  · rw [getElem_cons_drop, take_append_drop]
  · rcases hq with hq | hq
    · obtain ⟨i, hi, rfl⟩ := mem_take_iff_getElem.mp hq
      have hlen : i < s.registrations.length := lt_of_lt_of_le hi (min_le_right _ _)
      rw [serial_getElem h (List.getElem?_eq_getElem hlen)]
      exact (lt_of_lt_of_le hi (min_le_left _ _)).ne
    · obtain ⟨i, hi, rfl⟩ := mem_drop_iff_getElem.mp hq
      rw [serial_getElem h (List.getElem?_eq_getElem (by omega))]
      omega

theorem remaining_cons_of_ne (done : List ℕ) {l : List (Registration Listener)}
    (h : ∀ q ∈ l, q.serial ≠ serial) : remaining l (serial :: done) = remaining l done := by
  refine filter_congr fun q hq => ?_
  simp only [mem_cons, not_or, h q hq, not_false_eq_true, true_and]

/-- Removing the first of the listeners after `l` leaves the others. -/
theorem eraseIdx_append_cons {α : Type*} (l l' : List α) (a : α) :
    (l ++ a :: l').eraseIdx l.length = l ++ l' := by
  rw [eraseIdx_append_of_length_le le_rfl, Nat.sub_self, eraseIdx_cons_zero]

theorem removeListener_eq (h : s.Inv) (hown : s.OwnPlace (.run serial))
    (hr : s.registrations[serial]? = some r) :
    (s.engine.removeListener r.index).listeners =
      (remaining s.registrations (serial :: s.done)).map (·.listener) := by
  have hplace := hown r hr
  by_cases hdone : serial ∈ s.done
  · -- the listener is gone already, and the position is past the end
    have hsame : remaining s.registrations (serial :: s.done) = remaining s.registrations s.done := by
      refine filter_congr fun q _ => ?_
      rw [decide_eq_decide, mem_cons, not_or, and_iff_right_iff_imp]
      exact fun hq heq => hq (heq ▸ hdone)
    rw [if_pos hdone] at hplace
    rw [Engine.removeListener, if_neg, hsame, h.engine]
    rw [h.engine, length_map]
    omega
  · rw [if_neg hdone] at hplace
    obtain ⟨hsplit, hne⟩ := split_at h hr
    have hserial := serial_getElem h hr
    have hbefore := remaining_cons_of_ne s.done fun q hq => hne q (.inl hq)
    have hafter := remaining_cons_of_ne s.done fun q hq => hne q (.inr hq)
    have hold : remaining s.registrations s.done =
        remaining (s.registrations.take serial) s.done ++
          r :: remaining (s.registrations.drop (serial + 1)) s.done := by
      conv_lhs => rw [hsplit]
      rw [remaining, filter_append, filter_cons_of_pos (by simpa [hserial] using hdone)]
      rfl
    have hnew : remaining s.registrations (serial :: s.done) =
        remaining (s.registrations.take serial) s.done ++
          remaining (s.registrations.drop (serial + 1)) s.done := by
      conv_lhs => rw [hsplit]
      rw [remaining, filter_append, filter_cons_of_neg (by simp [hserial]), ← hbefore, ← hafter]
      rfl
    have hlen : r.index < s.engine.listeners.length := by
      rw [h.engine, hold, length_map, length_append, length_cons]
      omega
    rw [Engine.removeListener, if_pos hlen, h.engine, hold, hnew, map_append, map_cons,
      map_append, hplace, ← length_map (fun q : Registration Listener => q.listener),
      eraseIdx_append_cons]

theorem inv_step {s' : Session Listener} {e : Event Listener} (h : s.Inv)
    (hstep : s.step e = some s') (hown : s.OwnPlace e) : s'.Inv := by
  cases e with
  | on listener =>
    obtain rfl := Option.some.inj hstep
    have hnew : s.registrations.length ∉ s.done := fun hmem =>
      absurd (h.called _ (h.done _ hmem)) (lt_irrefl _)
    refine ⟨?_, fun serial hs => ?_, h.done, h.tasks, ?_⟩
    · simp only [map_append, h.serials, map_cons, map_nil, length_append,
        length_cons, length_nil, range_succ]
    · rw [length_append]
      exact Nat.lt_add_right _ (h.called serial hs)
    · simp only [Engine.on, h.engine, remaining, filter_append, map_append]
      rw [filter_cons_of_pos (by simpa using hnew)]
      rfl
  | unsubscribe serial =>
    rw [step] at hstep
    split_ifs at hstep with hlt
    obtain rfl := Option.some.inj hstep
    refine ⟨h.serials, forall_mem_cons.mpr ⟨hlt, h.called⟩,
      fun q hq => mem_cons_of_mem _ (h.done q hq), fun q hq => ?_, h.engine⟩
    rcases mem_append.mp hq with hq | hq
    · exact mem_cons_of_mem _ (h.tasks q hq)
    · rw [mem_singleton.mp hq]
      exact mem_cons_self
  | run serial =>
    rw [step] at hstep
    split_ifs at hstep with htask
    obtain ⟨r, hr, rfl⟩ := Option.map_eq_some_iff.mp hstep
    exact ⟨h.serials, h.called, forall_mem_cons.mpr ⟨h.tasks _ htask, h.done⟩,
      fun q hq => h.tasks q (mem_of_mem_erase hq), removeListener_eq h hown hr⟩

/-! ## Who receives the next event -/

theorem emit_eq_iff (h : s.Inv) : s.engine.emit = s.subscribed ↔ s.Settled := by
  have hsub : s.registrations.filter (fun r => r.serial ∉ s.called) =
      (remaining s.registrations s.done).filter fun r => r.serial ∉ s.called := by
    rw [remaining, filter_filter]
    refine filter_congr fun r _ => ?_
    rw [Bool.and_eq_left_iff_imp.mpr]
    simp only [decide_eq_true_eq]
    exact fun hcalled hdone => hcalled (h.done _ hdone)
  rw [Engine.emit, subscribed, h.engine, hsub]
  constructor
  · intro heq serial hcalled
    by_contra hdone
    have hlt := h.called serial hcalled
    have hserial := serial_getElem h (List.getElem?_eq_getElem hlt)
    have hmem : s.registrations[serial] ∈ remaining s.registrations s.done := by
      refine mem_filter.mpr ⟨getElem_mem hlt, ?_⟩
      rw [hserial]
      exact decide_eq_true hdone
    have hlength := congrArg List.length heq
    rw [length_map, length_map, eq_comm, length_filter_eq_length_iff] at hlength
    have hnot := hlength _ hmem
    rw [hserial, decide_eq_true_eq] at hnot
    exact hnot hcalled
  · intro hsettled
    rw [filter_eq_self.mpr]
    intro r hr
    have hdone := (mem_filter.mp hr).2
    rw [decide_eq_true_eq] at hdone ⊢
    exact fun hcalled => hdone (hsettled _ hcalled)

/-- **Who receives the next event.**  In a run whose tasks all found their own place, the next event
goes to the listeners registered and not unsubscribed if and only if every call of a closure had its
task run. -/
theorem emit_iff {s : Session Listener} (h : Reached start step OwnPlace s) :
    s.engine.emit = s.subscribed ↔ s.Settled :=
  emit_eq_iff (h.invariant inv_start fun _ _ _ hinv hstep hok => inv_step hinv hstep hok)

/-- Two listeners, the later one unsubscribed. -/
theorem emit_iff_later :
    (⟨⟨["A"]⟩, [⟨0, "A", 0⟩, ⟨1, "B", 1⟩], [1], [], [1]⟩ : Session String).engine.emit =
      (⟨⟨["A"]⟩, [⟨0, "A", 0⟩, ⟨1, "B", 1⟩], [1], [], [1]⟩ : Session String).subscribed ↔
    (⟨⟨["A"]⟩, [⟨0, "A", 0⟩, ⟨1, "B", 1⟩], [1], [], [1]⟩ : Session String).Settled :=
  emit_iff (Reached.start.checked [.on "A", .on "B", .unsubscribe 1, .run 1] rfl)

/-- Two listeners, unsubscribed in the order of their registration: the second one stays, and
receives the next event. -/
theorem not_exact : ¬∀ s : Session String, Reached start step (fun _ _ => True) s → s.Settled →
    s.engine.emit = s.subscribed := by
  intro h
  have hreached : Reached (start : Session String) step (fun _ _ => True)
      ⟨⟨["B"]⟩, [⟨0, "A", 0⟩, ⟨1, "B", 1⟩], [1, 0], [], [1, 0]⟩ :=
    Reached.start.checked [.on "A", .on "B", .unsubscribe 0, .run 0, .unsubscribe 1, .run 1] rfl
  exact absurd (h _ hreached fun _ hmem => hmem) (by decide)

end Session

end SwiftListeners

end Interocitor
