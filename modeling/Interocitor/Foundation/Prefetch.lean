import Mathlib.Logic.Relation
import Mathlib.Data.List.Basic

/-!
# A loop that reads ahead

A loop over items each of which has to be read before it is used, and which starts the reads of the
next few items before it needs them.  The reads may come back in any order; the loop waits for the
one whose turn it is.  Between two turns the state may be changed by others.

The loop keeps its reads under the positions of the items, and starts a read only if there is none
at that position.  That the read at a position is started just once is therefore a matter of index
arithmetic: the position `window` places ahead is asked for when a turn begins, and never again.

* `Loop`, `Step`: the loop, and what can happen in it.
* `Inv`, `inv_run`: what is read and what is used are initial parts of the list.
* `done_run`: at the end both are the list itself.
* `state_run`: what every turn and every change by others preserves.
* `exists_run`: a run to the end, if every turn can be taken.
-/

namespace Prefetch

open List Function

variable {α C σ : Type*}

/-- A read that was started. -/
inductive Read (C : Type*) where
  | pending
  | settled (content : C)

/-- The loop.  `issued` and `applied` record the items whose reads were started, and those that were
used. -/
structure Loop (α C σ : Type*) where
  index : ℕ
  reads : ℕ → Option (Read C)
  issued : List α
  applied : List α
  state : σ

variable (items : List α) (window : ℕ) (turn : α → C → σ → σ → Prop) (others : σ → σ → Prop)

/-- Start the read at a position, unless there is none or it was started. -/
def prefetch (i : ℕ) (s : Loop α C σ) : Loop α C σ :=
  match items[i]? with
  | none => s
  | some item =>
    match s.reads i with
    | some _ => s
    | none =>
      { s with
        reads := update s.reads i (some .pending)
        issued := s.issued ++ [item] }

/-- Begin a turn, if there is one to take. -/
def enter (s : Loop α C σ) : Loop α C σ :=
  if s.index < items.length then prefetch items (s.index + window) s else s

/-- The loop before its first turn. -/
def start (state : σ) : Loop α C σ :=
  enter items window
    ((List.range window).foldl (fun s i => prefetch items i s) ⟨0, fun _ => none, [], [], state⟩)

/-- What can happen: a read comes back, others change the state, or a turn is taken with what was
read.  A read that fails, or a turn that does, ends the loop before its time. -/
inductive Step : Loop α C σ → Loop α C σ → Prop
  | settle {s : Loop α C σ} {i : ℕ} {content : C} (h : s.reads i = some .pending) :
    Step s { s with reads := update s.reads i (some (.settled content)) }
  | other {s : Loop α C σ} {state : σ} (h : others s.state state) : Step s { s with state := state }
  | turn {s : Loop α C σ} {item : α} {content : C} {state : σ} (hitem : items[s.index]? = some item)
    (hread : s.reads s.index = some (.settled content)) (hturn : turn item content s.state state) :
    Step s (enter items window
      { s with
        index := s.index + 1
        reads := update s.reads s.index none
        applied := s.applied ++ [item]
        state := state })

variable {items window turn others}

@[simp] theorem state_prefetch (i : ℕ) (s : Loop α C σ) : (prefetch items i s).state = s.state := by
  rw [prefetch]
  split
  · rfl
  · split <;> rfl

@[simp] theorem index_prefetch (i : ℕ) (s : Loop α C σ) : (prefetch items i s).index = s.index := by
  rw [prefetch]
  split
  · rfl
  · split <;> rfl

@[simp] theorem applied_prefetch (i : ℕ) (s : Loop α C σ) :
    (prefetch items i s).applied = s.applied := by
  rw [prefetch]
  split
  · rfl
  · split <;> rfl

@[simp] theorem state_enter (s : Loop α C σ) : (enter items window s).state = s.state := by
  rw [enter]
  split_ifs
  · exact state_prefetch _ s
  · rfl

@[simp] theorem index_enter (s : Loop α C σ) : (enter items window s).index = s.index := by
  rw [enter]
  split_ifs
  · exact index_prefetch _ s
  · rfl

@[simp] theorem applied_enter (s : Loop α C σ) : (enter items window s).applied = s.applied := by
  rw [enter]
  split_ifs
  · exact applied_prefetch _ s
  · rfl

/-- The reads of the first `n` items were started, each once, and those of the others were not. -/
structure Issued (items : List α) (n : ℕ) (s : Loop α C σ) : Prop where
  issued : s.issued = items.take n
  fresh : ∀ i, n ≤ i → s.reads i = none

variable {s : Loop α C σ}

theorem issued_prefetch {n : ℕ} (h : Issued items n s) :
    Issued items (n + 1) (prefetch items n s) := by
  rw [prefetch]
  cases hitem : items[n]? with
  | none =>
    have hlength : items.length ≤ n := List.getElem?_eq_none_iff.mp hitem
    refine ⟨?_, fun i hi => h.fresh i (by omega)⟩
    rw [h.issued, take_of_length_le hlength, take_of_length_le (by omega)]
  | some item =>
    rw [h.fresh n (Nat.le_refl n)]
    refine ⟨?_, fun i hi => ?_⟩
    · dsimp only
      rw [h.issued, take_add_one, hitem]
      rfl
    · dsimp only
      rw [update_of_ne (by omega)]
      exact h.fresh i (by omega)

theorem issued_enter (h : Issued items (s.index + window) s) :
    Issued items (s.index + window + 1) (enter items window s) := by
  rw [enter]
  split_ifs with hlt
  · exact issued_prefetch h
  · refine ⟨?_, fun i hi => h.fresh i (by omega)⟩
    rw [h.issued, take_of_length_le (by omega), take_of_length_le (by omega)]

/-- What holds in every run: the turns taken are those before the index, and the reads started are
those of the window after it. -/
structure Inv (items : List α) (window : ℕ) (s : Loop α C σ) : Prop where
  index : s.index ≤ items.length
  applied : s.applied = items.take s.index
  ahead : Issued items (s.index + window + 1) s

/-- The loop after the first reads were asked for. -/
def primed (items : List α) (state : σ) (n : ℕ) : Loop α C σ :=
  (List.range n).foldl (fun s i => prefetch items i s) ⟨0, fun _ => none, [], [], state⟩

theorem primed_succ (state : σ) (n : ℕ) :
    (primed items state (n + 1) : Loop α C σ) = prefetch items n (primed items state n) := by
  rw [primed, range_succ, foldl_append, foldl_cons, foldl_nil, ← primed]

theorem issued_primed (state : σ) (n : ℕ) : Issued items n (primed items state n : Loop α C σ) := by
  induction n with
  | zero => exact ⟨rfl, fun _ _ => rfl⟩
  | succ n ih =>
    rw [primed_succ]
    exact issued_prefetch ih

@[simp] theorem index_primed (state : σ) (n : ℕ) :
    (primed items state n : Loop α C σ).index = 0 := by
  induction n with
  | zero => rfl
  | succ n ih => rw [primed_succ, index_prefetch, ih]

@[simp] theorem applied_primed (state : σ) (n : ℕ) :
    (primed items state n : Loop α C σ).applied = [] := by
  induction n with
  | zero => rfl
  | succ n ih => rw [primed_succ, applied_prefetch, ih]

@[simp] theorem state_primed (state : σ) (n : ℕ) :
    (primed items state n : Loop α C σ).state = state := by
  induction n with
  | zero => rfl
  | succ n ih => rw [primed_succ, state_prefetch, ih]

theorem start_eq (state : σ) :
    (start items window state : Loop α C σ) = enter items window (primed items state window) := rfl

theorem inv_start (state : σ) : Inv items window (start items window state : Loop α C σ) := by
  rw [start_eq]
  refine ⟨?_, ?_, ?_⟩
  · rw [index_enter, index_primed]
    exact Nat.zero_le _
  · rw [applied_enter, index_enter, index_primed, applied_primed, take_zero]
  · rw [index_enter]
    refine issued_enter ?_
    rw [index_primed, Nat.zero_add]
    exact issued_primed state window

theorem inv_step {t : Loop α C σ} (h : Inv items window s)
    (hstep : Step items window turn others s t) : Inv items window t := by
  cases hstep with
  | @settle i content hread =>
    refine ⟨h.index, h.applied, h.ahead.issued, fun j hj => ?_⟩
    have hne : j ≠ i := by
      rintro rfl
      rw [h.ahead.fresh j hj] at hread
      exact absurd hread (by simp)
    dsimp only
    rw [update_of_ne hne]
    exact h.ahead.fresh j hj
  | other hother => exact ⟨h.index, h.applied, h.ahead.issued, h.ahead.fresh⟩
  | @turn item content state hitem hread hturn =>
    have hlt : s.index < items.length := by
      by_contra hnot
      rw [List.getElem?_eq_none_iff.mpr (Nat.not_lt.mp hnot)] at hitem
      exact absurd hitem (by simp)
    refine ⟨?_, ?_, ?_⟩
    · rw [index_enter]
      exact hlt
    · rw [applied_enter, index_enter, take_add_one, hitem, h.applied]
      rfl
    · rw [index_enter]
      refine issued_enter ⟨?_, fun j hj => ?_⟩
      · have hissued := h.ahead.issued
        dsimp only
        rw [hissued]
        congr 1
        omega
      · dsimp only at hj ⊢
        rw [update_of_ne (by omega)]
        exact h.ahead.fresh j (by omega)

variable {state : σ}

theorem inv_run
    (h : Relation.ReflTransGen (Step items window turn others) (start items window state) s) :
    Inv items window s := by
  induction h with
  | refl => exact inv_start state
  | tail _ hstep ih => exact inv_step ih hstep

/-- **A loop that comes to its end has read and used every item once, in order.** -/
theorem done_run
    (h : Relation.ReflTransGen (Step items window turn others) (start items window state) s)
    (hdone : s.index = items.length) : s.issued = items ∧ s.applied = items := by
  have hinv := inv_run h
  rw [hinv.ahead.issued, hinv.applied, hdone]
  exact ⟨take_of_length_le (by omega), take_of_length_le (Nat.le_refl _)⟩

/-- What every turn carries on from the items before it, and others leave alone, holds in every
run. -/
theorem state_run {P : List α → σ → Prop} (hstart : P [] state)
    (hothers : ∀ {l : List α} {s t : σ}, P l s → others s t → P l t)
    (hturn : ∀ {l : List α} {item : α} {content : C} {s t : σ}, item ∈ items → P l s →
      turn item content s t → P (l ++ [item]) t)
    (h : Relation.ReflTransGen (Step items window turn others) (start items window state) s) :
    P s.applied s.state := by
  induction h with
  | refl =>
    rw [start_eq, applied_enter, applied_primed, state_enter, state_primed]
    exact hstart
  | tail _ hstep ih =>
    cases hstep with
    | settle hread => exact ih
    | other hother => exact hothers ih hother
    | turn hitem hread ht =>
      rw [applied_enter, state_enter]
      exact hturn (mem_of_getElem? hitem) ih ht

/-! ## A run to the end -/

/-- The reads of the window are all still out. -/
def Out (items : List α) (window : ℕ) (s : Loop α C σ) : Prop :=
  ∀ i, s.index ≤ i → i < s.index + window + 1 → i < items.length → s.reads i = some .pending

theorem reads_prefetch {n : ℕ} (h : s.reads n = none) (hn : n < items.length) (i : ℕ) :
    (prefetch items n s).reads i = if i = n then some .pending else s.reads i := by
  rw [prefetch, List.getElem?_eq_getElem hn, h]
  exact update_apply s.reads n _ i

theorem out_enter (hissued : Issued items (s.index + window) s)
    (h : ∀ i, s.index ≤ i → i < s.index + window → i < items.length → s.reads i = some .pending) :
    Out items window (enter items window s) := by
  intro i hle hlt hlength
  rw [index_enter] at hle hlt
  rw [enter, if_pos (Nat.lt_of_le_of_lt hle hlength)]
  by_cases hnext : s.index + window < items.length
  · rw [reads_prefetch (hissued.fresh _ (Nat.le_refl _)) hnext]
    split_ifs with hi
    · rfl
    · exact h i hle (by omega) hlength
  · rw [prefetch, List.getElem?_eq_none_iff.mpr (Nat.not_lt.mp hnext)]
    exact h i hle (by omega) hlength

theorem out_primed (state : σ) (n : ℕ) {i : ℕ} (hi : i < n) (hlength : i < items.length) :
    (primed items state n : Loop α C σ).reads i = some .pending := by
  induction n with
  | zero => exact absurd hi (Nat.not_lt_zero i)
  | succ n ih =>
    rw [primed_succ]
    by_cases hn : n < items.length
    · rw [reads_prefetch ((issued_primed state n).fresh n (Nat.le_refl n)) hn]
      split_ifs with hin
      · rfl
      · exact ih (by omega)
    · rw [prefetch, List.getElem?_eq_none_iff.mpr (Nat.not_lt.mp hn)]
      exact ih (by omega)

/-- **If every turn can be taken, the loop can come to its end.** -/
theorem exists_run {Q : σ → Prop} (hstart : Q state)
    (hturn : ∀ item ∈ items, ∀ s, Q s → ∃ content t, turn item content s t ∧ Q t) :
    ∃ s : Loop α C σ, Relation.ReflTransGen (Step items window turn others)
      (start items window state) s ∧ s.index = items.length := by
  have hgo : ∀ n (s : Loop α C σ), Relation.ReflTransGen (Step items window turn others)
      (start items window state) s → Out items window s → Q s.state → items.length = s.index + n →
      ∃ t : Loop α C σ, Relation.ReflTransGen (Step items window turn others)
        (start items window state) t ∧ t.index = items.length := by
    intro n
    induction n with
    | zero => exact fun s hs _ _ hn => ⟨s, hs, hn.symm⟩
    | succ n ih =>
      intro s hs hout hQ hn
      have hlt : s.index < items.length := by omega
      obtain ⟨content, t, ht, hQt⟩ := hturn _ (getElem_mem hlt) _ hQ
      have hsettle : Step items window turn others s { s with
          reads := update s.reads s.index (some (.settled content)) } :=
        Step.settle (hout s.index (Nat.le_refl _) (by omega) hlt)
      have hstep : Step items window turn others { s with
          reads := update s.reads s.index (some (.settled content)) } _ :=
        Step.turn (List.getElem?_eq_getElem hlt) (update_self ..) ht
      have hrun := (hs.tail hsettle).tail hstep
      refine ih _ hrun ?_ ?_ ?_
      · have hissued := (inv_run hs).ahead
        refine out_enter ⟨?_, ?_⟩ ?_
        · dsimp only
          rw [hissued.issued, Nat.add_right_comm]
        · intro i hi
          dsimp only at hi ⊢
          rw [update_of_ne (by omega), update_of_ne (by omega)]
          exact hissued.fresh i (by omega)
        · intro i hle hi hlength
          dsimp only at hle hi ⊢
          rw [update_of_ne (by omega), update_of_ne (by omega)]
          exact hout i (by omega) (by omega) hlength
      · rw [state_enter]
        exact hQt
      · rw [index_enter]
        dsimp only
        omega
  refine hgo items.length _ Relation.ReflTransGen.refl ?_ ?_ ?_
  · rw [start_eq]
    refine out_enter ?_ fun i _ hi hlength => ?_
    · rw [index_primed, Nat.zero_add]
      exact issued_primed state window
    · rw [index_primed, Nat.zero_add] at hi
      exact out_primed state window hi hlength
  · rw [start_eq, state_enter, state_primed]
    exact hstart
  · rw [start_eq, index_enter, index_primed, Nat.zero_add]

end Prefetch
