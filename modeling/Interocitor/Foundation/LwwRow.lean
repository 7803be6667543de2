import Mathlib.Order.WithBot
import Mathlib.Order.BoundedOrder.Lattice
import Mathlib.Data.List.Induction
import Mathlib.Data.List.Perm.Basic

/-!
# Last-writer-wins rows whose tombstones are dropped on resurrection

A row holds, for each column, the time of the write it shows; a row can also be
dead, and then it holds only the time of the delete.  Writes merge column by
column by the later time.  A delete kills a row none of whose columns is later
than it, and a write to a dead row brings back only the columns later than the
delete --- after which *the time of the delete is forgotten*.

Forgetting it is what this file is about.  A column that is older than the delete
is rejected while the row is dead and accepted once some other column has revived
it, so the outcome of a list of actions can depend on their order.

* `run_of_not_fresh`: if nothing is later than the latest delete, the row ends dead at
  that delete, in every order.
* `foldl_live`: once a column is later than every remaining delete, the remaining
  actions only join.
* `run_of_orderFree`, `orderFree_of_run_perm`: between these two, `OrderFree` is
  exactly what order independence asks.  Call an action fresh when it carries a
  column later than the latest delete.  If there is a fresh action, then each
  column whose latest write is not later than the delete must have that latest
  write in **two** fresh actions: the first fresh action to be applied may find
  the row dead and lose its old columns, and only a second one restores them.

Only the times matter here.  Which value a column shows is determined by the
write whose time it shows.
-/

namespace LwwRow

open List

variable {κ T : Type*}

/-- The state of one row. -/
inductive State (κ T : Type*) where
  | absent
  | live (p : κ → WithBot T)
  | dead (d : T)

/-- An action on one row. -/
inductive Act (κ T : Type*) where
  | del (d : T)
  | ups (u : κ → WithBot T)

namespace Act

/-- The columns an action writes, with their times. -/
def cols : Act κ T → κ → WithBot T
  | .del _ => fun _ => ⊥
  | .ups u => u

@[simp] theorem cols_del (d : T) : (del d : Act κ T).cols = fun _ => ⊥ := rfl

@[simp] theorem cols_ups (u : κ → WithBot T) : (ups u).cols = u := rfl

variable [LinearOrder T]

/-- The action carries a column later than `d`. -/
def Fresh (d : T) (a : Act κ T) : Prop := ∃ c, (d : WithBot T) < a.cols c

theorem exists_ups_of_fresh {d : T} {a : Act κ T} (h : a.Fresh d) : ∃ u, a = ups u := by
  cases a with
  | del e =>
    obtain ⟨c, hc⟩ := h
    exact absurd hc not_lt_bot
  | ups u => exact ⟨u, rfl⟩

end Act

open Act State

variable [LinearOrder T]

open Classical in
/-- One action on a row. -/
noncomputable def step : State κ T → Act κ T → State κ T
  | .absent, .del d => .dead d
  | .dead e, .del d => if d ≤ e then .dead e else .dead d
  | .live p, .del d => if ∃ c, (d : WithBot T) < p c then .live p else .dead d
  | .absent, .ups u => .live u
  | .dead d, .ups u =>
    if ∃ c, (d : WithBot T) < u c then .live fun c => if (d : WithBot T) < u c then u c else ⊥
    else .dead d
  | .live p, .ups u => .live (p ⊔ u)

/-- A list of actions on a row that does not exist yet. -/
noncomputable def run (l : List (Act κ T)) : State κ T := l.foldl step .absent

/-- The latest time written to a column. -/
def joinAll : List (Act κ T) → κ → WithBot T
  | [] => ⊥
  | a :: l => a.cols ⊔ joinAll l

/-! ## The join of a list of actions -/

theorem joinAll_append (l m : List (Act κ T)) : joinAll (l ++ m) = joinAll l ⊔ joinAll m := by
  induction l with
  | nil => exact (bot_sup_eq _).symm
  | cons a l ih => rw [cons_append, joinAll, joinAll, ih, sup_assoc]

variable {l : List (Act κ T)} {a : Act κ T}

theorem cols_le_joinAll (h : a ∈ l) : a.cols ≤ joinAll l := by
  obtain ⟨s, t, rfl⟩ := append_of_mem h
  rw [joinAll_append, joinAll]
  exact le_sup_of_le_right le_sup_left

variable {l m : List (Act κ T)}

theorem joinAll_perm (h : l ~ m) : joinAll l = joinAll m := by
  induction h with
  | nil => rfl
  | cons a _ ih => rw [joinAll, joinAll, ih]
  | swap a b l => rw [joinAll, joinAll, joinAll, joinAll, sup_left_comm]
  | trans _ _ ih₁ ih₂ => exact ih₁.trans ih₂

theorem exists_mem_of_joinAll {c : κ} (h : joinAll l c ≠ ⊥) : ∃ a ∈ l, a.cols c = joinAll l c := by
  induction l with
  | nil => exact absurd rfl h
  | cons a l ih =>
    rw [joinAll, Pi.sup_apply] at h ⊢
    rcases le_total (a.cols c) (joinAll l c) with hle | hle
    · rw [sup_eq_right.mpr hle] at h ⊢
      obtain ⟨b, hb, hbc⟩ := ih h
      exact ⟨b, mem_cons_of_mem _ hb, hbc⟩
    · exact ⟨a, mem_cons_self, (sup_eq_left.mpr hle).symm⟩

theorem joinAll_le {c : κ} {x : WithBot T} (h : ∀ a ∈ l, a.cols c ≤ x) : joinAll l c ≤ x := by
  by_cases hbot : joinAll l c = ⊥
  · rw [hbot]
    exact bot_le
  · obtain ⟨a, ha, hac⟩ := exists_mem_of_joinAll hbot
    exact hac ▸ h a ha

/-! ## Nothing later than the latest delete -/

/-- No time in the state is later than `d`. -/
def State.Below (d : T) : State κ T → Prop
  | .absent => True
  | .live p => ∀ c, p c ≤ d
  | .dead e => e ≤ d

variable {d : T}

theorem not_fresh_iff : ¬ a.Fresh d ↔ ∀ c, a.cols c ≤ d := by
  rw [Act.Fresh, not_exists]
  exact forall_congr' fun c => not_lt

variable {s : State κ T}

theorem below_step (hs : s.Below d) (hdel : ∀ e, a = del e → e ≤ d) (hf : ¬ a.Fresh d) :
    (step s a).Below d := by
  rw [not_fresh_iff] at hf
  cases a with
  | del e =>
    have he : e ≤ d := hdel e rfl
    cases s with
    | absent => exact he
    | live p =>
      rw [step]
      split_ifs
      · exact hs
      · exact he
    | dead e' =>
      rw [step]
      split_ifs
      · exact hs
      · exact he
  | ups u =>
    cases s with
    | absent => exact hf
    | live p => exact fun c => sup_le (hs c) (hf c)
    | dead e =>
      rw [step]
      split_ifs
      · intro c
        show (if (e : WithBot T) < u c then u c else ⊥) ≤ (d : WithBot T)
        split_ifs
        · exact hf c
        · exact bot_le
      · exact hs

theorem below_foldl (hs : s.Below d) (hdel : ∀ e, del e ∈ l → e ≤ d) (hf : ∀ a ∈ l, ¬ a.Fresh d) :
    (l.foldl step s).Below d := by
  induction l generalizing s with
  | nil => exact hs
  | cons a l ih =>
    refine ih (below_step hs (fun e he => hdel e (he ▸ mem_cons_self)) (hf a mem_cons_self))
      (fun e he => hdel e (mem_cons_of_mem _ he)) fun b hb => hf b (mem_cons_of_mem _ hb)

theorem step_del_of_below (hs : s.Below d) : step s (del d) = .dead d := by
  cases s with
  | absent => rfl
  | live p =>
    rw [step, if_neg]
    rintro ⟨c, hc⟩
    exact absurd (hs c) (not_le.mpr hc)
  | dead e =>
    rw [step]
    split_ifs with h
    · rw [le_antisymm hs h]
    · rfl

theorem foldl_dead (hdel : ∀ e, del e ∈ l → e ≤ d) (hf : ∀ a ∈ l, ¬ a.Fresh d) :
    l.foldl step (.dead d) = .dead d := by
  induction l with
  | nil => rfl
  | cons a l ih =>
    have hstep : step (.dead d) a = .dead d := by
      cases a with
      | del e => rw [step, if_pos (hdel e mem_cons_self)]
      | ups u => exact if_neg (hf _ mem_cons_self)
    rw [foldl_cons, hstep]
    exact ih (fun e he => hdel e (mem_cons_of_mem _ he)) fun b hb => hf b (mem_cons_of_mem _ hb)

/-- **If nothing is later than the latest delete, the row ends dead at it.** -/
theorem run_of_not_fresh (hd : del d ∈ l) (hdel : ∀ e, del e ∈ l → e ≤ d)
    (hf : ∀ a ∈ l, ¬ a.Fresh d) : run l = .dead d := by
  obtain ⟨s, t, rfl⟩ := append_of_mem hd
  have hbelow : (s.foldl step State.absent).Below d :=
    below_foldl trivial (fun e he => hdel e (mem_append_left _ he))
      fun a ha => hf a (mem_append_left _ ha)
  rw [run, foldl_append, foldl_cons, step_del_of_below hbelow]
  exact foldl_dead (fun e he => hdel e (mem_append_right _ (mem_cons_of_mem _ he)))
    fun a ha => hf a (mem_append_right _ (mem_cons_of_mem _ ha))

/-! ## A column later than every remaining delete -/

/-- **A row with a column later than every remaining delete only joins.** -/
theorem foldl_live {p : κ → WithBot T} (h : ∀ e, del e ∈ l → ∃ c, (e : WithBot T) < p c) :
    l.foldl step (.live p) = .live (p ⊔ joinAll l) := by
  induction l generalizing p with
  | nil => rw [joinAll, sup_bot_eq]; rfl
  | cons a l ih =>
    rw [foldl_cons]
    cases a with
    | del e =>
      rw [step, if_pos (h e mem_cons_self), ih fun e' he => h e' (mem_cons_of_mem _ he), joinAll,
        cols_del]
      exact congrArg State.live (congrArg (p ⊔ ·) (bot_sup_eq _).symm)
    | ups u =>
      rw [step, ih, joinAll, cols_ups, sup_assoc]
      intro e he
      obtain ⟨c, hc⟩ := h e (mem_cons_of_mem _ he)
      exact ⟨c, lt_of_lt_of_le hc le_sup_left⟩

theorem run_of_no_del (hne : l ≠ []) (h : ∀ e, del e ∉ l) : run l = .live (joinAll l) := by
  cases l with
  | nil => exact absurd rfl hne
  | cons a l =>
    cases a with
    | del e => exact absurd mem_cons_self (h e)
    | ups u =>
      rw [run, foldl_cons, step, foldl_live fun e he => absurd (mem_cons_of_mem _ he) (h e),
        joinAll, cols_ups]

/-! ## Order independence -/

open Classical in
/-- The action is fresh and carries the write `t` of the column. -/
noncomputable def carries (d : T) (c : κ) (t : WithBot T) (a : Act κ T) : Bool :=
  decide (a.cols c = t ∧ a.Fresh d)

open Classical in
theorem carries_iff {c : κ} {t : WithBot T} :
    carries d c t a = true ↔ a.cols c = t ∧ a.Fresh d := by
  rw [carries, decide_eq_true_iff]

/-- What order independence asks of a list of actions: with `d` the latest delete,
if some action is fresh, then every column whose latest write is not later than
`d` has that write in at least two fresh actions. -/
def OrderFree (l : List (Act κ T)) : Prop :=
  ∀ d, del d ∈ l → (∀ e, del e ∈ l → e ≤ d) → (∃ a ∈ l, a.Fresh d) →
    ∀ c, joinAll l c ≠ ⊥ → joinAll l c ≤ d → 2 ≤ l.countP (carries d c (joinAll l c))

theorem payload_le_joinAll {p : κ → WithBot T} (h : run l = .live p) : p ≤ joinAll l := by
  induction l using List.reverseRecOn generalizing p with
  | nil => simp [run] at h
  | append_singleton l a ih =>
    rw [run, foldl_append, foldl_cons, foldl_nil] at h
    rw [joinAll_append, joinAll, joinAll, sup_bot_eq]
    change step (run l) a = .live p at h
    cases hs : run l with
    | absent =>
      rw [hs] at h
      cases a with
      | del e => simp [step] at h
      | ups u =>
        simp only [step, State.live.injEq] at h
        rw [← h]
        exact le_sup_right
    | live q =>
      rw [hs] at h
      have hq := ih hs
      cases a with
      | del e =>
        rw [step] at h
        split_ifs at h
        obtain rfl := State.live.inj h
        exact le_sup_of_le_left hq
      | ups u =>
        simp only [step, State.live.injEq] at h
        rw [← h]
        exact sup_le_sup_right hq _
    | dead e =>
      rw [hs] at h
      cases a with
      | del e' =>
        rw [step] at h
        split_ifs at h
      | ups u =>
        rw [step] at h
        split_ifs at h
        obtain rfl := State.live.inj h
        intro c
        show (if (e : WithBot T) < u c then u c else ⊥) ≤ _
        split_ifs
        · exact le_sup_right
        · exact bot_le

/-- A fresh action on a row below `d` leaves the row live with the action's late columns. -/
theorem step_of_fresh (hs : s.Below d) (ha : a.Fresh d) :
    ∃ q, step s a = .live q ∧ ∀ c, (d : WithBot T) < a.cols c → a.cols c ≤ q c := by
  obtain ⟨u, rfl⟩ := exists_ups_of_fresh ha
  cases s with
  | absent => exact ⟨u, rfl, fun c _ => le_rfl⟩
  | live p => exact ⟨p ⊔ u, rfl, fun c _ => le_sup_right⟩
  | dead e =>
    have he : (e : WithBot T) ≤ d := WithBot.coe_le_coe.mpr hs
    obtain ⟨c, hc⟩ := ha
    refine ⟨_, if_pos ⟨c, lt_of_le_of_lt he hc⟩, fun c' hc' => ?_⟩
    rw [cols_ups] at hc' ⊢
    rw [if_pos (lt_of_le_of_lt he hc')]

theorem exists_first_fresh (h : ∃ a ∈ l, a.Fresh d) :
    ∃ s a t, l = s ++ a :: t ∧ a.Fresh d ∧ ∀ b ∈ s, ¬ b.Fresh d := by
  induction l with
  | nil =>
    obtain ⟨a, ha, -⟩ := h
    exact absurd ha (by simp)
  | cons b l ih =>
    by_cases hb : b.Fresh d
    · exact ⟨[], b, l, rfl, hb, by simp⟩
    · obtain ⟨a, ha, haf⟩ := h
      have hal : a ∈ l := by
        rcases mem_cons.mp ha with rfl | hal
        · exact absurd haf hb
        · exact hal
      obtain ⟨s, a', t, rfl, hfa, hs⟩ := ih ⟨a, hal, haf⟩
      refine ⟨b :: s, a', t, rfl, hfa, ?_⟩
      intro x hx
      rcases mem_cons.mp hx with rfl | hx
      · exact hb
      · exact hs x hx

theorem run_of_fresh (hl : OrderFree l) (hd : del d ∈ l) (hdel : ∀ e, del e ∈ l → e ≤ d)
    (hf : ∃ a ∈ l, a.Fresh d) : run l = .live (joinAll l) := by
  have hcount := hl d hd hdel hf
  obtain ⟨s, a, t, rfl, ha, hs⟩ := exists_first_fresh hf
  have hbelow : (run s).Below d :=
    below_foldl trivial (fun e he => hdel e (mem_append_left _ he)) hs
  obtain ⟨q, hq, hqa⟩ := step_of_fresh hbelow ha
  have hlate : ∀ e, del e ∈ t → ∃ c, (e : WithBot T) < q c := by
    intro e he
    have hed : e ≤ d := hdel e (mem_append_right _ (mem_cons_of_mem _ he))
    obtain ⟨c, hc⟩ := ha
    exact ⟨c, lt_of_lt_of_le (lt_of_le_of_lt (WithBot.coe_le_coe.mpr hed) hc) (hqa c hc)⟩
  have hrun : run (s ++ a :: t) = .live (q ⊔ joinAll t) := by
    rw [run, foldl_append, foldl_cons]
    change foldl step (step (run s) a) t = _
    rw [hq, foldl_live hlate]
  refine hrun.trans (congrArg State.live (le_antisymm (payload_le_joinAll hrun) fun c => ?_))
  -- the latest write of `c` is in the first fresh action or after it
  by_cases hbot : joinAll (s ++ a :: t) c = ⊥
  · rw [hbot]
    exact bot_le
  by_cases hcd : joinAll (s ++ a :: t) c ≤ d
  · have hc := hcount c hbot hcd
    rw [countP_append, countP_cons] at hc
    have hzero : s.countP (carries d c (joinAll (s ++ a :: t) c)) = 0 := by
      rw [countP_eq_zero]
      intro b hb hcar
      exact hs b hb (carries_iff.mp hcar).2
    have hpos : 0 < t.countP (carries d c (joinAll (s ++ a :: t) c)) := by
      split_ifs at hc <;> omega
    obtain ⟨b, hb, hbc⟩ := countP_pos_iff.mp hpos
    rw [← (carries_iff.mp hbc).1]
    exact le_sup_of_le_right (cols_le_joinAll hb c)
  · obtain ⟨b, hb, hbc⟩ := exists_mem_of_joinAll hbot
    have hbf : (d : WithBot T) < b.cols c := by
      rw [hbc]
      exact not_le.mp hcd
    rw [← hbc]
    rcases mem_append.mp hb with hb | hb
    · exact absurd ⟨c, hbf⟩ (hs b hb)
    · rcases mem_cons.mp hb with rfl | hb
      · exact le_sup_of_le_left (hqa c hbf)
      · exact le_sup_of_le_right (cols_le_joinAll hb c)

theorem orderFree_perm (h : l ~ m) (hl : OrderFree l) : OrderFree m := by
  intro d hd hdel hf c hbot hcd
  rw [← joinAll_perm h] at hbot hcd ⊢
  rw [← h.countP_eq]
  refine hl d (h.mem_iff.mpr hd) (fun e he => hdel e (h.mem_iff.mp he)) ?_ c hbot hcd
  obtain ⟨a, ha, haf⟩ := hf
  exact ⟨a, h.mem_iff.mpr ha, haf⟩

theorem exists_latest_del (h : ∃ d, del d ∈ l) : ∃ d, del d ∈ l ∧ ∀ e, del e ∈ l → e ≤ d := by
  induction l with
  | nil => simp at h
  | cons a l ih =>
    by_cases htail : ∃ d, del d ∈ l
    · obtain ⟨d, hd, hmax⟩ := ih htail
      cases a with
      | del e =>
        rcases le_total e d with hed | hed
        · refine ⟨d, mem_cons_of_mem _ hd, fun e' he' => ?_⟩
          rcases mem_cons.mp he' with he' | he'
          · rw [Act.del.inj he']
            exact hed
          · exact hmax e' he'
        · refine ⟨e, mem_cons_self, fun e' he' => ?_⟩
          rcases mem_cons.mp he' with he' | he'
          · rw [Act.del.inj he']
          · exact (hmax e' he').trans hed
      | ups u =>
        refine ⟨d, mem_cons_of_mem _ hd, fun e' he' => hmax e' ?_⟩
        simpa using he'
    · obtain ⟨d, hd⟩ := h
      rcases mem_cons.mp hd with rfl | hd
      · refine ⟨d, mem_cons_self, fun e he => ?_⟩
        rcases mem_cons.mp he with he | he
        · rw [Act.del.inj he]
        · exact absurd ⟨e, he⟩ htail
      · exact absurd ⟨d, hd⟩ htail

/-- **An order-free list gives the same row in every order.** -/
theorem run_of_orderFree (hl : OrderFree l) (h : m ~ l) : run m = run l := by
  by_cases hdel : ∃ d, del d ∈ l
  · obtain ⟨d, hd, hmax⟩ := exists_latest_del hdel
    have hd' : del d ∈ m := h.mem_iff.mpr hd
    have hmax' : ∀ e, del e ∈ m → e ≤ d := fun e he => hmax e (h.mem_iff.mp he)
    by_cases hf : ∃ a ∈ l, a.Fresh d
    · have hf' : ∃ a ∈ m, a.Fresh d := by
        obtain ⟨a, ha, haf⟩ := hf
        exact ⟨a, h.mem_iff.mpr ha, haf⟩
      rw [run_of_fresh hl hd hmax hf, run_of_fresh (orderFree_perm h.symm hl) hd' hmax' hf',
        joinAll_perm h]
    · rw [not_exists] at hf
      rw [run_of_not_fresh hd hmax fun a ha haf => hf a ⟨ha, haf⟩,
        run_of_not_fresh hd' hmax' fun a ha haf => hf a ⟨h.mem_iff.mp ha, haf⟩]
  · rw [not_exists] at hdel
    by_cases hne : l = []
    · rw [hne] at h
      rw [hne, h.eq_nil]
    · have hne' : m ≠ [] := fun hm => hne (by rw [hm] at h; exact h.symm.eq_nil)
      rw [run_of_no_del hne hdel, run_of_no_del hne' fun e he => hdel e (h.mem_iff.mp he),
        joinAll_perm h]

/-- **Order independence asks for no less.**  The two orders that tell: all fresh
actions first, and all fresh actions last, behind a dead row. -/
theorem orderFree_of_run_perm (h : ∀ m, m ~ l → run m = run l) : OrderFree l := by
  classical
  intro d hd hdel hf c hbot hcd
  by_contra hcount
  set t := joinAll l c with ht
  set F := l.filter fun a => decide (a.Fresh d) with hF
  set N := l.filter fun a => !decide (a.Fresh d) with hN
  have hsplit : F ++ N ~ l := filter_append_perm _ l
  have hmemF : ∀ a, a ∈ F ↔ a ∈ l ∧ a.Fresh d := fun a => by simp [hF]
  have hmemN : ∀ a, a ∈ N ↔ a ∈ l ∧ ¬ a.Fresh d := fun a => by simp [hN]
  -- the first fresh action: one that carries the latest write of `c`, if there is one
  obtain ⟨a, haF, hacarries⟩ : ∃ a ∈ F, (∃ b ∈ F, b.cols c = t) → a.cols c = t := by
    by_cases hb : ∃ b ∈ F, b.cols c = t
    · obtain ⟨b, hb, hbt⟩ := hb
      exact ⟨b, hb, fun _ => hbt⟩
    · obtain ⟨b, hbl, hbf⟩ := hf
      exact ⟨b, (hmemF b).mpr ⟨hbl, hbf⟩, fun h' => absurd h' hb⟩
  have haf : a.Fresh d := ((hmemF a).mp haF).2
  obtain ⟨F₁, F₂, hFeq⟩ := append_of_mem haF
  have hFperm : F ~ a :: (F₁ ++ F₂) := by
    rw [hFeq]
    exact perm_middle
  have hlate : ∀ (q : κ → WithBot T), (∃ c, (d : WithBot T) < q c) →
      ∀ m : List (Act κ T), (∀ x ∈ m, x ∈ l) → ∀ e, del e ∈ m → ∃ c, (e : WithBot T) < q c := by
    rintro q ⟨c', hc'⟩ m hm e he
    exact ⟨c', lt_of_le_of_lt (WithBot.coe_le_coe.mpr (hdel e (hm _ he))) hc'⟩
  have hperm₁ : a :: (F₁ ++ F₂ ++ N) ~ l := by
    refine Perm.trans ?_ hsplit
    rw [← cons_append]
    exact hFperm.symm.append_right N
  have hperm₂ : N ++ a :: (F₁ ++ F₂) ~ l :=
    Perm.trans (Perm.append_left N hFperm.symm) (Perm.trans perm_append_comm hsplit)
  obtain ⟨u, rfl⟩ := exists_ups_of_fresh haf
  -- all fresh actions first: the row shows the latest write of every column
  have hrun₁ : run (ups u :: (F₁ ++ F₂ ++ N)) = .live (joinAll l) := by
    have hsub : ∀ x ∈ F₁ ++ F₂ ++ N, x ∈ l := fun x hx =>
      hperm₁.mem_iff.mp (mem_cons_of_mem _ hx)
    rw [run, foldl_cons]
    change foldl step (.live u) _ = _
    rw [foldl_live (hlate u haf _ hsub), ← joinAll_perm hperm₁, joinAll, cols_ups]
  -- all fresh actions last: the first of them finds the row dead
  have hrun₂ : run (N ++ ups u :: (F₁ ++ F₂)) =
      .live ((fun c => if (d : WithBot T) < u c then u c else ⊥) ⊔ joinAll (F₁ ++ F₂)) := by
    have hdN : del d ∈ N := by
      rw [hmemN]
      refine ⟨hd, ?_⟩
      rw [not_fresh_iff]
      exact fun _ => bot_le
    have hdead : run N = .dead d :=
      run_of_not_fresh hdN (fun e he => hdel e ((hmemN _).mp he).1) fun x hx => ((hmemN x).mp hx).2
    have hsub : ∀ x ∈ F₁ ++ F₂, x ∈ l := fun x hx =>
      hperm₂.mem_iff.mp (mem_append_right _ (mem_cons_of_mem _ hx))
    have hfilter : ∃ c, (d : WithBot T) < (fun c => if (d : WithBot T) < u c then u c else ⊥) c := by
      obtain ⟨c', hc'⟩ := haf
      refine ⟨c', ?_⟩
      rw [cols_ups] at hc'
      simp only [if_pos hc']
      exact hc'
    rw [run, foldl_append, foldl_cons]
    change foldl step (step (run N) (ups u)) _ = _
    have hrevive : step (.dead d) (ups u) =
        .live fun c => if (d : WithBot T) < u c then u c else ⊥ := if_pos haf
    rw [hdead, hrevive, foldl_live (hlate _ hfilter _ hsub)]
  have hsame := (h _ hperm₁).trans (h _ hperm₂).symm
  rw [hrun₁, hrun₂] at hsame
  have hc := congrFun (State.live.inj hsame) c
  have hu : ¬ (d : WithBot T) < u c := by
    have hut : u c ≤ t := cols_le_joinAll ((hmemF _).mp haF).1 c
    exact not_lt.mpr (hut.trans hcd)
  rw [Pi.sup_apply, if_neg hu, bot_sup_eq] at hc
  -- so a fresh action other than the first carries the latest write of `c`
  have hbot' : joinAll (F₁ ++ F₂) c ≠ ⊥ := by
    rw [← hc]
    exact hbot
  obtain ⟨b, hb, hbc⟩ := exists_mem_of_joinAll hbot'
  have hbt : b.cols c = t := hbc.trans hc.symm
  have hbF : b ∈ F := hFperm.mem_iff.mpr (mem_cons_of_mem _ hb)
  have hut : (ups u : Act κ T).cols c = t := hacarries ⟨b, hbF, hbt⟩
  apply hcount
  rw [← hperm₂.countP_eq, countP_append, countP_cons, if_pos (carries_iff.mpr ⟨hut, haf⟩)]
  have hone : 0 < (F₁ ++ F₂).countP (carries d c t) :=
    countP_pos_iff.mpr ⟨b, hb, carries_iff.mpr ⟨hbt, ((hmemF b).mp hbF).2⟩⟩
  omega

end LwwRow
