import Mathlib.Data.List.Sort

/-!
# Sorting with a function for the order

A sort that takes a comparison function can promise an order only if the function describes one.
What it needs is that the function be *consistent* on the values that are sorted: equal values fall
into classes, and the classes into a line.  On a function that is not, the result is some
permutation, which one depending on the algorithm and on the order in which the values arrive.

The specification of a sort therefore has two parts, and a program may use of it no more than the
two say.  A statement about such a program quantifies over all sorts that meet the specification;
where it fails for some of them it fails for one that sorts where it must and does as it likes
elsewhere, `wilfulSort`.

* `Consistent`: what a comparison function has to be, on a list.
* `ArraySort`: a sort by a comparison function, which may throw.
* `insertionSort`, `wilfulSort`, `idleSort`: some of them.
* `sorted_unique`: under a consistent function, the order of arrival does not matter to what the
  function tells apart.
* `wilfulSort_of_not`: under any other function every arrangement may be the result.
-/

namespace Comparators

open List Option

variable {α β : Type*}

/-- The function is a consistent comparator for the values of a list. -/
structure Consistent (c : α → α → ℤ) (l : List α) : Prop where
  refl : ∀ a ∈ l, c a a = 0
  symm : ∀ a ∈ l, ∀ b ∈ l, c a b = 0 → c b a = 0
  trans : ∀ a ∈ l, ∀ b ∈ l, ∀ d ∈ l, c a b = 0 → c b d = 0 → c a d = 0
  less : ∀ a ∈ l, ∀ b ∈ l, ∀ d ∈ l, c a b < 0 → c b d < 0 → c a d < 0
  greater : ∀ a ∈ l, ∀ b ∈ l, ∀ d ∈ l, 0 < c a b → 0 < c b d → 0 < c a d

namespace Consistent

variable {c : α → α → ℤ} {l m : List α}

theorem mono (h : Consistent c l) (hsub : ∀ a ∈ m, a ∈ l) : Consistent c m where
  refl a ha := h.refl a (hsub a ha)
  symm a ha b hb := h.symm a (hsub a ha) b (hsub b hb)
  trans a ha b hb d hd := h.trans a (hsub a ha) b (hsub b hb) d (hsub d hd)
  less a ha b hb d hd := h.less a (hsub a ha) b (hsub b hb) d (hsub d hd)
  greater a ha b hb d hd := h.greater a (hsub a ha) b (hsub b hb) d (hsub d hd)

theorem congr {d : α → α → ℤ} (h : Consistent d l) (hsame : ∀ a ∈ l, ∀ b ∈ l, d a b = c a b) :
    Consistent c l where
  refl a ha := by
    rw [← hsame a ha a ha]
    exact h.refl a ha
  symm a ha b hb := by
    rw [← hsame a ha b hb, ← hsame b hb a ha]
    exact h.symm a ha b hb
  trans a ha b hb e he := by
    rw [← hsame a ha b hb, ← hsame b hb e he, ← hsame a ha e he]
    exact h.trans a ha b hb e he
  less a ha b hb e he := by
    rw [← hsame a ha b hb, ← hsame b hb e he, ← hsame a ha e he]
    exact h.less a ha b hb e he
  greater a ha b hb e he := by
    rw [← hsame a ha b hb, ← hsame b hb e he, ← hsame a ha e he]
    exact h.greater a ha b hb e he

theorem neg_iff (h : Consistent c l) {a b : α} (ha : a ∈ l) (hb : b ∈ l) :
    c a b < 0 ↔ 0 < c b a := by
  have hrefl := h.refl a ha
  have hrefl' := h.refl b hb
  constructor
  · intro hab
    rcases lt_trichotomy (c b a) 0 with hba | hba | hba
    · have hless := h.less a ha b hb a ha hab hba
      omega
    · have hequal := h.symm b hb a ha hba
      omega
    · exact hba
  · intro hba
    rcases lt_trichotomy (c a b) 0 with hab | hab | hab
    · exact hab
    · have hequal := h.symm a ha b hb hab
      omega
    · have hgreater := h.greater a ha b hb a ha hab hba
      omega

theorem le_trans (h : Consistent c l) {a b d : α} (ha : a ∈ l) (hb : b ∈ l) (hd : d ∈ l)
    (hab : c a b ≤ 0) (hbd : c b d ≤ 0) : c a d ≤ 0 := by
  by_contra hnot
  have had : 0 < c a d := by omega
  have hda : c d a < 0 := (h.neg_iff hd ha).mpr had
  rcases lt_or_eq_of_le hab with hab | hab
  · -- `d` is below `a` and `a` below `b`, so `d` is below `b`
    have hdb := (h.neg_iff hd hb).mp (h.less d hd a ha b hb hda hab)
    omega
  · rcases lt_or_eq_of_le hbd with hbd | hbd
    · have hba := (h.neg_iff hb ha).mp (h.less b hb d hd a ha hbd hda)
      omega
    · have hequal := h.trans a ha b hb d hd hab hbd
      omega

theorem le_total (h : Consistent c l) {a b : α} (ha : a ∈ l) (hb : b ∈ l) :
    c a b ≤ 0 ∨ c b a ≤ 0 := by
  rcases le_or_gt (c a b) 0 with hab | hab
  · exact Or.inl hab
  · exact Or.inr (le_of_lt ((h.neg_iff hb ha).mpr hab))

theorem neg (h : Consistent c l) : Consistent (fun a b => -c a b) l where
  refl a ha := by
    have hrefl := h.refl a ha
    omega
  symm a ha b hb hab := by
    have hsymm := h.symm a ha b hb (by omega)
    omega
  trans a ha b hb d hd hab hbd := by
    have htrans := h.trans a ha b hb d hd (by omega) (by omega)
    omega
  less a ha b hb d hd hab hbd := by
    have hgreater := h.greater a ha b hb d hd (by omega) (by omega)
    omega
  greater a ha b hb d hd hab hbd := by
    have hless := h.less a ha b hb d hd (by omega) (by omega)
    omega

end Consistent

variable {c : α → α → ℤ} {l : List α}

theorem consistent_neg_iff : Consistent (fun a b => -c a b) l ↔ Consistent c l := by
  refine ⟨fun h => ?_, Consistent.neg⟩
  have hneg := h.neg
  simp only [Int.neg_neg] at hneg
  exact hneg

/-- **The order of arrival does not matter.**  Two arrangements of one list that a consistent
function calls sorted agree in everything that values it does not tell apart have in common. -/
theorem sorted_unique {f : α → β} {r s : List α} (h : Consistent c l)
    (hf : ∀ a ∈ l, ∀ b ∈ l, c a b = 0 ↔ f a = f b) (hr : r.Perm l) (hs : s.Perm l)
    (hrsorted : r.Pairwise fun a b => c a b ≤ 0) (hssorted : s.Pairwise fun a b => c a b ≤ 0) :
    r.map f = s.map f := by
  -- the order of the classes
  have hle : ∀ {t : List α}, t.Perm l → (t.Pairwise fun a b => c a b ≤ 0) →
      (t.map f).Pairwise fun u v => ∃ a ∈ l, ∃ b ∈ l, f a = u ∧ f b = v ∧ c a b ≤ 0 := by
    intro t ht hsorted
    rw [pairwise_map]
    refine hsorted.imp_of_mem ?_
    intro a b ha hb hab
    exact ⟨a, ht.mem_iff.mp ha, b, ht.mem_iff.mp hb, rfl, rfl, hab⟩
  refine List.Perm.eq_of_pairwise ?_ (hle hr hrsorted) (hle hs hssorted) ((hr.trans hs.symm).map f)
  rintro u v - - ⟨a, ha, b, hb, rfl, rfl, hab⟩ ⟨b', hb', a', ha', hfb, hfa, hba⟩
  have haa := (hf a ha a' ha').mpr hfa.symm
  have hbb := (hf b' hb' b hb).mpr hfb
  have hba' : c b a ≤ 0 := by
    have hb'a : c b' a ≤ 0 :=
      h.le_trans hb' ha' ha hba (le_of_eq (h.symm a ha a' ha' haa))
    exact h.le_trans hb hb' ha (le_of_eq (h.symm b' hb' b hb hbb)) hb'a
  refine (hf a ha b hb).mp ?_
  rcases lt_or_eq_of_le hab with hlt | heq
  · have hpos := (h.neg_iff ha hb).mp hlt
    omega
  · exact heq

/-! ## Sorts -/

/-- The comparison function, which may throw, does not on the values of a list. -/
def Compares (cmp : α → α → Option ℤ) (c : α → α → ℤ) (l : List α) : Prop :=
  ∀ a ∈ l, ∀ b ∈ l, cmp a b = some (c a b)

/-- A sort as it is specified: as long as no comparison throws it returns a permutation, and under
a consistent comparator one in order. -/
structure ArraySort (α : Type*) where
  sort : (α → α → Option ℤ) → List α → Option (List α)
  returns : ∀ {cmp c l}, Compares cmp c l → ∃ r, sort cmp l = some r ∧ r.Perm l
  sorted : ∀ {cmp c l r}, Compares cmp c l → Consistent c l → sort cmp l = some r →
    r.Pairwise fun a b => c a b ≤ 0

/-- Put a value before the first one that it is not above. -/
def insert (cmp : α → α → Option ℤ) (a : α) : List α → Option (List α)
  | [] => some [a]
  | b :: l => (cmp a b).bind fun d =>
    if d ≤ 0 then some (a :: b :: l) else (insert cmp a l).map fun l => b :: l

/-- Insert the values one by one, from the last on. -/
def insertAll (cmp : α → α → Option ℤ) : List α → Option (List α)
  | [] => some []
  | a :: l => (insertAll cmp l).bind (insert cmp a)

variable {cmp : α → α → Option ℤ}

theorem insert_returns {a : α} (h : ∀ b ∈ l, cmp a b = some (c a b)) :
    ∃ r, insert cmp a l = some r ∧ r.Perm (a :: l) := by
  induction l with
  | nil => exact ⟨[a], rfl, List.Perm.refl _⟩
  | cons b l ih =>
    rw [insert, h b mem_cons_self, bind_some]
    split_ifs with hle
    · exact ⟨_, rfl, List.Perm.refl _⟩
    · obtain ⟨r, hr, hperm⟩ := ih fun d hd => h d (mem_cons_of_mem b hd)
      rw [hr]
      exact ⟨b :: r, rfl, (hperm.cons b).trans (List.Perm.swap a b l)⟩

theorem insert_sorted {a : α} {r : List α} (h : ∀ b ∈ l, cmp a b = some (c a b))
    (hc : Consistent c (a :: l)) (hl : l.Pairwise fun a b => c a b ≤ 0)
    (hr : insert cmp a l = some r) : r.Pairwise fun a b => c a b ≤ 0 := by
  induction l generalizing r with
  | nil =>
    rw [← some.inj hr]
    exact pairwise_singleton _ a
  | cons b l ih =>
    obtain ⟨hb, hrest⟩ := pairwise_cons.mp hl
    rw [insert, h b mem_cons_self, bind_some] at hr
    split_ifs at hr with hle
    · rw [← some.inj hr, pairwise_cons]
      refine ⟨fun d hd => ?_, hl⟩
      rcases mem_cons.mp hd with rfl | hd'
      · exact hle
      · exact hc.le_trans mem_cons_self (by simp) (by simp [hd']) hle (hb d hd')
    · have hmore : ∀ d ∈ l, cmp a d = some (c a d) := fun d hd => h d (mem_cons_of_mem b hd)
      obtain ⟨r', hr', hperm⟩ := insert_returns hmore
      have hsub : Consistent c (a :: l) := hc.mono fun d hd => by
        rcases mem_cons.mp hd with rfl | hd'
        · exact mem_cons_self
        · simp [hd']
      rw [hr'] at hr
      rw [← some.inj hr, pairwise_cons]
      refine ⟨fun d hd => ?_, ih hmore hsub hrest hr'⟩
      rcases mem_cons.mp (hperm.mem_iff.mp hd) with rfl | hd'
      · exact (hc.le_total mem_cons_self (by simp)).resolve_left hle
      · exact hb d hd'

theorem insertAll_returns (h : Compares cmp c l) : ∃ r, insertAll cmp l = some r ∧ r.Perm l := by
  induction l with
  | nil => exact ⟨[], rfl, List.Perm.refl _⟩
  | cons a l ih =>
    obtain ⟨r, hr, hperm⟩ := ih fun b hb d hd =>
      h b (mem_cons_of_mem a hb) d (mem_cons_of_mem a hd)
    have hmore : ∀ b ∈ r, cmp a b = some (c a b) := fun b hb =>
      h a mem_cons_self b (mem_cons_of_mem a (hperm.mem_iff.mp hb))
    obtain ⟨s, hs, hperm'⟩ := insert_returns hmore
    rw [insertAll, hr, bind_some]
    exact ⟨s, hs, hperm'.trans (hperm.cons a)⟩

theorem insertAll_sorted {r : List α} (h : Compares cmp c l) (hc : Consistent c l)
    (hr : insertAll cmp l = some r) : r.Pairwise fun a b => c a b ≤ 0 := by
  induction l generalizing r with
  | nil =>
    rw [← some.inj hr]
    exact List.Pairwise.nil
  | cons a l ih =>
    have hless : Compares cmp c l := fun b hb d hd =>
      h b (mem_cons_of_mem a hb) d (mem_cons_of_mem a hd)
    obtain ⟨s, hs, hperm⟩ := insertAll_returns hless
    have hmore : ∀ b ∈ s, cmp a b = some (c a b) := fun b hb =>
      h a mem_cons_self b (mem_cons_of_mem a (hperm.mem_iff.mp hb))
    rw [insertAll, hs, bind_some] at hr
    have hsub : Consistent c (a :: s) := hc.mono fun b hb => (hperm.cons a).mem_iff.mp hb
    have hsorted := ih hless (hc.mono fun b hb => mem_cons_of_mem a hb) hs
    exact insert_sorted hmore hsub hsorted hr

/-- Insertion sort. -/
def insertionSort (α : Type*) : ArraySort α where
  sort := insertAll
  returns := insertAll_returns
  sorted := insertAll_sorted

open Classical in
/-- The sort that returns what it likes where it may. -/
noncomputable def wilfulSort (g : List α → List α) (hg : ∀ l, (g l).Perm l) : ArraySort α where
  sort cmp l := if ∃ c, Compares cmp c l ∧ Consistent c l then insertAll cmp l else some (g l)
  returns {cmp c l} h := by
    split_ifs
    · exact insertAll_returns h
    · exact ⟨g l, rfl, hg l⟩
  sorted {cmp c l r} h hc hr := by
    rw [if_pos ⟨c, h, hc⟩] at hr
    exact insertAll_sorted h hc hr

theorem wilfulSort_of_not {g : List α → List α} {hg : ∀ l, (g l).Perm l} (h : Compares cmp c l)
    (hc : ¬Consistent c l) : (wilfulSort g hg).sort cmp l = some (g l) := by
  refine if_neg ?_
  rintro ⟨d, hd, hconsistent⟩
  refine hc ?_
  have hsame : ∀ a ∈ l, ∀ b ∈ l, d a b = c a b := fun a ha b hb =>
    some.inj ((hd a ha b hb).symm.trans (h a ha b hb))
  exact hconsistent.congr hsame

open Classical in
theorem exists_sort_of_not {target : List α} (h : Compares cmp c l) (hc : ¬Consistent c l)
    (htarget : target.Perm l) : ∃ S : ArraySort α, S.sort cmp l = some target := by
  have hg : ∀ m, (if m = l then target else m).Perm m := by
    intro m
    split_ifs with hm
    · rw [hm]
      exact htarget
    · exact List.Perm.refl m
  refine ⟨wilfulSort _ hg, ?_⟩
  rw [wilfulSort_of_not h hc, if_pos rfl]

/-- The sort that does nothing where it need not. -/
noncomputable def idleSort (α : Type*) : ArraySort α := wilfulSort id fun l => List.Perm.refl l

theorem idleSort_of_not (h : Compares cmp c l) (hc : ¬Consistent c l) :
    (idleSort α).sort cmp l = some l :=
  wilfulSort_of_not h hc

end Comparators
