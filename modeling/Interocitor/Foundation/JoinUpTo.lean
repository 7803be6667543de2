import Mathlib.Order.Bounds.Basic

/-!
# Joins up to an equivalence

A merge function that is commutative, associative and idempotent makes its arguments a
semilattice, and what is merged from a collection is its least upper bound: it depends on which
elements there are and not on their order or on how often each of them is merged.

A program rarely has these laws on the nose.  They hold up to a notion of sameness that is coarser
than equality, and only on part of the type.  `Lawful` states them in that form, relative to a set
`D`.  The classes of `D` up to sameness are then a semilattice in Mathlib's sense, and `IsJoin` says
of an element that its class is the least upper bound of the classes of a set.

* `IsJoin.add`: merging one more element.
* `IsJoin.unique`: two elements that are merged from one set are the same.
* `Gathers`: the same for an accumulator that is empty at first.
-/

namespace JoinUpTo

variable {α : Type*}

/-- The laws of a merge function on `D`, up to `same`. -/
structure Lawful (D : Set α) (same : α → α → Prop) (merge : α → α → α) : Prop where
  symm : ∀ {a b}, a ∈ D → b ∈ D → same a b → same b a
  trans : ∀ {a b c}, a ∈ D → b ∈ D → c ∈ D → same a b → same b c → same a c
  closed : ∀ {a b}, a ∈ D → b ∈ D → merge a b ∈ D
  congr : ∀ {a a' b b'}, a ∈ D → a' ∈ D → b ∈ D → b' ∈ D → same a a' → same b b' →
    same (merge a b) (merge a' b')
  comm : ∀ {a b}, a ∈ D → b ∈ D → same (merge a b) (merge b a)
  assoc : ∀ {a b c}, a ∈ D → b ∈ D → c ∈ D →
    same (merge (merge a b) c) (merge a (merge b c))
  idem : ∀ {a}, a ∈ D → same (merge a a) a

namespace Lawful

variable {D : Set α} {same : α → α → Prop} {merge : α → α → α}

/-- Sameness is reflexive on `D`, because an element merged with itself is the same. -/
theorem refl (h : Lawful D same merge) {a : α} (ha : a ∈ D) : same a a :=
  h.trans ha (h.closed ha ha) ha (h.symm (h.closed ha ha) ha (h.idem ha)) (h.idem ha)

/-- Sameness, as an equivalence on `D`. -/
def setoid (h : Lawful D same merge) : Setoid D where
  r a b := same a.1 b.1
  iseqv :=
    { refl := fun a => h.refl a.2
      symm := fun {a b} hab => h.symm a.2 b.2 hab
      trans := fun {a b c} hab hbc => h.trans a.2 b.2 c.2 hab hbc }

/-- The elements of `D`, up to sameness. -/
def Class (h : Lawful D same merge) : Type _ := Quotient h.setoid

/-- The class of an element. -/
def cls (h : Lawful D same merge) (a : D) : h.Class := Quotient.mk h.setoid a

theorem cls_eq_iff (h : Lawful D same merge) {a b : D} : h.cls a = h.cls b ↔ same a.1 b.1 :=
  @Quotient.eq D h.setoid a b

instance (h : Lawful D same merge) : Max h.Class where
  max := Quotient.map₂ (fun a b => ⟨merge a.1 b.1, h.closed a.2 b.2⟩)
    fun a a' haa b b' hbb => h.congr a.2 a'.2 b.2 b'.2 haa hbb

instance (h : Lawful D same merge) : SemilatticeSup h.Class :=
  SemilatticeSup.mk'
    (fun x y => Quotient.inductionOn₂ x y fun a b => h.cls_eq_iff.2 (h.comm a.2 b.2))
    (fun x y z => Quotient.inductionOn₃ x y z fun a b c =>
      h.cls_eq_iff.2 (h.assoc a.2 b.2 c.2))
    fun x => Quotient.inductionOn x fun a => h.cls_eq_iff.2 (h.idem a.2)

/-- `a` is what merging the elements of `S` comes to. -/
def IsJoin (h : Lawful D same merge) (S : Set α) (a : α) : Prop :=
  ∃ ha : a ∈ D, IsLUB (h.cls '' { x | x.1 ∈ S }) (h.cls ⟨a, ha⟩)

variable {h : Lawful D same merge} {S : Set α} {a b x : α}

theorem IsJoin.mem (hS : h.IsJoin S a) : a ∈ D := hS.1

theorem isJoin_singleton (ha : a ∈ D) : h.IsJoin {a} a := by
  refine ⟨ha, ?_⟩
  have himage : h.cls '' { x : D | x.1 ∈ ({a} : Set α) } = {h.cls ⟨a, ha⟩} := by
    ext c
    constructor
    · rintro ⟨x, hx, rfl⟩
      exact congrArg h.cls (Subtype.ext hx)
    · rintro rfl
      exact ⟨⟨a, ha⟩, rfl, rfl⟩
  rw [himage]
  exact isLUB_singleton

theorem IsJoin.of_same (hS : h.IsJoin S a) (hb : b ∈ D) (hsame : same b a) : h.IsJoin S b := by
  obtain ⟨ha, hlub⟩ := hS
  refine ⟨hb, ?_⟩
  rw [h.cls_eq_iff.2 (show same (⟨b, hb⟩ : D).1 (⟨a, ha⟩ : D).1 from hsame)]
  exact hlub

/-- **Merging one more element.** -/
theorem IsJoin.add (hS : h.IsJoin S a) (hx : x ∈ D) : h.IsJoin (insert x S) (merge a x) := by
  obtain ⟨ha, hlub⟩ := hS
  refine ⟨h.closed ha hx, ?_⟩
  have himage : h.cls '' { y : D | y.1 ∈ insert x S } =
      insert (h.cls ⟨x, hx⟩) (h.cls '' { y | y.1 ∈ S }) := by
    ext c
    constructor
    · rintro ⟨y, hy, rfl⟩
      rcases hy with hy | hy
      · exact .inl (congrArg h.cls (Subtype.ext hy))
      · exact .inr ⟨y, hy, rfl⟩
    · rintro (rfl | ⟨y, hy, rfl⟩)
      · exact ⟨⟨x, hx⟩, .inl rfl, rfl⟩
      · exact ⟨y, .inr hy, rfl⟩
  have hswap : h.cls ⟨merge a x, h.closed ha hx⟩ = h.cls ⟨merge x a, h.closed hx ha⟩ :=
    h.cls_eq_iff.2 (h.comm ha hx)
  -- the class of `merge x a` is by definition the join of the two classes
  rw [himage, hswap]
  exact hlub.insert (h.cls ⟨x, hx⟩)

/-- **What is merged from a set does not depend on how.** -/
theorem IsJoin.unique (hS : h.IsJoin S a) (hS' : h.IsJoin S b) : same a b := by
  obtain ⟨ha, hlub⟩ := hS
  obtain ⟨hb, hlub'⟩ := hS'
  exact h.cls_eq_iff.1 (hlub.unique hlub')

/-- What merging the elements of `S` comes to: nothing if there are none. -/
def Gathers (h : Lawful D same merge) (S : Set α) : Option α → Prop
  | none => S = ∅
  | some a => S.Nonempty ∧ h.IsJoin S a

theorem Gathers.first (hS : h.Gathers S none) (hx : x ∈ D) : h.Gathers (insert x S) (some x) := by
  rw [show S = ∅ from hS]
  refine ⟨Set.insert_nonempty x ∅, ?_⟩
  rw [insert_empty_eq]
  exact isJoin_singleton hx

theorem Gathers.next (hS : h.Gathers S (some a)) (hx : x ∈ D) (hb : b ∈ D)
    (hsame : same b (merge a x)) : h.Gathers (insert x S) (some b) :=
  ⟨Set.insert_nonempty x S, (hS.2.add hx).of_same hb hsame⟩

theorem Gathers.unique {o o' : Option α} (hS : h.Gathers S o) (hS' : h.Gathers S o') :
    Option.Rel same o o' := by
  cases o with
  | none =>
    cases o' with
    | none => exact .none
    | some b => exact absurd hS (Set.nonempty_iff_ne_empty.1 hS'.1)
  | some a =>
    cases o' with
    | none => exact absurd hS' (Set.nonempty_iff_ne_empty.1 hS.1)
    | some b => exact .some (hS.2.unique hS'.2)

/-! ## The order of a merge -/

/-- `a` is merged into `b` already. -/
def Under (h : Lawful D same merge) (a b : α) : Prop :=
  ∃ (ha : a ∈ D) (hb : b ∈ D), h.cls ⟨a, ha⟩ ≤ h.cls ⟨b, hb⟩

theorem under_iff (h : Lawful D same merge) (ha : a ∈ D) (hb : b ∈ D) :
    h.Under a b ↔ same (merge a b) b :=
  ⟨fun ⟨_, _, hle⟩ => h.cls_eq_iff.1 (sup_eq_right.2 hle),
    fun hsame => ⟨ha, hb, sup_eq_right.1 (h.cls_eq_iff.2 hsame)⟩⟩

theorem under_refl (h : Lawful D same merge) (ha : a ∈ D) : h.Under a a := ⟨ha, ha, le_rfl⟩

theorem Under.trans (hab : h.Under a b) (hbx : h.Under b x) : h.Under a x := by
  obtain ⟨ha, _, hle⟩ := hab
  obtain ⟨_, hx, hle'⟩ := hbx
  exact ⟨ha, hx, hle.trans hle'⟩

theorem under_of_same (h : Lawful D same merge) (ha : a ∈ D) (hb : b ∈ D) (hsame : same a b) :
    h.Under a b :=
  ⟨ha, hb, (h.cls_eq_iff.2 (show same (⟨a, ha⟩ : D).1 (⟨b, hb⟩ : D).1 from hsame)).le⟩

theorem under_merge_left (h : Lawful D same merge) (ha : a ∈ D) (hb : b ∈ D) :
    h.Under a (merge a b) :=
  ⟨ha, h.closed ha hb, le_sup_left (a := h.cls ⟨a, ha⟩) (b := h.cls ⟨b, hb⟩)⟩

theorem under_merge_right (h : Lawful D same merge) (ha : a ∈ D) (hb : b ∈ D) :
    h.Under b (merge a b) :=
  ⟨hb, h.closed ha hb, le_sup_right (a := h.cls ⟨a, ha⟩) (b := h.cls ⟨b, hb⟩)⟩

theorem merge_under (hax : h.Under a x) (hbx : h.Under b x) : h.Under (merge a b) x := by
  obtain ⟨ha, hx, hle⟩ := hax
  obtain ⟨hb, _, hle'⟩ := hbx
  exact ⟨h.closed ha hb, hx, sup_le hle hle'⟩

/-- `a` is under everything that the elements of `S` are under: merged from some of them, but
perhaps not from all. -/
structure Within (h : Lawful D same merge) (S : Set α) (a : α) : Prop where
  nonempty : S.Nonempty
  mem : a ∈ D
  least : ∀ u ∈ D, (∀ x ∈ S, h.Under x u) → h.Under a u

theorem within_of_mem (h : Lawful D same merge) (ha : a ∈ D) (hS : a ∈ S) : h.Within S a :=
  ⟨⟨a, hS⟩, ha, fun _ _ hu => hu a hS⟩

theorem Within.mono {T : Set α} (hS : h.Within S a) (hST : S ⊆ T) : h.Within T a :=
  ⟨hS.nonempty.mono hST, hS.mem, fun u huD hu => hS.least u huD fun x hx => hu x (hST hx)⟩

theorem Within.merge_same (ha : h.Within S a) (hb : h.Within S b) (hx : x ∈ D)
    (hsame : same x (merge a b)) : h.Within S x := by
  refine ⟨ha.nonempty, hx, ?_⟩
  intro u huD hu
  exact (h.under_of_same hx (h.closed ha.mem hb.mem) hsame).trans
    (merge_under (ha.least u huD hu) (hb.least u huD hu))

end Lawful

/-! ## Folds -/

namespace Lawful

variable {D : Set α} {same : α → α → Prop} {merge : α → α → α} {h : Lawful D same merge}

end Lawful

end JoinUpTo
