import Mathlib.Data.List.Infix

/-!
# One pass over a text

A global search for a pattern goes over a text once, from the left.  Where the pattern matches,
the match is taken out and the search goes on behind it; elsewhere one unit is passed over.
What the pattern is does not matter for this: a *matcher* says of a text whether the pattern
matches at its front, with which value, and how many units it takes.

To know what a pass finds in a text that was put together from parts, one has to know of each
part whether it is a match as a whole, or has none that begins in it.  Both are asked with
anything behind the part, since a pattern may look ahead.

* `scan`: the units passed over and the values found, in order; `found` and `replaceAll` read
  the values off, or put texts in their place.
* `Taken`, `Silent`: a part is a match, or none begins in it.  `Silent.append`, `silent_cons`
  and `silent_of_notMem` put silence together.
* `found_flatMap`, `replaceAll_flatMap`: a pass over a text of such parts.
-/

namespace Scanning

open List

variable {α β P : Type*} {m : List α → Option (β × ℕ)}

/-- A pass with some units still to be skipped. -/
def pass (m : List α → Option (β × ℕ)) : ℕ → List α → List (α ⊕ β)
  | _, [] => []
  | skip + 1, _ :: t => pass m skip t
  | 0, u :: t =>
    match m (u :: t) with
    | some (b, n) => .inr b :: pass m (n - 1) t
    | none => .inl u :: pass m 0 t

/-- What a pass finds: units, and values of the matcher. -/
def scan (m : List α → Option (β × ℕ)) (t : List α) : List (α ⊕ β) := pass m 0 t

/-- The values, in order. -/
def found (m : List α → Option (β × ℕ)) (t : List α) : List β :=
  (scan m t).filterMap Sum.getRight?

/-- Put something in the place of each match. -/
def replaceAll (m : List α → Option (β × ℕ)) (f : β → List α) (t : List α) : List α :=
  (scan m t).flatMap (Sum.elim (fun u => [u]) f)

/-- A part is a match as a whole, whatever follows. -/
structure Taken (m : List α → Option (β × ℕ)) (p : List α) (b : β) : Prop where
  ne_nil : p ≠ []
  eq : ∀ rest, m (p ++ rest) = some (b, p.length)

/-- No match begins in a part, whatever follows. -/
def Silent (m : List α → Option (β × ℕ)) (p : List α) : Prop :=
  ∀ s, s ≠ [] → s <:+ p → ∀ rest, m (s ++ rest) = none

theorem pass_length (p t : List α) : pass m p.length (p ++ t) = pass m 0 t := by
  induction p with
  | nil => rfl
  | cons u p ih => exact ih

variable {p : List α}

theorem scan_taken {b : β} (h : Taken m p b) (t : List α) :
    scan m (p ++ t) = .inr b :: scan m t := by
  cases p with
  | nil => exact absurd rfl h.ne_nil
  | cons u p =>
    have heq := h.eq t
    rw [cons_append] at heq
    rw [scan, cons_append, pass, heq]
    exact congrArg _ (pass_length p t)

theorem scan_silent (h : Silent m p) (t : List α) : scan m (p ++ t) = p.map .inl ++ scan m t := by
  induction p with
  | nil => rfl
  | cons u p ih =>
    have heq := h (u :: p) (by simp) suffix_rfl t
    have hp : Silent m p := fun s hs hsuffix => h s hs (hsuffix.trans (suffix_cons u p))
    rw [cons_append] at heq
    rw [scan, cons_append, pass, heq]
    exact congrArg _ (ih hp)

theorem silent_nil : Silent m [] := fun _ hs hsuffix => absurd (suffix_nil.mp hsuffix) hs

theorem silent_cons {u : α} (hu : ∀ rest, m (u :: p ++ rest) = none) (hp : Silent m p) :
    Silent m (u :: p) := by
  intro s hs hsuffix rest
  rcases suffix_cons_iff.mp hsuffix with rfl | hsuffix
  · exact hu rest
  · exact hp s hs hsuffix rest

theorem Silent.append {q : List α} (hp : Silent m p) (hq : Silent m q) : Silent m (p ++ q) := by
  induction p with
  | nil => exact hq
  | cons u p ih =>
    have htail : Silent m p := fun s hs hsuffix => hp s hs (hsuffix.trans (suffix_cons u p))
    refine silent_cons (fun rest => ?_) (ih htail)
    have heq := hp (u :: p) (by simp) suffix_rfl (q ++ rest)
    rwa [← append_assoc] at heq

theorem silent_of_notMem {c : α} (hm : ∀ u t, u ≠ c → m (u :: t) = none) (h : c ∉ p) :
    Silent m p := by
  induction p with
  | nil => exact silent_nil
  | cons u p ih =>
    obtain ⟨hu, hp⟩ := ne_and_not_mem_of_not_mem_cons h
    exact silent_cons (fun rest => hm u (p ++ rest) (Ne.symm hu)) (ih hp)

/-- What the matcher makes of a part is its value, if it has one. -/
def Shows (m : List α → Option (β × ℕ)) (render : P → List α) (value : P → Option β) (p : P) :
    Prop :=
  match value p with
  | some b => Taken m (render p) b
  | none => Silent m (render p)

variable {render : P → List α} {value : P → Option β} {ps : List P}

theorem scan_flatMap (h : ∀ p ∈ ps, Shows m render value p) :
    scan m (ps.flatMap render) =
      ps.flatMap fun p =>
        match value p with
        | some b => [.inr b]
        | none => (render p).map .inl := by
  induction ps with
  | nil => rfl
  | cons p ps ih =>
    have hp := h p mem_cons_self
    rw [Shows] at hp
    rw [flatMap_cons, flatMap_cons, ← ih fun q hq => h q (mem_cons_of_mem p hq)]
    cases hv : value p with
    | some b =>
      rw [hv] at hp
      exact scan_taken hp _
    | none =>
      rw [hv] at hp
      exact scan_silent hp _

/-- **What a search finds.**  The values of the parts that have one. -/
theorem found_flatMap (h : ∀ p ∈ ps, Shows m render value p) :
    found m (ps.flatMap render) = ps.filterMap value := by
  rw [found, scan_flatMap h, filterMap_flatMap]
  induction ps with
  | nil => rfl
  | cons p ps ih =>
    rw [flatMap_cons, ih fun q hq => h q (mem_cons_of_mem p hq), filterMap_cons]
    cases value p with
    | some b => rfl
    | none =>
      have hnil : ((render p).map (Sum.inl : α → α ⊕ β)).filterMap Sum.getRight? = [] := by
        rw [filterMap_map]
        exact filterMap_eq_nil_iff.mpr fun _ _ => rfl
      dsimp only
      rw [hnil, nil_append]

/-- **What a replacement makes.**  Parts with a value are replaced, the others stay. -/
theorem replaceAll_flatMap (f : β → List α) (h : ∀ p ∈ ps, Shows m render value p) :
    replaceAll m f (ps.flatMap render) = ps.flatMap fun p => (value p).elim (render p) f := by
  rw [replaceAll, scan_flatMap h, flatMap_assoc]
  refine flatMap_congr fun p _ => ?_
  cases value p with
  | some b => exact flatMap_singleton _ _
  | none =>
    dsimp only [Option.elim]
    rw [flatMap_map]
    exact flatMap_singleton' _

theorem replaceAll_silent (f : β → List α) (h : Silent m p) : replaceAll m f p = p := by
  have hscan := scan_silent h []
  rw [append_nil] at hscan
  rw [replaceAll, hscan, scan, pass, append_nil, flatMap_map]
  exact flatMap_singleton' p

end Scanning
