import Mathlib.Data.Char
import Mathlib.Data.List.Lex
import Mathlib.Order.Lattice

/-!
# The order of texts and the order of their bytes

A database that stores texts in UTF-8 and compares them byte by byte orders them as their characters
are ordered.  More generally this holds of every code in which the code words of two letters differ
at a position that both have, the first one where they differ in the order of the letters.

* `Branches`: two code words part at a position, the first one downwards.
* `flatMap_lt_iff`: coding letter by letter by such words keeps the order of texts.
* `utf8`, `utf8_lt_iff`: UTF-8 is such a code.
-/

namespace Utf8Order

open List

variable {α β : Type*} [LinearOrder α] [LinearOrder β]

/-- The lists part at a position, where the first one has the smaller letter. -/
def Branches (u v : List β) : Prop := ∃ p x y s t, u = p ++ x :: s ∧ v = p ++ y :: t ∧ x < y

theorem Branches.append_lt {u v : List β} (h : Branches u v) (w w' : List β) :
    u ++ w < v ++ w' := by
  obtain ⟨p, x, y, s, t, rfl, rfl, hxy⟩ := h
  rw [append_assoc, append_assoc]
  refine append_left_lt ?_
  rw [cons_append, cons_append]
  exact cons_lt_cons_iff.mpr (.inl hxy)

theorem branches_cons {x y : β} (h : x < y) (s t : List β) : Branches (x :: s) (y :: t) :=
  ⟨[], x, y, s, t, rfl, rfl, h⟩

theorem Branches.cons {u v : List β} (h : Branches u v) (a : β) : Branches (a :: u) (a :: v) := by
  obtain ⟨p, x, y, s, t, rfl, rfl, hxy⟩ := h
  exact ⟨a :: p, x, y, s, t, rfl, rfl, hxy⟩

/-- Code words that agree in their first letter or part there downwards, and agree or part
afterwards. -/
theorem branches_of_le {x y : β} {s t : List β} (h : x < y ∨ (x = y ∧ Branches s t)) :
    Branches (x :: s) (y :: t) := by
  rcases h with h | ⟨rfl, h⟩
  · exact branches_cons h s t
  · exact h.cons x

section FlatMap

variable {f : α → List β} (hne : ∀ a, f a ≠ []) (hf : ∀ a b, a < b → Branches (f a) (f b))
include hne hf

theorem flatMap_lt_of_lt {s t : List α} (h : s < t) : s.flatMap f < t.flatMap f := by
  induction s generalizing t with
  | nil =>
    cases t with
    | nil => exact absurd h (lt_irrefl _)
    | cons b t =>
      rw [flatMap_nil, flatMap_cons]
      obtain ⟨x, u, hu⟩ := exists_cons_of_ne_nil (hne b)
      rw [hu, cons_append]
      exact nil_lt_cons x _
  | cons a s ih =>
    cases t with
    | nil => exact absurd h (not_lt_nil _)
    | cons b t =>
      rw [flatMap_cons, flatMap_cons]
      rcases cons_lt_cons_iff.mp h with hab | ⟨rfl, hst⟩
      · exact (hf a b hab).append_lt _ _
      · exact append_left_lt (ih hst)

/-- **Order of coded texts.** -/
theorem flatMap_lt_iff (s t : List α) : s.flatMap f < t.flatMap f ↔ s < t := by
  have hmono : StrictMono fun l : List α => l.flatMap f := fun _ _ h => flatMap_lt_of_lt hne hf h
  exact hmono.lt_iff_lt

end FlatMap

/-! ## UTF-8 -/

/-- The bytes of a character. -/
def bytes (c : Char) : List ℕ := (String.utf8EncodeChar c).map UInt8.toNat

/-- The bytes of a text. -/
def utf8 (s : List Char) : List ℕ := s.flatMap bytes

theorem bytes_ne_nil (c : Char) : bytes c ≠ [] :=
  fun h => String.utf8EncodeChar_ne_nil (map_eq_nil_iff.mp h)

/-- The bytes of a code point by arithmetic. -/
def digits (n : ℕ) : List ℕ :=
  if n ≤ 0x7f then [n]
  else if n ≤ 0x7ff then [n / 64 + 0xc0, n % 64 + 0x80]
  else if n ≤ 0xffff then [n / 4096 + 0xe0, n / 64 % 64 + 0x80, n % 64 + 0x80]
  else [n / 262144 + 0xf0, n / 4096 % 64 + 0x80, n / 64 % 64 + 0x80, n % 64 + 0x80]

theorem bytes_eq (c : Char) : bytes c = digits c.toNat := by
  have hval : c.val.toNat = c.toNat := rfl
  have hlt : c.toNat < 0x110000 := by
    rcases c.valid with h | h
    · exact lt_trans h (by decide)
    · exact h.2
  simp only [bytes, String.utf8EncodeChar, hval]
  generalize c.toNat = n at hlt
  rw [digits]
  split_ifs
  all_goals
    simp only [map_cons, map_nil, UInt8.toNat_ofNat', List.cons.injEq, and_true]
    omega

theorem branches_digits {m n : ℕ} (h : m < n) (hn : n < 0x110000) :
    Branches (digits m) (digits n) := by
  have hlast : ∀ {x y : ℕ}, x < y → Branches [x] [y] := fun hxy => branches_cons hxy [] []
  rw [digits, digits]
  split_ifs
  · exact hlast h
  · exact branches_cons (by omega) _ _
  · exact branches_cons (by omega) _ _
  · exact branches_cons (by omega) _ _
  · omega
  · refine branches_of_le ?_
    rcases Nat.lt_or_ge (m / 64) (n / 64) with h₁ | h₁
    · exact .inl (by omega)
    · exact .inr ⟨by omega, hlast (by omega)⟩
  · exact branches_cons (by omega) _ _
  · exact branches_cons (by omega) _ _
  · omega
  · omega
  · refine branches_of_le ?_
    rcases Nat.lt_or_ge (m / 4096) (n / 4096) with h₁ | h₁
    · exact .inl (by omega)
    · refine .inr ⟨by omega, branches_of_le ?_⟩
      rcases Nat.lt_or_ge (m / 64 % 64) (n / 64 % 64) with h₂ | h₂
      · exact .inl (by omega)
      · exact .inr ⟨by omega, hlast (by omega)⟩
  · exact branches_cons (by omega) _ _
  · omega
  · omega
  · omega
  · refine branches_of_le ?_
    rcases Nat.lt_or_ge (m / 262144) (n / 262144) with h₁ | h₁
    · exact .inl (by omega)
    · refine .inr ⟨by omega, branches_of_le ?_⟩
      rcases Nat.lt_or_ge (m / 4096 % 64) (n / 4096 % 64) with h₂ | h₂
      · exact .inl (by omega)
      · refine .inr ⟨by omega, branches_of_le ?_⟩
        rcases Nat.lt_or_ge (m / 64 % 64) (n / 64 % 64) with h₃ | h₃
        · exact .inl (by omega)
        · exact .inr ⟨by omega, hlast (by omega)⟩

theorem branches_bytes {c d : Char} (h : c < d) : Branches (bytes c) (bytes d) := by
  rw [bytes_eq, bytes_eq]
  refine branches_digits h ?_
  rcases d.valid with hd | hd
  · exact lt_trans hd (by decide)
  · exact hd.2

/-- **The order of texts is the order of their bytes.** -/
theorem utf8_lt_iff (s t : List Char) : utf8 s < utf8 t ↔ s < t :=
  flatMap_lt_iff bytes_ne_nil (fun _ _ => branches_bytes) s t

end Utf8Order
