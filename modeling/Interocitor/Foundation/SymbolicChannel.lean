import Mathlib.Data.Sym.Sym2

/-!
# Agreed keys and sealed messages, symbolically

Two parties that have a key pair each and know the other's public key agree on a key that nobody
else can compute.  Under a key and a nonce a message is sealed together with additional data that
is not sent; who opens it has to bring the same key, the same nonce and the same data.  Both are
taken here as symbols: a key is the unordered pair of the parties, and a sealed message is the
record of what went into it.

An observer owns some of the key pairs and has seen some terms.  Nonces, additional data and what
is inside of a message are no secrets to it.  `Derives` is what it can make of all that.

* `Derives.sealed_seen`: it can pass a sealed message on as it is, and it can seal one itself if one
  of its own key pairs went into the key, and it has the public key of the other party.
-/

namespace SymbolicChannel

variable {P N A M : Type*}

/-- A sealed message: the key, the nonce, the additional data and what is inside. -/
structure Sealed (P N A M : Type*) where
  key : Sym2 P
  nonce : N
  additional : A
  plain : M
  deriving DecidableEq

/-- Open a sealed message. -/
def Sealed.opened [DecidableEq P] [DecidableEq N] [DecidableEq A] (c : Sealed P N A M)
    (key : Sym2 P) (nonce : N) (additional : A) : Option M :=
  if c.key = key ∧ c.nonce = nonce ∧ c.additional = additional then some c.plain else none

theorem Sealed.opened_eq_some [DecidableEq P] [DecidableEq N] [DecidableEq A]
    {c : Sealed P N A M} {key : Sym2 P} {nonce : N} {additional : A} {m : M} :
    c.opened key nonce additional = some m ↔
      c.key = key ∧ c.nonce = nonce ∧ c.additional = additional ∧ c.plain = m := by
  unfold Sealed.opened
  split_ifs with h
  · simp only [Option.some.injEq, h, true_and]
  · refine ⟨fun hm => absurd hm (by simp), fun hm => absurd ⟨hm.1, hm.2.1, hm.2.2.1⟩ h⟩

/-- What an observer may have. -/
inductive Term (P N A M : Type*) where
  | priv (p : P)
  | pub (p : P)
  | key (k : Sym2 P)
  | sealed (c : Sealed P N A M)

/-- What an observer that owns some key pairs derives from what it has seen. -/
inductive Derives (own : P → Prop) (seen : Term P N A M → Prop) : Term P N A M → Prop
  | seen {t : Term P N A M} (h : seen t) : Derives own seen t
  | owned {p : P} (h : own p) : Derives own seen (.priv p)
  | pub {p : P} (h : Derives own seen (.priv p)) : Derives own seen (.pub p)
  | agree {a b : P} (ha : Derives own seen (.priv a)) (hb : Derives own seen (.pub b)) :
      Derives own seen (.key s(a, b))
  | wrap {k : Sym2 P} (h : Derives own seen (.key k)) (nonce : N) (additional : A) (plain : M) :
      Derives own seen (.sealed ⟨k, nonce, additional, plain⟩)

/-- Public keys and sealed messages: what is sent in the open. -/
def Term.Open : Term P N A M → Prop
  | .priv _ => False
  | .pub _ => True
  | .key _ => False
  | .sealed _ => True

namespace Derives

variable {own : P → Prop} {seen : Term P N A M → Prop}

/-- What can be said of a derived term where only public keys and sealed messages were seen. -/
def Accounted (own : P → Prop) (seen : Term P N A M → Prop) : Term P N A M → Prop
  | .priv p => own p
  | .pub p => own p ∨ seen (.pub p)
  | .key k => ∃ a b, k = s(a, b) ∧ own a ∧ (own b ∨ seen (.pub b))
  | .sealed c => seen (.sealed c) ∨ ∃ a b, c.key = s(a, b) ∧ own a ∧ (own b ∨ seen (.pub b))

theorem accounted (hopen : ∀ t, seen t → t.Open) {t : Term P N A M} (h : Derives own seen t) :
    Accounted own seen t := by
  induction h with
  | @seen t hseen =>
    cases t with
    | priv p => exact absurd (hopen _ hseen) id
    | pub p => exact .inr hseen
    | key k => exact absurd (hopen _ hseen) id
    | sealed c => exact .inl hseen
  | owned h => exact h
  | pub h ih => exact .inl ih
  | @agree a b ha hb iha ihb => exact ⟨a, b, rfl, iha, ihb⟩
  | wrap h nonce additional plain ih => exact .inr ih

/-- **Nobody else can seal.**  A sealed message that was derived is one that was seen, or one of the
two parties of its key is the observer, and the public key of the other one is known to it. -/
theorem sealed_seen (hopen : ∀ t, seen t → t.Open) {c : Sealed P N A M}
    (h : Derives own seen (.sealed c)) :
    seen (.sealed c) ∨ ∃ a b, c.key = s(a, b) ∧ own a ∧ (own b ∨ seen (.pub b)) :=
  h.accounted hopen

end Derives

end SymbolicChannel
