import Mathlib.Algebra.Ring.Nat
import Mathlib.Data.List.Nodup

/-!
# Records in insertion order

A record is a finite map that remembers the order in which its keys were first
written: assigning to a key that is present keeps its place, assigning to a new
key appends it.  That is the behaviour of a plain object or of a `Map` in the
languages whose programs are modelled here, and it is the reason the map is a
list of pairs rather than a function or a quotient: enumerating a record is a
computable operation with a definite order.

The keys of a record are distinct, and the structure carries the proof, so that
`mem_entries_iff` --- a pair occurs in the enumeration exactly when the lookup
finds it --- needs no side condition.

* `get`, `set`, `erase`, `filter`: the operations.
* `get_set`, `get_erase`, `get_filter`: what a lookup finds afterwards.
* `mem_keys_iff`, `mem_entries_iff`: enumeration against lookup.
* `updateAll`: updates at distinct keys, with `updateAll_ok` and `updateAll_error` for what they
  come to in any order.
* `sum`: a sum over the values.
* `setAll`: assignments to the keys of a list; of several to one key the last counts,
  `mem_values_setAll`.
* `mapValues`: the same keys with other values.
-/

namespace OrderedRecord

open List Option

variable {κ V : Type*}

/-! ## Association lists -/

section Assoc

variable [DecidableEq κ]

/-- The value of the first pair with key `k`. -/
def find (k : κ) : List (κ × V) → Option V
  | [] => none
  | p :: l => if p.1 = k then some p.2 else find k l

/-- Overwrite the value of `k` in place, or append the pair. -/
def put (k : κ) (v : V) : List (κ × V) → List (κ × V)
  | [] => [(k, v)]
  | p :: l => if p.1 = k then (k, v) :: l else p :: put k v l

theorem find_put (k j : κ) (v : V) (l : List (κ × V)) :
    find j (put k v l) = if k = j then some v else find j l := by
  induction l with
  | nil => rfl
  | cons p l ih =>
    by_cases hp : p.1 = k
    · rw [put, if_pos hp, find, find, hp]
      split_ifs <;> rfl
    · rw [put, if_neg hp, find, find, ih]
      by_cases hj : p.1 = j
      · rw [if_pos hj, if_pos hj, if_neg fun h => hp (hj.trans h.symm)]
      · rw [if_neg hj, if_neg hj]

variable {l : List (κ × V)}

theorem mem_map_fst_put {k j : κ} {v : V} :
    j ∈ (put k v l).map Prod.fst ↔ j = k ∨ j ∈ l.map Prod.fst := by
  induction l with
  | nil => simp [put]
  | cons p l ih =>
    by_cases hp : p.1 = k
    · rw [put, if_pos hp, map_cons, map_cons, mem_cons, mem_cons, hp]
      tauto
    · rw [put, if_neg hp, map_cons, map_cons, mem_cons, mem_cons, ih]
      tauto

theorem nodup_put (k : κ) (v : V) (h : (l.map Prod.fst).Nodup) :
    ((put k v l).map Prod.fst).Nodup := by
  induction l with
  | nil => simp [put]
  | cons p l ih =>
    rw [map_cons, nodup_cons] at h
    by_cases hp : p.1 = k
    · rw [put, if_pos hp, map_cons, nodup_cons, ← hp]
      exact h
    · rw [put, if_neg hp, map_cons, nodup_cons, mem_map_fst_put]
      refine ⟨?_, ih h.2⟩
      rintro (hk | hmem)
      · exact hp hk
      · exact h.1 hmem

variable {k : κ}

theorem put_of_notMem (h : k ∉ l.map Prod.fst) (v : V) : put k v l = l ++ [(k, v)] := by
  induction l with
  | nil => rfl
  | cons p l ih =>
    rw [map_cons, mem_cons, not_or] at h
    rw [put, if_neg fun hp => h.1 hp.symm, ih h.2, cons_append]

theorem find_eq_none_iff : find k l = none ↔ k ∉ l.map Prod.fst := by
  induction l with
  | nil => simp [find]
  | cons p l ih =>
    by_cases hp : p.1 = k
    · simp [find, hp]
    · simp only [find, if_neg hp, ih, map_cons, mem_cons, not_or]
      exact ⟨fun h => ⟨fun hk => hp hk.symm, h⟩, fun h => h.2⟩

theorem mem_of_find {v : V} (h : find k l = some v) : (k, v) ∈ l := by
  induction l with
  | nil => simp [find] at h
  | cons p l ih =>
    by_cases hp : p.1 = k
    · rw [find, if_pos hp] at h
      have hv : p.2 = v := some.inj h
      rw [← hp, ← hv]
      exact mem_cons_self
    · rw [find, if_neg hp] at h
      exact mem_cons_of_mem _ (ih h)

theorem find_of_mem {v : V} (hl : (l.map Prod.fst).Nodup) (h : (k, v) ∈ l) : find k l = some v := by
  induction l with
  | nil => simp at h
  | cons p l ih =>
    rw [map_cons, nodup_cons] at hl
    rcases mem_cons.mp h with rfl | h
    · rw [find, if_pos rfl]
    · have hne : p.1 ≠ k := by
        rintro rfl
        exact hl.1 (mem_map.mpr ⟨_, h, rfl⟩)
      rw [find, if_neg hne, ih hl.2 h]

theorem find_filter {p : κ × V → Bool} (hl : (l.map Prod.fst).Nodup) :
    find k (l.filter p) = (find k l).filter fun v => p (k, v) := by
  induction l with
  | nil => rfl
  | cons q l ih =>
    rw [map_cons, nodup_cons] at hl
    by_cases hq : q.1 = k
    · have hnone : find k l = none := by
        rw [find_eq_none_iff, ← hq]
        exact hl.1
      have hqe : q = (k, q.2) := by rw [← hq]
      rw [find, if_pos hq, filter_cons]
      by_cases hp : p q = true
      · rw [if_pos hp, find, if_pos hq, Option.filter, ← hqe, if_pos hp]
      · rw [if_neg hp, ih hl.2, hnone, filter_some, ← hqe, if_neg hp]
        rfl
    · rw [find, if_neg hq, filter_cons]
      by_cases hp : p q = true
      · rw [if_pos hp, find, if_neg hq, ih hl.2]
      · rw [if_neg hp, ih hl.2]

theorem find_append (k : κ) (l m : List (κ × V)) : find k (l ++ m) = (find k l).or (find k m) := by
  induction l with
  | nil => rfl
  | cons p l ih =>
    rw [cons_append, find, find, ih]
    split_ifs
    · rw [some_or]
    · rfl

theorem find_perm {m : List (κ × V)} (hl : (l.map Prod.fst).Nodup) (h : l.Perm m) (k : κ) :
    find k l = find k m := by
  have hm : (m.map Prod.fst).Nodup := (h.map Prod.fst).nodup_iff.mp hl
  rcases hk : find k m with _ | v
  · rw [find_eq_none_iff] at hk ⊢
    rwa [(h.map Prod.fst).mem_iff]
  · exact find_of_mem hl (h.mem_iff.mpr (mem_of_find hk))

/-! ### Updates that do not meet

A list of updates with distinct keys, each of which decides from the value at its key what to
write there: whether all of them go through, and what a lookup finds afterwards, does not depend
on their order. -/

section Updates

variable {ε : Type*} (pick : κ → Option V → V → Except ε (Option V))

/-- Make the updates one after the other; the first that fails ends it. -/
def updateAll : List (κ × V) → List (κ × V) → Except ε (List (κ × V))
  | [], l => .ok l
  | (k, v) :: rest, l =>
    match pick k (find k l) v with
    | .error e => .error e
    | .ok none => updateAll rest l
    | .ok (some w) => updateAll rest (put k w l)

/-- What a lookup finds once all the updates have gone through. -/
def updated (updates l : List (κ × V)) (k : κ) : Option V :=
  match find k updates with
  | none => find k l
  | some v =>
    match pick k (find k l) v with
    | .ok (some w) => some w
    | _ => find k l

variable {pick}

theorem updateAll_ok {updates : List (κ × V)} (hnodup : (updates.map Prod.fst).Nodup)
    (hok : ∀ p ∈ updates, ∃ o, pick p.1 (find p.1 l) p.2 = .ok o) :
    ∃ l', updateAll pick updates l = .ok l' ∧ (∀ k, find k l' = updated pick updates l k) ∧
      ((l.map Prod.fst).Nodup → (l'.map Prod.fst).Nodup) := by
  induction updates generalizing l with
  | nil => exact ⟨l, rfl, fun k => rfl, id⟩
  | cons p updates ih =>
    obtain ⟨k, v⟩ := p
    rw [map_cons, nodup_cons] at hnodup
    have hnone : find k updates = none := find_eq_none_iff.mpr hnodup.1
    obtain ⟨o, ho⟩ : ∃ o, pick k (find k l) v = .ok o := hok _ mem_cons_self
    have hrest := fun p hp => hok p (mem_cons_of_mem (k, v) hp)
    cases o with
    | none =>
      obtain ⟨l', hl', hfind, hkeys⟩ := ih hnodup.2 hrest
      refine ⟨l', ?_, fun j => ?_, hkeys⟩
      · simp only [updateAll, ho, hl']
      · rw [hfind j, updated, updated, find]
        by_cases hj : k = j
        · subst hj
          simp only [hnone, if_true, ho]
        · rw [if_neg hj]
    | some w =>
      have hput : ∀ j, k ≠ j → find j (put k w l) = find j l := fun j hj => by
        rw [find_put, if_neg hj]
      have hother : ∀ p ∈ updates, k ≠ p.1 := fun p hp he =>
        hnodup.1 (mem_map.mpr ⟨p, hp, he.symm⟩)
      obtain ⟨l', hl', hfind, hkeys⟩ := ih hnodup.2 (l := put k w l) fun p hp => by
        rw [hput p.1 (hother p hp)]
        exact hrest p hp
      refine ⟨l', ?_, fun j => ?_, fun h => hkeys (nodup_put k w h)⟩
      · simp only [updateAll, ho, hl']
      · rw [hfind j, updated, updated, find]
        by_cases hj : k = j
        · subst hj
          simp only [hnone, if_true, ho, find_put]
        · rw [if_neg hj, hput j hj]

theorem updateAll_error {updates : List (κ × V)} (hnodup : (updates.map Prod.fst).Nodup) {p : κ × V}
    (hp : p ∈ updates) {e : ε} (he : pick p.1 (find p.1 l) p.2 = .error e) :
    ∃ e', updateAll pick updates l = .error e' := by
  induction updates generalizing l with
  | nil => exact absurd hp not_mem_nil
  | cons q updates ih =>
    obtain ⟨k, v⟩ := q
    rw [map_cons, nodup_cons] at hnodup
    rw [updateAll]
    rcases hq : pick k (find k l) v with e' | o
    · exact ⟨e', rfl⟩
    · rcases mem_cons.mp hp with rfl | hp
      · rw [hq] at he
        exact absurd he (by simp)
      · have hne : k ≠ p.1 := fun h => hnodup.1 (mem_map.mpr ⟨p, hp, h.symm⟩)
        cases o with
        | none => exact ih hnodup.2 hp he
        | some w =>
          refine ih hnodup.2 hp ?_
          rw [find_put, if_neg hne]
          exact he

end Updates

end Assoc

/-! ## Records -/

/-- A finite map with distinct keys, in the order of first insertion. -/
structure Record (κ V : Type*) where
  entries : List (κ × V)
  nodup : (entries.map Prod.fst).Nodup

namespace Record

variable {r : Record κ V} {k j : κ} {v : V}

instance [DecidableEq κ] [DecidableEq V] : DecidableEq (Record κ V) := fun r s =>
  decidable_of_iff (r.entries = s.entries) (by cases r; cases s; simp)

/-- The record without keys. -/
def empty : Record κ V := ⟨[], nodup_nil⟩

instance : EmptyCollection (Record κ V) := ⟨empty⟩

/-- The keys, in insertion order. -/
def keys (r : Record κ V) : List κ := r.entries.map Prod.fst

/-- The values, in insertion order. -/
def values (r : Record κ V) : List V := r.entries.map Prod.snd

/-- Keep the pairs that satisfy a test. -/
def filter (p : κ → V → Bool) (r : Record κ V) : Record κ V :=
  ⟨r.entries.filter fun e => p e.1 e.2,
    r.nodup.sublist (filter_sublist.map Prod.fst)⟩

variable [DecidableEq κ]

/-- The value at a key. -/
def get (r : Record κ V) (k : κ) : Option V := find k r.entries

/-- Assign to a key. -/
def set (r : Record κ V) (k : κ) (v : V) : Record κ V :=
  ⟨put k v r.entries, nodup_put k v r.nodup⟩

/-- Remove a key. -/
def erase (r : Record κ V) (k : κ) : Record κ V := r.filter fun j _ => decide (j ≠ k)

@[simp] theorem get_empty (k : κ) : (∅ : Record κ V).get k = none := rfl

theorem get_set (r : Record κ V) (k j : κ) (v : V) :
    (r.set k v).get j = if k = j then some v else r.get j :=
  find_put k j v r.entries

@[simp] theorem get_set_self (r : Record κ V) (k : κ) (v : V) : (r.set k v).get k = some v := by
  rw [get_set, if_pos rfl]

theorem get_set_ne (r : Record κ V) (v : V) (h : k ≠ j) : (r.set k v).get j = r.get j := by
  rw [get_set, if_neg h]

theorem get_filter (p : κ → V → Bool) (r : Record κ V) (k : κ) :
    (r.filter p).get k = (r.get k).filter fun v => p k v :=
  find_filter (p := fun e => p e.1 e.2) r.nodup

theorem get_erase (r : Record κ V) (k j : κ) :
    (r.erase k).get j = if k = j then none else r.get j := by
  rw [erase, get_filter]
  by_cases h : k = j
  · subst h
    cases r.get k <;> simp
  · rw [if_neg h]
    cases r.get j with
    | none => rfl
    | some v => rw [filter_some, if_pos (by simpa using fun h' => h h'.symm)]

theorem mem_entries_iff : (k, v) ∈ r.entries ↔ r.get k = some v :=
  ⟨find_of_mem r.nodup, mem_of_find⟩

theorem mem_keys_iff : k ∈ r.keys ↔ ∃ v, r.get k = some v := by
  constructor
  · intro h
    obtain ⟨p, hp, rfl⟩ := mem_map.mp h
    exact ⟨p.2, mem_entries_iff.mp hp⟩
  · rintro ⟨v, h⟩
    exact mem_map.mpr ⟨(k, v), mem_entries_iff.mpr h, rfl⟩

theorem mem_values_iff : v ∈ r.values ↔ ∃ k, r.get k = some v := by
  constructor
  · intro h
    obtain ⟨p, hp, rfl⟩ := mem_map.mp h
    exact ⟨p.1, mem_entries_iff.mp hp⟩
  · rintro ⟨k, h⟩
    exact mem_map.mpr ⟨(k, v), mem_entries_iff.mpr h, rfl⟩

theorem entries_eq_nil_iff : r.entries = [] ↔ ∀ k, r.get k = none := by
  constructor
  · intro h k
    rw [get, h]
    rfl
  · intro h
    rw [eq_nil_iff_forall_not_mem]
    rintro ⟨k, v⟩ hkv
    rw [mem_entries_iff, h k] at hkv
    exact absurd hkv (by simp)

/-! ### Sums over the values -/

section Sum

variable (f : V → ℕ)

/-- The sum of a number that every value of an association list has. -/
def total : List (κ × V) → ℕ
  | [] => 0
  | p :: l => f p.2 + total l

/-- The same for a record. -/
def sum (r : Record κ V) : ℕ := total f r.entries

theorem total_put (k : κ) (v : V) (l : List (κ × V)) :
    total f (put k v l) + ((find k l).map f).getD 0 = total f l + f v := by
  induction l with
  | nil => simp [put, find, total]
  | cons p l ih =>
    by_cases hp : p.1 = k
    · simp only [put, find, if_pos hp, total, map_some, getD_some]
      omega
    · simp only [put, find, if_neg hp, total]
      omega

theorem sum_set (r : Record κ V) (k : κ) (v : V) :
    (r.set k v).sum f + ((r.get k).map f).getD 0 = r.sum f + f v := total_put f k v r.entries

omit [DecidableEq κ] in
theorem total_filter_le (p : κ × V → Bool) (l : List (κ × V)) :
    total f (l.filter p) ≤ total f l := by
  induction l with
  | nil => exact Nat.le_refl _
  | cons q l ih =>
    rw [filter_cons]
    split_ifs
    · rw [total, total]
      omega
    · rw [total]
      omega

theorem sum_erase_le (r : Record κ V) (k : κ) : (r.erase k).sum f ≤ r.sum f :=
  total_filter_le f _ r.entries

end Sum

/-! ### Weights -/

section Weight

variable (w : κ × V → ℕ)

omit [DecidableEq κ]

/-- The sum of a number that every pair of a record has. -/
def weight (r : Record κ V) : ℕ := (r.entries.map w).sum

omit [DecidableEq κ] in
theorem weight_put [DecidableEq κ] (k : κ) (v : V) (l : List (κ × V)) :
    ((put k v l).map w).sum + ((find k l).map fun v => w (k, v)).getD 0 =
      (l.map w).sum + w (k, v) := by
  induction l with
  | nil => simp [put, find]
  | cons p l ih =>
    by_cases hp : p.1 = k
    · have hpair : p = (k, p.2) := Prod.ext hp rfl
      rw [put, find, if_pos hp, if_pos hp, map_cons, map_cons, sum_cons,
        sum_cons, map_some, getD_some, ← hpair]
      omega
    · simp only [put, find, if_neg hp, map_cons, sum_cons]
      omega

theorem weight_set [DecidableEq κ] (r : Record κ V) (k : κ) (v : V) :
    (r.set k v).weight w + ((r.get k).map fun v => w (k, v)).getD 0 = r.weight w + w (k, v) :=
  weight_put w k v r.entries

theorem weight_filter (p : κ → V → Bool) (r : Record κ V) :
    (r.filter p).weight w + ((r.entries.filter fun e => !p e.1 e.2).map w).sum = r.weight w := by
  change ((r.entries.filter fun e => p e.1 e.2).map w).sum + _ = (r.entries.map w).sum
  induction r.entries with
  | nil => rfl
  | cons e l ih =>
    rw [filter_cons, filter_cons, map_cons, sum_cons]
    cases hp : p e.1 e.2
    · rw [if_neg Bool.false_ne_true, Bool.not_false, if_pos rfl, map_cons, sum_cons]
      omega
    · rw [if_pos rfl, Bool.not_true, if_neg Bool.false_ne_true, map_cons, sum_cons]
      omega

end Weight

/-! ### Assigning to several keys -/

/-- Assign the values of a list, in its order. -/
def setAll (r : Record κ V) (l : List (κ × V)) : Record κ V := l.foldl (fun r p => r.set p.1 p.2) r

variable {l : List (κ × V)}

theorem entries_setAll (h : ((r.entries ++ l).map Prod.fst).Nodup) :
    (r.setAll l).entries = r.entries ++ l := by
  induction l generalizing r with
  | nil => exact (append_nil _).symm
  | cons p l ih =>
    have hnew : p.1 ∉ r.entries.map Prod.fst := by
      rw [map_append, map_cons, nodup_append] at h
      exact fun hmem => h.2.2 p.1 hmem p.1 mem_cons_self rfl
    have hset : (r.set p.1 p.2).entries = r.entries ++ [p] := put_of_notMem hnew p.2
    have happend : (r.set p.1 p.2).entries ++ l = r.entries ++ p :: l := by
      rw [hset, append_assoc, singleton_append]
    rw [setAll, foldl_cons, ← setAll, ih (happend ▸ h), happend]

theorem setAll_empty : (∅ : Record κ V).setAll r.entries = r := by
  have hentries : ((∅ : Record κ V).setAll r.entries).entries = r.entries :=
    entries_setAll (r := ∅) r.nodup
  cases r
  cases hr : (∅ : Record κ V).setAll _
  rw [hr] at hentries
  simpa using hentries

/-- The value of the last pair with key `k`. -/
def lastAt (k : κ) (l : List (κ × V)) : Option V := find k l.reverse

theorem get_setAll_lastAt (r : Record κ V) (l : List (κ × V)) (k : κ) :
    (r.setAll l).get k = (lastAt k l).or (r.get k) := by
  induction l generalizing r with
  | nil => rfl
  | cons p l ih =>
    rw [setAll, foldl_cons, ← setAll, ih, get_set, lastAt, lastAt, reverse_cons,
      find_append, Option.or_assoc, find, find]
    split_ifs <;> rfl

theorem mem_values_setAll : v ∈ ((∅ : Record κ V).setAll l).values ↔ ∃ k, lastAt k l = some v := by
  rw [mem_values_iff]
  refine exists_congr fun k => ?_
  rw [get_setAll_lastAt, get_empty, or_none]

/-! ### Changing the values -/

section Map

variable {W : Type*} (f : V → W)

/-- The record with every value changed, in the same order. -/
def mapValues (r : Record κ V) : Record κ W :=
  ⟨r.entries.map fun e => (e.1, f e.2), by rw [List.map_map]; exact r.nodup⟩

theorem find_map (k : κ) (l : List (κ × V)) :
    find k (l.map fun e => (e.1, f e.2)) = (find k l).map f := by
  induction l with
  | nil => rfl
  | cons p l ih =>
    rw [map_cons, find, find, ih]
    split_ifs <;> rfl

theorem put_map (k : κ) (v : V) (l : List (κ × V)) :
    put k (f v) (l.map fun e => (e.1, f e.2)) = (put k v l).map fun e => (e.1, f e.2) := by
  induction l with
  | nil => rfl
  | cons p l ih =>
    rw [map_cons, put, put, ih]
    split_ifs <;> rfl

omit [DecidableEq κ] in
@[simp] theorem mapValues_empty : (∅ : Record κ V).mapValues f = ∅ := rfl

theorem get_mapValues (r : Record κ V) (k : κ) : (r.mapValues f).get k = (r.get k).map f :=
  find_map f k r.entries

theorem mapValues_set (r : Record κ V) (k : κ) (v : V) :
    (r.set k v).mapValues f = (r.mapValues f).set k (f v) := by
  simp only [mapValues, set, put_map]

omit [DecidableEq κ] in
theorem mapValues_left_inv {g : W → V} (h : ∀ v, g (f v) = v) (r : Record κ V) :
    (r.mapValues f).mapValues g = r := by
  obtain ⟨entries, hnodup⟩ := r
  simp only [mapValues, List.map_map, mk.injEq]
  exact map_id'' (fun e : κ × V => congrArg (Prod.mk e.1) (h e.2)) entries

end Map

end Record

end OrderedRecord
