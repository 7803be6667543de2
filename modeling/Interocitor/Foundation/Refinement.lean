import Mathlib.Data.List.Basic

/-!
# Machines that answer, and machines that answer the same

A component takes requests one after the other; each changes its state and is answered.  What it is
for is often said by another machine, which has a simpler state and answers in simpler terms.  The
component is right if a relation between the states is kept by every request, and the answers then
agree: `Simulates`.  What a request must satisfy for this, `ok`, is asked of each by itself.

* `Simulates.answers_eq`: the answers of a whole run agree.
-/

namespace AnsweringMachines

variable {σ σ' ι ι' ο ο' : Type*}

/-- The answers to a list of requests. -/
def answers (step : σ → ι → σ × ο) : σ → List ι → List ο
  | _, [] => []
  | s, i :: is => (step s i).2 :: answers step (step s i).1 is

/-- One request that satisfies `ok` keeps the relation, and is answered alike. -/
def Simulates (step : σ → ι → σ × ο) (step' : σ' → ι' → σ' × ο') (R : σ → σ' → Prop)
    (request : ι → ι') (answer : ο → ο') (ok : ι → Prop) : Prop :=
  ∀ s s' i, ok i → R s s' → R (step s i).1 (step' s' (request i)).1 ∧
    answer (step s i).2 = (step' s' (request i)).2

variable {step : σ → ι → σ × ο} {step' : σ' → ι' → σ' × ο'} {R : σ → σ' → Prop} {request : ι → ι'}
  {answer : ο → ο'} {ok : ι → Prop}

/-- **Whole runs are answered alike.** -/
theorem Simulates.answers_eq (h : Simulates step step' R request answer ok) {s : σ} {s' : σ'}
    (hs : R s s') {is : List ι} (hok : ∀ i ∈ is, ok i) :
    (answers step s is).map answer = answers step' s' (is.map request) := by
  induction is generalizing s s' with
  | nil => rfl
  | cons i is ih =>
    obtain ⟨hkeep, hanswer⟩ := h s s' i (hok i List.mem_cons_self) hs
    rw [answers, List.map_cons, List.map_cons, answers, hanswer,
      ih hkeep fun j hj => hok j (List.mem_cons_of_mem _ hj)]

end AnsweringMachines
