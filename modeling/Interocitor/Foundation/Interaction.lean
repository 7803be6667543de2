import Mathlib.Logic.Relation

/-!
# Programs that talk to a shared world

A program keeps a state `σ` of its own and now and then asks the world something:
reads an object, writes one, looks at a clock.  Between two questions nothing else
can observe it; while it waits for an answer the world may change under it.  `Prog`
is such a program as a tree of questions, and `Proc` is the monad in which programs
are written: a state, an exception and questions.

Which answers are possible is not part of the program.  An `Env` says how the world
may change on its own while the program waits (`rely`), which answers a question may
get and what the world is afterwards (`answer`), and which changes the program owes
to everybody else (`guar`).  One program can then be studied under a world that only
answers truthfully, one that may fail any request, and one that answers anything.

* `Proc.wp`: the weakest precondition of a program, for a normal and an exceptional
  end, in every environment; the rules `wp_pure`, `wp_bind`, `wp_throw`,
  `wp_tryCatch`, `wp_ask`, `wp_get`, `wp_modify`, and `wp_mono` to use a proved
  specification.
* `Proc.forEach`, `wp_forEach` and `wp_forEach_prefix`: loops, by an invariant.
* `Proc.Keeps`: an invariant that holds again at every end, with one rule for each of
  the constructions, for the parts of a program that do not touch what is at stake.
* `Proc.Leads`: what a program makes of what is known before it, beside an invariant that
  also holds when it throws.
* `Prog.Run`: the finished runs of a program, and `wp_run`, which says that a weakest
  precondition holds of them.
* `Prog.exec`: running a program against a world that answers by a function, for
  evaluation; `run_exec` makes it a run, and `exists_run` finds a run with a property.
-/

namespace Interaction

/-- A program: a tree of questions, with the program's own state at each of them. -/
inductive Prog (Call : Type) (Reply : Call → Type) (σ ρ : Type) where
  | done (r : ρ) (s : σ)
  | ask (c : Call) (s : σ) (k : Reply c → Prog Call Reply σ ρ)

/-- Programs that end with a value of type `α` or throw an `ε`. -/
def Proc (Call : Type) (Reply : Call → Type) (σ ε α : Type) : Type :=
  σ → Prog Call Reply σ (Except ε α)

/-- How the world behaves towards a program, and what the program owes it. -/
structure Env (Call : Type) (Reply : Call → Type) (W : Type) where
  rely : W → W → Prop
  answer : W → (c : Call) → Reply c → W → Prop
  guar : W → W → Prop

variable {Call : Type} {Reply : Call → Type} {σ ε α β ρ W : Type}

/-- The world that answers by a function and does nothing on its own. -/
def Env.ofReply (reply : W → (c : Call) → Reply c × W) : Env Call Reply W :=
  ⟨Eq, fun w c rep w' => (rep, w') = reply w c, fun _ _ => True⟩

namespace Prog

/-- Continue a program with what follows its end. -/
def andThen {ρ' : Type} :
    Prog Call Reply σ ρ → (ρ → σ → Prog Call Reply σ ρ') → Prog Call Reply σ ρ'
  | done r s, f => f r s
  | ask c s k, f => ask c s fun rep => (k rep).andThen f

/-- Every run of the program keeps `guar` and ends with `Q`. -/
def wp (E : Env Call Reply W) : Prog Call Reply σ ρ → (ρ → σ → W → Prop) → W → Prop
  | done r s, Q, w => Q r s w
  | ask c _ k, Q, w => ∀ w₁, E.rely w w₁ → ∀ rep w₂, E.answer w₁ c rep w₂ →
      E.guar w₁ w₂ ∧ (k rep).wp E Q w₂

variable {E : Env Call Reply W} {p : Prog Call Reply σ ρ} {w : W}

theorem wp_mono {Q Q' : ρ → σ → W → Prop} (h : p.wp E Q w) (hQ : ∀ r s w, Q r s w → Q' r s w) :
    p.wp E Q' w := by
  induction p generalizing w with
  | done r s => exact hQ r s w h
  | ask c s k ih =>
    intro w₁ hr rep w₂ ha
    obtain ⟨hg, hk⟩ := h w₁ hr rep w₂ ha
    exact ⟨hg, ih rep hk⟩

variable {Q : ρ → σ → W → Prop}

theorem wp_env {E' : Env Call Reply W} (hr : ∀ w w₁, E'.rely w w₁ → E.rely w w₁)
    (ha : ∀ w c rep w', E'.answer w c rep w' → E.answer w c rep w')
    (hg : ∀ w w', E.guar w w' → E'.guar w w') (h : p.wp E Q w) : p.wp E' Q w := by
  induction p generalizing w with
  | done r s => exact h
  | ask c s k ih =>
    intro w₁ hrely rep w₂ hans
    obtain ⟨hguar, hk⟩ := h w₁ (hr _ _ hrely) rep w₂ (ha _ _ _ _ hans)
    exact ⟨hg _ _ hguar, ih rep hk⟩

theorem wp_andThen {ρ' : Type} {f : ρ → σ → Prog Call Reply σ ρ'} {Q : ρ' → σ → W → Prop} :
    (p.andThen f).wp E Q w ↔ p.wp E (fun r s w => (f r s).wp E Q w) w := by
  induction p generalizing w with
  | done r s => exact Iff.rfl
  | ask c s k ih =>
    constructor
    · intro h w₁ hr rep w₂ ha
      obtain ⟨hg, hk⟩ := h w₁ hr rep w₂ ha
      exact ⟨hg, (ih rep).mp hk⟩
    · intro h w₁ hr rep w₂ ha
      obtain ⟨hg, hk⟩ := h w₁ hr rep w₂ ha
      exact ⟨hg, (ih rep).mpr hk⟩

/-! ## Runs -/

/-- The finished runs of a program from a world. -/
inductive Run (E : Env Call Reply W) : Prog Call Reply σ ρ → W → ρ → σ → W → Prop
  | done (r : ρ) (s : σ) (w : W) : Run E (done r s) w r s w
  | ask {c : Call} {s s' : σ} {k : Reply c → Prog Call Reply σ ρ} {w w₁ w₂ w' : W}
      {rep : Reply c} {r : ρ} (hr : E.rely w w₁) (ha : E.answer w₁ c rep w₂)
      (h : Run E (k rep) w₂ r s' w') : Run E (ask c s k) w r s' w'

theorem wp_run {w' : W} {r : ρ} {s : σ} (h : p.wp E Q w) (hrun : Run E p w r s w') : Q r s w' := by
  induction hrun with
  | done r s w => exact h
  | ask hr ha _ ih => exact ih (h _ hr _ _ ha).2

/-- Run a program against a world that answers by a function. -/
def exec (reply : W → (c : Call) → Reply c × W) : Prog Call Reply σ ρ → W → ρ × σ × W
  | done r s, w => (r, s, w)
  | ask c _ k, w => (k (reply w c).1).exec reply (reply w c).2

theorem exec_andThen {ρ' : Type} (reply : W → (c : Call) → Reply c × W) (p : Prog Call Reply σ ρ)
    (f : ρ → σ → Prog Call Reply σ ρ') (w : W) :
    (p.andThen f).exec reply w =
      (f (p.exec reply w).1 (p.exec reply w).2.1).exec reply (p.exec reply w).2.2 := by
  induction p generalizing w with
  | done r s => rfl
  | ask c s k ih => exact ih _ _

theorem run_exec {reply : W → (c : Call) → Reply c × W} (hr : ∀ w, E.rely w w)
    (ha : ∀ w c, E.answer w c (reply w c).1 (reply w c).2) (p : Prog Call Reply σ ρ) (w : W) :
    Run E p w (p.exec reply w).1 (p.exec reply w).2.1 (p.exec reply w).2.2 := by
  induction p generalizing w with
  | done r s => exact .done r s w
  | ask c s k ih => exact .ask (hr w) (ha w c) (ih _ _)

/-- A world that answers by a function has a run, and the run is one of every
environment that allows the answers. -/
theorem exists_run {reply : W → (c : Call) → Reply c × W} (hr : ∀ w, E.rely w w)
    (ha : ∀ w c, E.answer w c (reply w c).1 (reply w c).2) (h : p.wp (Env.ofReply reply) Q w) :
    ∃ r s w', Run E p w r s w' ∧ Q r s w' := by
  refine ⟨_, _, _, run_exec hr ha p w, wp_run h ?_⟩
  exact run_exec (fun _ => rfl) (fun _ _ => rfl) p w

end Prog

namespace Proc

/-- End with a value. -/
def pure (a : α) : Proc Call Reply σ ε α := fun s => .done (.ok a) s

/-- Sequencing: an exception skips what follows. -/
def bind (m : Proc Call Reply σ ε α) (f : α → Proc Call Reply σ ε β) : Proc Call Reply σ ε β :=
  fun s => (m s).andThen fun r s =>
    match r with
    | .ok a => f a s
    | .error e => .done (.error e) s

instance : Monad (Proc Call Reply σ ε) where
  pure := Proc.pure
  bind := Proc.bind

/-- Throw. -/
def throw (e : ε) : Proc Call Reply σ ε α := fun s => .done (.error e) s

/-- Run a handler on an exception, in the state in which it was thrown. -/
def tryCatch (m : Proc Call Reply σ ε α) (h : ε → Proc Call Reply σ ε α) :
    Proc Call Reply σ ε α := fun s => (m s).andThen fun r s =>
  match r with
  | .ok a => .done (.ok a) s
  | .error e => h e s

/-- Ask the world. -/
def ask (c : Call) : Proc Call Reply σ ε (Reply c) := fun s =>
  .ask c s fun rep => .done (.ok rep) s

/-- Read the state. -/
def get : Proc Call Reply σ ε σ := fun s => .done (.ok s) s

/-- Change the state. -/
def modify (f : σ → σ) : Proc Call Reply σ ε Unit := fun s => .done (.ok ()) (f s)

/-- Run a program if a condition holds. -/
def when (c : Prop) [Decidable c] (m : Proc Call Reply σ ε Unit) : Proc Call Reply σ ε Unit :=
  if c then m else Proc.pure ()

/-- Run a body for each item of a list. -/
def forEach : List β → (β → Proc Call Reply σ ε Unit) → Proc Call Reply σ ε Unit
  | [], _ => Proc.pure ()
  | b :: l, f => Proc.bind (f b) fun _ => forEach l f

/-- `Q` of a normal end, `X` of an exception. -/
def ends (Q : α → σ → W → Prop) (X : ε → σ → W → Prop) : Except ε α → σ → W → Prop
  | .ok a => Q a
  | .error e => X e

/-- Every run of the program ends normally with `Q` or throws with `X`, and keeps the
guarantee. -/
def wp (E : Env Call Reply W) (m : Proc Call Reply σ ε α) (Q : α → σ → W → Prop)
    (X : ε → σ → W → Prop) (s : σ) (w : W) : Prop :=
  (m s).wp E (ends Q X) w

variable {E : Env Call Reply W} {Q Q' : α → σ → W → Prop} {X X' : ε → σ → W → Prop} {s : σ} {w : W}
  {m : Proc Call Reply σ ε α}

theorem wp_mono (h : m.wp E Q X s w) (hQ : ∀ a s w, Q a s w → Q' a s w)
    (hX : ∀ e s w, X e s w → X' e s w) : m.wp E Q' X' s w := by
  refine Prog.wp_mono h fun r s w hr => ?_
  cases r with
  | ok a => exact hQ a s w hr
  | error e => exact hX e s w hr

theorem wp_trivial (hg : ∀ w w', E.guar w w') (m : Proc Call Reply σ ε α) :
    m.wp E (fun _ _ _ => True) (fun _ _ _ => True) s w := by
  have hprog : ∀ (p : Prog Call Reply σ (Except ε α)) (w : W),
      p.wp E (ends (fun _ _ _ => True) fun _ _ _ => True) w := by
    intro p
    induction p with
    | done r s => intro w; cases r <;> trivial
    | ask c s k ih => exact fun w w₁ _ rep w₂ _ => ⟨hg w₁ w₂, ih rep w₂⟩
  exact hprog (m s) w

@[simp] theorem wp_pure (a : α) :
    (Pure.pure a : Proc Call Reply σ ε α).wp E Q X s w ↔ Q a s w := Iff.rfl

@[simp] theorem wp_throw (e : ε) : (throw e : Proc Call Reply σ ε α).wp E Q X s w ↔ X e s w :=
  Iff.rfl

@[simp] theorem wp_bind {m : Proc Call Reply σ ε β} {f : β → Proc Call Reply σ ε α} :
    (m >>= f).wp E Q X s w ↔ m.wp E (fun b s w => (f b).wp E Q X s w) X s w := by
  change ((m s).andThen _).wp E _ w ↔ _
  rw [Prog.wp_andThen, wp]
  constructor
  · intro h
    refine Prog.wp_mono h fun r s w hr => ?_
    cases r <;> exact hr
  · intro h
    refine Prog.wp_mono h fun r s w hr => ?_
    cases r <;> exact hr

@[simp] theorem wp_tryCatch {h : ε → Proc Call Reply σ ε α} :
    (tryCatch m h).wp E Q X s w ↔ m.wp E Q (fun e s w => (h e).wp E Q X s w) s w := by
  change ((m s).andThen _).wp E _ w ↔ _
  rw [Prog.wp_andThen, wp]
  constructor
  · intro h
    refine Prog.wp_mono h fun r s w hr => ?_
    cases r <;> exact hr
  · intro h
    refine Prog.wp_mono h fun r s w hr => ?_
    cases r <;> exact hr

@[simp] theorem wp_ask {c : Call} {Q : Reply c → σ → W → Prop} :
    (ask c : Proc Call Reply σ ε (Reply c)).wp E Q X s w ↔
      ∀ w₁, E.rely w w₁ → ∀ rep w₂, E.answer w₁ c rep w₂ → E.guar w₁ w₂ ∧ Q rep s w₂ :=
  Iff.rfl

@[simp] theorem wp_get {Q : σ → σ → W → Prop} :
    (get : Proc Call Reply σ ε σ).wp E Q X s w ↔ Q s s w := Iff.rfl

@[simp] theorem wp_modify {f : σ → σ} {Q : Unit → σ → W → Prop} :
    (modify f : Proc Call Reply σ ε Unit).wp E Q X s w ↔ Q () (f s) w := Iff.rfl

@[simp] theorem wp_when {c : Prop} [Decidable c] {m : Proc Call Reply σ ε Unit}
    {Q : Unit → σ → W → Prop} :
    (when c m).wp E Q X s w ↔ (c → m.wp E Q X s w) ∧ (¬c → Q () s w) := by
  by_cases h : c
  · rw [when, if_pos h]
    exact ⟨fun hm => ⟨fun _ => hm, fun hn => absurd h hn⟩, fun hm => hm.1 h⟩
  · rw [when, if_neg h]
    exact ⟨fun hq => ⟨fun hc => absurd hc h, fun _ => hq⟩, fun hm => hm.2 h⟩

/-- A loop, by an invariant that knows which items are done. -/
theorem wp_forEach_prefix {l : List β} {f : β → Proc Call Reply σ ε Unit}
    {J : List β → σ → W → Prop}
    (h : ∀ front b back, front ++ b :: back = l → ∀ s w, J front s w →
      (f b).wp E (fun _ => J (front ++ [b])) X s w) (hJ : J [] s w) :
    (forEach l f).wp E (fun _ => J l) X s w := by
  -- the invariant of the induction is about the items that are left
  have hleft : ∀ back front s w, front ++ back = l → J front s w →
      (forEach back f).wp E (fun _ => J l) X s w := by
    intro back
    induction back with
    | nil =>
      intro front s w hl hfront
      rw [List.append_nil] at hl
      exact hl ▸ hfront
    | cons b back ih =>
      intro front s w hl hfront
      change (f b >>= fun _ => forEach back f).wp E (fun _ => J l) X s w
      rw [wp_bind]
      refine wp_mono (h front b back hl s w hfront) (fun _ s w hs => ?_) fun _ _ _ hx => hx
      exact ih (front ++ [b]) s w (by rw [List.append_assoc, List.singleton_append, hl]) hs
  exact hleft l [] s w (List.nil_append l) hJ

theorem wp_forEach {l : List β} {f : β → Proc Call Reply σ ε Unit} {I : σ → W → Prop}
    (h : ∀ b ∈ l, ∀ s w, I s w → (f b).wp E (fun _ => I) X s w) (hI : I s w) :
    (forEach l f).wp E (fun _ => I) X s w := by
  refine wp_forEach_prefix (J := fun _ => I) (fun front b back hl s w hs => h b ?_ s w hs) hI
  rw [← hl]
  exact List.mem_append_right front List.mem_cons_self

/-! ## Invariants -/

/-- The program keeps a property of its state and the world: it holds again at every
end, normal or not. -/
def Keeps (E : Env Call Reply W) (I : σ → W → Prop) (m : Proc Call Reply σ ε α) : Prop :=
  ∀ s w, I s w → m.wp E (fun _ => I) (fun _ => I) s w

/-- Every answer to the question keeps the property, and honours the guarantee. -/
def AskKeeps (E : Env Call Reply W) (I : σ → W → Prop) (c : Call) : Prop :=
  ∀ s w w₁ rep w₂, I s w → E.rely w w₁ → E.answer w₁ c rep w₂ → E.guar w₁ w₂ ∧ I s w₂

section Keeps

variable {I : σ → W → Prop}

theorem keeps_pure (a : α) : Keeps E I (Pure.pure a : Proc Call Reply σ ε α) :=
  fun _ _ h => h

theorem keeps_throw (e : ε) : Keeps E I (throw e : Proc Call Reply σ ε α) := fun _ _ h => h

theorem keeps_bind {m : Proc Call Reply σ ε β} {f : β → Proc Call Reply σ ε α}
    (hm : Keeps E I m) (hf : ∀ b, Keeps E I (f b)) : Keeps E I (m >>= f) := by
  intro s w h
  rw [wp_bind]
  exact wp_mono (hm s w h) (fun b s w hb => hf b s w hb) fun _ _ _ hx => hx

variable {m : Proc Call Reply σ ε α}

theorem keeps_tryCatch {f : ε → Proc Call Reply σ ε α} (hm : Keeps E I m)
    (hf : ∀ e, Keeps E I (f e)) : Keeps E I (tryCatch m f) := by
  intro s w h
  rw [wp_tryCatch]
  exact wp_mono (hm s w h) (fun _ _ _ hq => hq) fun e s w hx => hf e s w hx

theorem keeps_ask {c : Call} (h : AskKeeps E I c) :
    Keeps E I (ask c : Proc Call Reply σ ε (Reply c)) := by
  intro s w hI w₁ hr rep w₂ ha
  exact h s w w₁ rep w₂ hI hr ha

theorem keeps_get : Keeps E I (get : Proc Call Reply σ ε σ) := fun _ _ h => h

theorem keeps_modify {f : σ → σ} (h : ∀ s w, I s w → I (f s) w) :
    Keeps E I (modify f : Proc Call Reply σ ε Unit) := fun s w hI => h s w hI

theorem keeps_when {c : Prop} [Decidable c] {m : Proc Call Reply σ ε Unit} (h : Keeps E I m) :
    Keeps E I (when c m) := by
  rw [when]
  split
  · exact h
  · exact keeps_pure ()

theorem keeps_forEach {l : List β} {f : β → Proc Call Reply σ ε Unit}
    (h : ∀ b ∈ l, Keeps E I (f b)) : Keeps E I (forEach l f) :=
  fun _ _ hI => wp_forEach (fun b hb s w hs => h b hb s w hs) hI

theorem Keeps.wp (h : Keeps E I m) (hI : I s w) (hQ : ∀ a s w, I s w → Q a s w)
    (hX : ∀ e s w, I s w → X e s w) : m.wp E Q X s w :=
  wp_mono (h s w hI) hQ hX

theorem Keeps.ofReply {reply : W → (c : Call) → Reply c × W} (hr : ∀ w, E.rely w w)
    (ha : ∀ w c, E.answer w c (reply w c).1 (reply w c).2) (h : Keeps E I m) :
    Keeps (Env.ofReply reply) I m := by
  intro s w hI
  refine Prog.wp_env (E := E) ?_ ?_ (fun _ _ _ => trivial) (h s w hI)
  · rintro w w₁ rfl
    exact hr w
  · intro w c rep w' heq
    have hans := ha w c
    rwa [← show (rep, w') = reply w c from heq] at hans

end Keeps

/-! ## Specifications under an invariant -/

/-- For a program that is started with an invariant and with `K`: the invariant and `L` at a
normal end, and the invariant alone when it throws. -/
def Leads (E : Env Call Reply W) (Inv : W → Prop) (K : σ → W → Prop) (m : Proc Call Reply σ ε α)
    (L : α → σ → W → Prop) : Prop :=
  ∀ s w, Inv w → K s w → m.wp E (fun a s w => Inv w ∧ L a s w) (fun _ _ => Inv) s w

section Leads

variable {Inv : W → Prop} {K N : σ → W → Prop} {L M : α → σ → W → Prop} {m : Proc Call Reply σ ε α}

theorem leads_of_keeps (h : Keeps E (fun s w => Inv w ∧ K s w) m) : Leads E Inv K m fun _ => K :=
  fun _ _ hinv hk => h.wp ⟨hinv, hk⟩ (fun _ _ _ hq => hq) fun _ _ _ hx => hx.1

theorem leads_pure (a : α) (h : ∀ s w, Inv w → K s w → L a s w) :
    Leads E Inv K (Pure.pure a : Proc Call Reply σ ε α) L :=
  fun s w hinv hk => ⟨hinv, h s w hinv hk⟩

theorem leads_throw (e : ε) : Leads E Inv K (throw e : Proc Call Reply σ ε α) L :=
  fun _ _ hinv _ => hinv

theorem leads_bind {m : Proc Call Reply σ ε β} {f : β → Proc Call Reply σ ε α}
    {M : β → σ → W → Prop} (hm : Leads E Inv K m M) (hf : ∀ b, Leads E Inv (M b) (f b) L) :
    Leads E Inv K (m >>= f) L := by
  intro s w hinv hk
  rw [wp_bind]
  exact wp_mono (hm s w hinv hk) (fun b s₁ w₁ h₁ => hf b s₁ w₁ h₁.1 h₁.2) fun _ _ _ hx => hx

theorem leads_tryCatch {f : ε → Proc Call Reply σ ε α} (hm : Leads E Inv K m L)
    (hf : ∀ e, Leads E Inv (fun _ _ => True) (f e) L) : Leads E Inv K (tryCatch m f) L := by
  intro s w hinv hk
  rw [wp_tryCatch]
  exact wp_mono (hm s w hinv hk) (fun _ _ _ hq => hq) fun e s w hx => hf e s w hx trivial

theorem leads_get {g : σ → Proc Call Reply σ ε α}
    (h : ∀ s, Leads E Inv (fun s' w => s' = s ∧ K s' w) (g s) L) :
    Leads E Inv K (get >>= g) L := fun s w hinv hk => h s s w hinv ⟨rfl, hk⟩

theorem leads_modify {f : σ → σ} {L : Unit → σ → W → Prop} (h : ∀ s w, K s w → L () (f s) w) :
    Leads E Inv K (modify f : Proc Call Reply σ ε Unit) L :=
  fun s w hinv hk => ⟨hinv, h s w hk⟩

theorem leads_when {c : Prop} [Decidable c] {m : Proc Call Reply σ ε Unit}
    {L : Unit → σ → W → Prop} (hm : c → Leads E Inv K m L)
    (hskip : ¬c → ∀ s w, Inv w → K s w → L () s w) : Leads E Inv K (when c m) L := by
  intro s w hinv hk
  rw [wp_when]
  exact ⟨fun hc => hm hc s w hinv hk, fun hc => ⟨hinv, hskip hc s w hinv hk⟩⟩

theorem Leads.conseq (h : Leads E Inv K m M) (hpre : ∀ s w, Inv w → N s w → K s w)
    (hpost : ∀ a s w, Inv w → M a s w → L a s w) : Leads E Inv N m L :=
  fun s w hinv hn => wp_mono (h s w hinv (hpre s w hinv hn))
    (fun a s w hq => ⟨hq.1, hpost a s w hq.1 hq.2⟩) fun _ _ _ hx => hx

theorem leads_forEach {l : List β} {f : β → Proc Call Reply σ ε Unit} {J : List β → σ → W → Prop}
    (h : ∀ front b back, front ++ b :: back = l →
      Leads E Inv (J front) (f b) fun _ => J (front ++ [b])) :
    Leads E Inv (J []) (forEach l f) fun _ => J l :=
  fun _ _ hinv hJ => wp_forEach_prefix (J := fun front s w => Inv w ∧ J front s w)
    (fun front b back hl s w hs => h front b back hl s w hs.1 hs.2) ⟨hinv, hJ⟩

end Leads

/-- A preorder that every answer respects relates the world at the end to the one at the start. -/
theorem wp_related {G : W → W → Prop} (hrefl : ∀ w, G w w) (htrans : ∀ u v w, G u v → G v w → G u w)
    (hrely : ∀ w w₁, E.rely w w₁ → G w w₁) (hans : ∀ w c rep w', E.answer w c rep w' → G w w')
    (h : m.wp E Q X s w) :
    m.wp E (fun a s' w' => Q a s' w' ∧ G w w') (fun e s' w' => X e s' w' ∧ G w w') s w := by
  have hprog : ∀ {p : Prog Call Reply σ (Except ε α)} {w : W}, p.wp E (ends Q X) w →
      p.wp E (fun r s' w' => ends Q X r s' w' ∧ G w w') w := by
    intro p
    induction p with
    | done r s => exact fun h => ⟨h, hrefl _⟩
    | ask c s k ih =>
      intro w h w₁ hr rep w₂ ha
      obtain ⟨hg, hk⟩ := h w₁ hr rep w₂ ha
      refine ⟨hg, Prog.wp_mono (ih rep hk) fun r s' w' hq => ⟨hq.1, ?_⟩⟩
      exact htrans _ _ _ (hrely _ _ hr) (htrans _ _ _ (hans _ _ _ _ ha) hq.2)
  refine Prog.wp_mono (hprog h) fun r s' w' hr => ?_
  cases r <;> exact hr

theorem wp_run_ok {a : α} {s' : σ} {w' : W} (h : m.wp E Q X s w)
    (hrun : Prog.Run E (m s) w (.ok a) s' w') : Q a s' w' :=
  Prog.wp_run (Q := ends Q X) h hrun

theorem wp_run_error {e : ε} {s' : σ} {w' : W} (h : m.wp E Q X s w)
    (hrun : Prog.Run E (m s) w (.error e) s' w') : X e s' w' :=
  Prog.wp_run (Q := ends Q X) h hrun

theorem wp_run_ends {P : σ → W → Prop} {r : Except ε α} {s' : σ} {w' : W}
    (h : m.wp E (fun _ => P) (fun _ => P) s w) (hrun : Prog.Run E (m s) w r s' w') : P s' w' := by
  cases r with
  | ok a => exact wp_run_ok h hrun
  | error e => exact wp_run_error h hrun

theorem exec_of_wp {reply : W → (c : Call) → Reply c × W}
    (h : m.wp (Env.ofReply reply) Q (fun _ _ _ => False) s w) :
    ∃ a s' w', (m s).exec reply w = (.ok a, s', w') ∧ Q a s' w' := by
  have hend := Prog.wp_run h (Prog.run_exec (fun _ => rfl) (fun _ _ => rfl) (m s) w)
  rcases hexec : (m s).exec reply w with ⟨r, s', w'⟩
  rw [hexec] at hend
  cases r with
  | ok a => exact ⟨a, s', w', rfl, hend⟩
  | error e => exact absurd hend id

theorem exists_run_ends {reply : W → (c : Call) → Reply c × W} (hr : ∀ w, E.rely w w)
    (ha : ∀ w c, E.answer w c (reply w c).1 (reply w c).2) {P : σ → W → Prop}
    (h : m.wp (Env.ofReply reply) (fun _ => P) (fun _ => P) s w) :
    ∃ r s' w', Prog.Run E (m s) w r s' w' ∧ P s' w' := by
  obtain ⟨r, s', w', hrun, hP⟩ := Prog.exists_run hr ha h
  refine ⟨r, s', w', hrun, ?_⟩
  cases r with
  | ok a => exact hP
  | error e => exact hP

end Proc

end Interaction
