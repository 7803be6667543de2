import Mathlib.Data.List.Pairwise
import Mathlib.Order.Lattice

/-!
# A cell behind a check that is made too early

Several writers share a cell.  Each brings a content, reads what the cell holds, and is
refused when what it brings is stale; otherwise it writes, but *later*: between the check and
the write the cell may be written by others.

A cell remembers its contents, latest first, and the refusals with what the cell held then.

* `step`, `run`: what writers do to a cell, as functions.
* `Calm`: a step that does not write over something unread.
* `Sound`: contents never fall in rank, and nothing higher was ever refused.
* `sound_run`: a run of calm steps keeps a sound cell sound.
-/

namespace GuardedCell

/-- A cell, and the writers that were let in and have not written yet: what each of them
brings, and what it read. -/
structure Cell (α : Type) where
  content : Option α
  waiting : List (α × Option α)
  history : List α
  refused : List (α × α)
  deriving DecidableEq

/-- What happens at a cell: a writer reads, a writer writes, a writer is gone. -/
inductive Action (α : Type) where
  | read (x : α)
  | write (i : ℕ)
  | drop (i : ℕ)
  deriving DecidableEq

variable {α : Type}

namespace Cell

/-- A cell that no writer has come to. -/
def start (content : Option α) : Cell α := ⟨content, [], content.toList, []⟩

/-- A writer is refused. -/
def refuse (c : Cell α) (x y : α) : Cell α := { c with refused := (x, y) :: c.refused }

/-- A writer is let in. -/
def enter (c : Cell α) (x : α) : Cell α := { c with waiting := (x, c.content) :: c.waiting }

/-- A writer writes. -/
def fill (c : Cell α) (i : ℕ) (x : α) : Cell α :=
  { c with content := some x, waiting := c.waiting.eraseIdx i, history := x :: c.history }

/-- One step: the check is made at the read. -/
def step (stale : α → α → Bool) (c : Cell α) : Action α → Cell α
  | .read x =>
    match c.content with
    | some y => if stale y x then c.refuse x y else c.enter x
    | none => c.enter x
  | .write i =>
    match c.waiting[i]? with
    | some (x, _) => c.fill i x
    | none => c
  | .drop i => { c with waiting := c.waiting.eraseIdx i }

/-- Many steps. -/
def run (stale : α → α → Bool) (c : Cell α) (actions : List (Action α)) : Cell α :=
  actions.foldl (step stale) c

/-- The step is not a write over a content that the writer has not read, and what it brings is
good. -/
def Calm (good : α → Prop) (c : Cell α) : Action α → Prop
  | .read x => good x
  | .write i => ∀ w, c.waiting[i]? = some w → c.content = w.2
  | .drop _ => True

/-- All steps of a run are calm. -/
def CalmRun (stale : α → α → Bool) (good : α → Prop) : Cell α → List (Action α) → Prop
  | _, [] => True
  | c, a :: rest => c.Calm good a ∧ CalmRun stale good (c.step stale a) rest

variable {L : Type} [LinearOrder L]

/-- Contents never fall in rank, nothing higher was refused, and a writer that was let in is
not behind what it read. -/
structure Sound (good : α → Prop) (rank : α → L) (c : Cell α) : Prop where
  latest : c.content = c.history.head?
  good_history : ∀ x ∈ c.history, good x
  rising : c.history.Pairwise fun newer older => rank older ≤ rank newer
  good_waiting : ∀ w ∈ c.waiting, good w.1
  ahead : ∀ w ∈ c.waiting, ∀ y, w.2 = some y → rank y ≤ rank w.1
  behind : ∀ r ∈ c.refused, (good r.1 ∧ good r.2) ∧ rank r.1 < rank r.2

variable {stale : α → α → Bool} {good : α → Prop} {rank : α → L} {c : Cell α}

theorem sound_start {content : Option α} (h : ∀ x, content = some x → good x) :
    (start content).Sound good rank := by
  cases content with
  | none => exact ⟨rfl, by simp [start], by simp [start], by simp [start], by simp [start],
      by simp [start]⟩
  | some x => exact ⟨rfl, by simpa [start] using h, by simp [start], by simp [start],
      by simp [start], by simp [start]⟩

theorem Sound.good_content (h : c.Sound good rank) {y : α} (hy : c.content = some y) : good y := by
  rw [h.latest] at hy
  exact h.good_history y (List.mem_of_mem_head? hy)

theorem Sound.refuse (h : c.Sound good rank) {x y : α} (hx : good x) (hy : good y)
    (hlt : rank x < rank y) : (c.refuse x y).Sound good rank where
  latest := h.latest
  good_history := h.good_history
  rising := h.rising
  good_waiting := h.good_waiting
  ahead := h.ahead
  behind := List.forall_mem_cons.mpr ⟨⟨⟨hx, hy⟩, hlt⟩, h.behind⟩

theorem Sound.enter (h : c.Sound good rank) {x : α} (hx : good x)
    (hle : ∀ y, c.content = some y → rank y ≤ rank x) : (c.enter x).Sound good rank where
  latest := h.latest
  good_history := h.good_history
  rising := h.rising
  good_waiting := List.forall_mem_cons.mpr ⟨hx, h.good_waiting⟩
  ahead := List.forall_mem_cons.mpr ⟨hle, h.ahead⟩
  behind := h.behind

theorem Sound.drop (h : c.Sound good rank) (i : ℕ) :
    ({ c with waiting := c.waiting.eraseIdx i } : Cell α).Sound good rank where
  latest := h.latest
  good_history := h.good_history
  rising := h.rising
  good_waiting w hw := h.good_waiting w (List.mem_of_mem_eraseIdx hw)
  ahead w hw := h.ahead w (List.mem_of_mem_eraseIdx hw)
  behind := h.behind

theorem Sound.fill (h : c.Sound good rank) {i : ℕ} {w : α × Option α} (hw : c.waiting[i]? = some w)
    (hsame : c.content = w.2) : (c.fill i w.1).Sound good rank := by
  have hmem : w ∈ c.waiting := List.mem_of_getElem? hw
  have hgood : good w.1 := h.good_waiting w hmem
  -- the latest content is what the writer read, and the older ones are not above that
  have htop : ∀ z ∈ c.history, rank z ≤ rank w.1 := by
    intro z hz
    have hlatest := h.latest
    cases hhist : c.history with
    | nil => simp [hhist] at hz
    | cons y older =>
      rw [hhist, List.head?_cons] at hlatest
      have hy : rank y ≤ rank w.1 := h.ahead w hmem y (hsame ▸ hlatest)
      have hrising := h.rising
      rw [hhist, List.pairwise_cons] at hrising
      rw [hhist] at hz
      rcases List.mem_cons.mp hz with rfl | hz
      · exact hy
      · exact le_trans (hrising.1 z hz) hy
  have hrest := h.drop i
  exact ⟨rfl, List.forall_mem_cons.mpr ⟨hgood, h.good_history⟩, List.pairwise_cons.mpr ⟨htop, h.rising⟩,
    hrest.good_waiting, hrest.ahead, h.behind⟩

/-- **A calm step keeps a cell sound**, if the check is right about good contents. -/
theorem Sound.step (hstale : ∀ x y, good x → good y → (stale y x = true ↔ rank x < rank y))
    (h : c.Sound good rank) {a : Action α} (ha : c.Calm good a) :
    (c.step stale a).Sound good rank := by
  cases a with
  | read x =>
    have hx : good x := ha
    cases hc : c.content with
    | none =>
      simp only [Cell.step, hc]
      exact h.enter hx (by simp [hc])
    | some y =>
      have hy : good y := h.good_content hc
      simp only [Cell.step, hc]
      split_ifs with hs
      · exact h.refuse hx hy ((hstale x y hx hy).mp hs)
      · refine h.enter hx fun z hz => ?_
        rw [hc, Option.some.injEq] at hz
        subst hz
        exact not_lt.mp fun hlt => hs ((hstale x y hx hy).mpr hlt)
  | write i =>
    cases hw : c.waiting[i]? with
    | none => simpa only [Cell.step, hw] using h
    | some w =>
      have hfill := h.fill hw (ha w hw)
      simpa only [Cell.step, hw] using hfill
  | drop i => exact h.drop i

/-- **A calm run keeps a cell sound.** -/
theorem Sound.run (hstale : ∀ x y, good x → good y → (stale y x = true ↔ rank x < rank y))
    (h : c.Sound good rank) {actions : List (Action α)} (hcalm : c.CalmRun stale good actions) :
    (c.run stale actions).Sound good rank := by
  induction actions generalizing c with
  | nil => exact h
  | cons a rest ih => exact ih (h.step hstale hcalm.1) hcalm.2

end Cell

end GuardedCell
