import Interocitor.Clock.Malformed

/-!
# The clock with JavaScript's numbers: order and progress

`Core.Hlc` has natural numbers where the source has numbers.  Here the functions of `hlc.ts` keep
JavaScript's arithmetic, in which the successor of a number from `2 ^ 53` on may be the number
itself.

Serialized stamps whose times have at most fifteen digits and whose counters are safe integers stay
below that.  They are read back exactly, and comparing them as texts, by either of the two ways that
`hlcCompareStr` has, is comparing the stamps.

The clock itself has no such bound: a remote counter is taken over as it stands, and where the
counter has reached `2 ^ 53` the clock may stand still.

* `advances_iff`: exactly then the clock moves forward, and a run of such events is increasing.
-/

namespace Interocitor

open CodeUnits Decimals HybridClock

namespace JsNumber

/-- `a - b`; which zero a difference of zeros is does not matter here. -/
def minus : JsNumber → JsNumber → JsNumber
  | .nan, _ => .nan
  | _, .nan => .nan
  | .posInf, .posInf => .nan
  | .negInf, .negInf => .nan
  | .posInf, _ => .posInf
  | .negInf, _ => .negInf
  | _, .posInf => .negInf
  | _, .negInf => .posInf
  | a, b => rounded (a.value - b.value)

theorem rounded_intCast {i : ℤ} (h : i.natAbs < 2 ^ 53) : rounded i = .finite i := by
  have habs : |(i : ℚ)| = ((i.natAbs : ℕ) : ℚ) := by
    rw [← Int.cast_abs, ← Int.natCast_natAbs, Int.cast_natCast]
  have hfinite : ((i.natAbs : ℕ) : ℚ) < 2 ^ 1024 := by
    exact_mod_cast lt_bound h
  rw [rounded, habs, nearestFloat_natCast h, if_pos hfinite, ← habs]
  split_ifs with hneg
  · rw [abs_of_neg hneg, neg_neg]
  · rw [abs_of_nonneg (not_lt.mp hneg)]

theorem minus_natCast {a b : ℕ} (ha : a < 2 ^ 53) (hb : b < 2 ^ 53) :
    minus (.finite a) (.finite b) = .finite (((a : ℤ) - b : ℤ)) := by
  have hcast : ((a : ℚ) - b) = (((a : ℤ) - b : ℤ) : ℚ) := by push_cast; rfl
  have hdiff : minus (.finite a) (.finite b) = rounded ((a : ℚ) - b) := rfl
  rw [hdiff, hcast, rounded_intCast (by omega)]

end JsNumber

namespace JsHlc

open JsNumber

/-! ## Order -/

/-- `hlcCompare`. -/
def compare (a b : JsHlc) : JsNumber :=
  if a.ts.same b.ts = false then a.ts.minus b.ts
  else if a.counter.same b.counter = false then a.counter.minus b.counter
  else if a.nodeId < b.nodeId then .finite (-1)
  else if b.nodeId < a.nodeId then .finite 1
  else .finite 0

/-- `hlcCompareStr`. -/
def compareStr (a b : Text) : JsNumber :=
  if canonicalShape a && canonicalShape b then
    if a < b then .finite (-1) else if b < a then .finite 1 else .finite 0
  else compare (parse a) (parse b)

/-- A time of at most fifteen digits and a counter up to `2 ^ 53 - 1`. -/
def InRange (s : Stamp Text) : Prop := s.ts < 10 ^ 15 ∧ s.counter ≤ 2 ^ 53 - 1

variable {s : Stamp Text}

theorem InRange.ts_lt (h : InRange s) : s.ts < 2 ^ 53 :=
  lt_trans h.1 (by norm_num)

theorem InRange.counter_lt (h : InRange s) : s.counter < 2 ^ 53 := by
  have hle := h.2
  omega

theorem parse_stampText (h : InRange s) : parse (stampText s) = ofStamp s := by
  have hts : ofNum (some s.ts) = .finite s.ts := rounded_of_lt h.ts_lt
  have hcounter : ofNum (some s.counter) = .finite s.counter := rounded_of_lt h.counter_lt
  rw [parse, hlcParse_stampText]
  simp only [Hlc.ofStamp, hts, hcounter]
  rfl

variable {a b : Stamp Text}

/-- On such stamps `hlcCompare` is exact. -/
theorem exists_compare (ha : InRange a) (hb : InRange b) :
    ∃ z : ℤ, compare (ofStamp a) (ofStamp b) = .finite z ∧
      hlcCompare (.ofStamp a) (.ofStamp b) = some z := by
  have hsame : ∀ m n : ℕ, same (.finite m) (.finite n) = false ↔ m ≠ n := by
    intro m n
    rw [← Bool.not_eq_true, same_natCast]
  rw [hlcCompare_ofStamp]
  simp only [compare, ofStamp, hsame, minus_natCast ha.ts_lt hb.ts_lt,
    minus_natCast ha.counter_lt hb.counter_lt]
  by_cases hts : a.ts ≠ b.ts
  · exact ⟨_, if_pos hts, if_pos hts⟩
  rw [if_neg hts, if_neg hts]
  by_cases hcounter : a.counter ≠ b.counter
  · exact ⟨_, if_pos hcounter, if_pos hcounter⟩
  rw [if_neg hcounter, if_neg hcounter]
  rcases lt_trichotomy a.node b.node with hnode | hnode | hnode
  · exact ⟨-1, (if_pos hnode).trans (by norm_num), if_pos hnode⟩
  · have hab : ¬a.node < b.node := not_lt.mpr hnode.ge
    have hba : ¬b.node < a.node := not_lt.mpr hnode.le
    exact ⟨0, ((if_neg hab).trans (if_neg hba)).trans (by norm_num),
      (if_neg hab).trans (if_neg hba)⟩
  · have hab : ¬a.node < b.node := hnode.asymm
    exact ⟨1, ((if_neg hab).trans (if_pos hnode)).trans (by norm_num),
      (if_neg hab).trans (if_pos hnode)⟩

@[inherit_doc exists_compare]
theorem exists_compareStr (ha : InRange a) (hb : InRange b) :
    ∃ z : ℤ, compareStr (stampText a) (stampText b) = .finite z ∧
      hlcCompareStr (stampText a) (stampText b) = some z := by
  rw [compareStr, hlcCompareStr]
  split_ifs
  · exact ⟨-1, by norm_num, rfl⟩
  · exact ⟨1, by norm_num, rfl⟩
  · exact ⟨0, by norm_num, rfl⟩
  · rw [parse_stampText ha, parse_stampText hb, hlcParse_stampText, hlcParse_stampText]
    exact exists_compare ha hb

/-- One comparison has the sign of another. -/
def SameSign (x y : JsNumber) : Prop :=
  x.lt (.finite 0) = y.lt (.finite 0) ∧ lt (.finite 0) x = lt (.finite 0) y

theorem lt_zero (z : ℤ) : lt (.finite z) (.finite 0) = true ↔ z < 0 := by
  rw [lt_iff rfl rfl]
  exact Int.cast_lt_zero

theorem zero_lt (z : ℤ) : lt (.finite 0) (.finite z) = true ↔ 0 < z := by
  rw [lt_iff rfl rfl]
  exact Int.cast_pos

theorem le_zero (z : ℤ) : le (.finite z) (.finite 0) = true ↔ z ≤ 0 := by
  rw [le_iff rfl rfl]
  exact Int.cast_nonpos

theorem same_zero (z : ℤ) : same (.finite z) (.finite 0) = true ↔ z = 0 := by
  rw [same_iff]
  simp [extended]

theorem compareStr_order (ha : InRange a) (hb : InRange b) :
    ∃ z : ℤ, compareStr (stampText a) (stampText b) = .finite z ∧ (0 < z ↔ b < a) ∧
      (z < 0 ↔ a < b) := by
  obtain ⟨z, hz, hcore⟩ := exists_compareStr ha hb
  have hpos := isPos_hlcCompareStr a b
  have hneg := isNeg_hlcCompareStr a b
  rw [hcore, isPos, Option.any_some, decide_eq_true_iff] at hpos
  rw [hcore, isNeg, Option.any_some, decide_eq_true_iff] at hneg
  exact ⟨z, hz, hpos, hneg⟩

/-- **Serialized stamps order like the stamps.** -/
theorem serialized_order :
    (∀ a, InRange a → parse (stampText a) = ofStamp a) ∧
    (∀ a b, InRange a → InRange b →
      SameSign (compareStr (stampText a) (stampText b)) (compare (ofStamp a) (ofStamp b))) ∧
    (∀ a b, InRange a → InRange b →
      (same (compareStr (stampText a) (stampText b)) (.finite 0) = true ↔
        stampText a = stampText b)) ∧
    (∀ a b, InRange a → InRange b →
      le (compareStr (stampText a) (stampText b)) (.finite 0) = true ∨
        le (compareStr (stampText b) (stampText a)) (.finite 0) = true) ∧
    (∀ a b, InRange a → InRange b →
      le (compareStr (stampText a) (stampText b)) (.finite 0) = true →
      le (compareStr (stampText b) (stampText a)) (.finite 0) = true → stampText a = stampText b) ∧
    ∀ a b c, InRange a → InRange b → InRange c →
      le (compareStr (stampText a) (stampText b)) (.finite 0) = true →
      le (compareStr (stampText b) (stampText c)) (.finite 0) = true →
        le (compareStr (stampText a) (stampText c)) (.finite 0) = true := by
  have hle : ∀ a b, InRange a → InRange b →
      (le (compareStr (stampText a) (stampText b)) (.finite 0) = true ↔ a ≤ b) := by
    intro a b ha hb
    obtain ⟨z, hz, hpos, -⟩ := compareStr_order ha hb
    rw [hz, le_zero, ← not_lt, hpos, not_lt]
  refine ⟨fun a ha => parse_stampText ha, fun a b ha hb => ?_, fun a b ha hb => ?_,
    fun a b ha hb => ?_, fun a b ha hb hab hba => ?_, fun a b c ha hb hc hab hbc => ?_⟩
  · obtain ⟨z, hz, hpos, hneg⟩ := compareStr_order ha hb
    obtain ⟨w, hw, hcore⟩ := exists_compare ha hb
    have hwpos := isPos_hlcCompare a b
    have hwneg := isNeg_hlcCompare a b
    rw [hcore, isPos, Option.any_some, decide_eq_true_iff] at hwpos
    rw [hcore, isNeg, Option.any_some, decide_eq_true_iff] at hwneg
    rw [hz, hw]
    constructor
    · rw [Bool.eq_iff_iff, lt_zero, lt_zero, hneg, hwneg]
    · rw [Bool.eq_iff_iff, zero_lt, zero_lt, hpos, hwpos]
  · obtain ⟨z, hz, hpos, hneg⟩ := compareStr_order ha hb
    rw [hz, same_zero, stampText_injective.eq_iff]
    constructor
    · rintro rfl
      exact le_antisymm (not_lt.mp fun h => absurd (hpos.mpr h) (lt_irrefl 0))
        (not_lt.mp fun h => absurd (hneg.mpr h) (lt_irrefl 0))
    · rintro rfl
      have h₁ : ¬0 < z := fun h => lt_irrefl a (hpos.mp h)
      have h₂ : ¬z < 0 := fun h => lt_irrefl a (hneg.mp h)
      omega
  · rw [hle a b ha hb, hle b a hb ha]
    exact le_total a b
  · exact congrArg stampText (le_antisymm ((hle a b ha hb).mp hab) ((hle b a hb ha).mp hba))
  · exact (hle a c ha hc).mpr (((hle a b ha hb).mp hab).trans ((hle b c hb hc).mp hbc))

/-! ## Progress -/

/-- A float that is a non-negative integer. -/
def IsFloat (n : ℕ) : Prop := nearest n = n ∧ n < 2 ^ 1024

/-- The next number. -/
def inc (n : ℕ) : ℕ := nearest (n + 1)

/-- The numbers whose successor is greater: those below `2 ^ 53`, and above it those whose successor
is rounded up. -/
def CanStep (n : ℕ) : Prop := n < 2 ^ 53 ∨ (n < 2 ^ 54 ∧ n % 4 = 2)

variable {n : ℕ}

theorem IsFloat.inc (h : IsFloat n) : IsFloat (inc n) :=
  ⟨nearest_nearest _, nearest_succ_lt (by norm_num) h.1 h.2⟩

theorem plusOne_float (h : IsFloat n) : plusOne (.finite n) = .finite (inc n : ℕ) := by
  have hcast : plusOne (.finite n) = rounded ((n + 1 : ℕ) : ℚ) := by
    rw [plusOne, Nat.cast_succ]
  have hlt : nearest (n + 1) < 2 ^ 1024 := h.inc.2
  rw [hcast, rounded_natCast, if_pos hlt, JsHlc.inc]

theorem le_inc (h : IsFloat n) : n ≤ inc n := by
  rw [inc]
  rcases Nat.lt_or_ge n (2 ^ 53) with hn | hn
  · rw [nearest_succ_of_lt hn]
    exact Nat.le_succ n
  · rw [nearest_succ h.1 hn]
    split_ifs
    · omega
    · exact le_rfl

theorem lt_inc_iff (h : IsFloat n) : n < inc n ↔ CanStep n := by
  rw [inc, CanStep]
  rcases Nat.lt_or_ge n (2 ^ 53) with hn | hn
  · rw [nearest_succ_of_lt hn]
    exact iff_of_true (Nat.lt_succ_self n) (.inl hn)
  · rw [nearest_succ h.1 hn]
    split_ifs with hnext
    · exact iff_of_true (by omega) (.inr hnext)
    · exact iff_of_false (lt_irrefl n) fun hstep => hstep.elim (by omega) hnext

/-- `hlcNow`. -/
def now (wall : ℕ) (clock : JsHlc) : JsHlc :=
  if clock.ts.lt (.finite wall) then ⟨.finite wall, .finite 0, clock.nodeId⟩
  else ⟨clock.ts, clock.counter.plusOne, clock.nodeId⟩

/-- What moves a clock. -/
inductive Event where
  | tick (wall : ℕ)
  | receive (wall : ℕ) (remote : Stamp Text)

/-- The clock after an event. -/
def step (clock : JsHlc) : Event → JsHlc
  | .tick wall => now wall clock
  | .receive wall remote => receive wall clock (ofStamp remote)

/-- Strictly greater on time and counter. -/
def Later (x y : JsHlc) : Prop :=
  x.ts.lt y.ts = true ∨ (x.ts.same y.ts = true ∧ x.counter.lt y.counter = true)

/-- Receiving ends beyond a remote stamp within the skew bound, and no further than that bound. -/
def Bounded (clock after : JsHlc) : Event → Prop
  | .tick _ => True
  | .receive wall remote =>
    (remote.ts ≤ wall + hlcMaxFutureSkewMs → Later (ofStamp remote) after) ∧
      le after.ts (mathMax clock.ts (.finite (wall + hlcMaxFutureSkewMs : ℕ))) = true

/-- The clock keeps its node id and moves forward, within the bounds. -/
def Advances (clock : JsHlc) (e : Event) : Prop :=
  (step clock e).nodeId = clock.nodeId ∧ Later clock (step clock e) ∧
    Bounded clock (step clock e) e

/-- The counter that an event increments can step: the clock's own, the remote one, or the greater
of the two where the times tie.  In a tie beyond the bound, where the remote stamp need not be
passed, a greater remote counter is enough. -/
def Counts (clock : Stamp Text) : Event → Prop
  | .tick wall => clock.ts < wall ∨ CanStep clock.counter
  | .receive wall remote =>
    (remote.ts = clock.ts ∧ wall ≤ clock.ts → CanStep (max clock.counter remote.counter) ∨
        (wall + hlcMaxFutureSkewMs < remote.ts ∧ clock.counter < remote.counter)) ∧
      (remote.ts ≠ clock.ts ∧ wall ≤ clock.ts ∧
        min remote.ts (wall + hlcMaxFutureSkewMs) ≤ clock.ts → CanStep clock.counter) ∧
      (clock.ts < remote.ts ∧ wall ≤ remote.ts ∧ remote.ts ≤ wall + hlcMaxFutureSkewMs →
        CanStep remote.counter)

/-- The numbers of a stamp are floats. -/
def Floats (s : Stamp Text) : Prop := IsFloat s.ts ∧ IsFloat s.counter

/-- A reading of `Date.now()`, and a remote stamp of floats. -/
def Event.WellFormed : Event → Prop
  | .tick wall => wall ≤ maxTime
  | .receive wall remote => wall ≤ maxTime ∧ Floats remote

/-- The clock after an event, as a stamp. -/
def moved (s : Stamp Text) : Event → Stamp Text
  | .tick wall => if s.ts < wall then ⟨wall, 0, s.node⟩ else ⟨s.ts, inc s.counter, s.node⟩
  | .receive wall remote =>
    let safe := min remote.ts (wall + hlcMaxFutureSkewMs)
    let top := max (max wall s.ts) safe
    ⟨top,
      if top = s.ts ∧ top = remote.ts then inc (max s.counter remote.counter)
      else if top = s.ts then inc s.counter
      else if top = safe then inc remote.counter
      else 0,
      s.node⟩

theorem isFloat_max {m : ℕ} (hm : IsFloat m) (hn : IsFloat n) : IsFloat (max m n) := by
  rcases le_total m n with h | h
  · rw [max_eq_right h]
    exact hn
  · rw [max_eq_left h]
    exact hm

theorem isFloat_min {m : ℕ} (hm : IsFloat m) (hn : IsFloat n) : IsFloat (min m n) := by
  rcases le_total m n with h | h
  · rw [min_eq_left h]
    exact hm
  · rw [min_eq_right h]
    exact hn

theorem isFloat_of_lt (h : n < 2 ^ 53) : IsFloat n := ⟨nearest_of_lt h, lt_bound h⟩

theorem isFloat_wall {wall : ℕ} (h : wall ≤ maxTime) :
    IsFloat wall ∧ IsFloat (wall + hlcMaxFutureSkewMs) := by
  rw [maxTime] at h
  rw [hlcMaxFutureSkewMs]
  exact ⟨isFloat_of_lt (by omega), isFloat_of_lt (by omega)⟩

variable {e : Event}

theorem floats_moved (hs : Floats s) (he : e.WellFormed) : Floats (moved s e) := by
  have hzero : IsFloat 0 := isFloat_of_lt (by norm_num)
  cases e with
  | tick wall =>
    rw [moved]
    split_ifs
    · exact ⟨(isFloat_wall he).1, hzero⟩
    · exact ⟨hs.1, hs.2.inc⟩
  | receive wall remote =>
    obtain ⟨hwall, hremote⟩ := he
    refine ⟨isFloat_max (isFloat_max (isFloat_wall hwall).1 hs.1)
      (isFloat_min hremote.1 (isFloat_wall hwall).2), ?_⟩
    simp only [moved]
    split_ifs
    · exact (isFloat_max hs.2 hremote.2).inc
    · exact hs.2.inc
    · exact hremote.2.inc
    · exact hzero

theorem step_ofStamp (hs : Floats s) (he : e.WellFormed) :
    step (ofStamp s) e = ofStamp (moved s e) := by
  cases e with
  | tick wall =>
    simp only [step, now, moved, ofStamp, lt_natCast, plusOne_float hs.2]
    split_ifs <;> simp
  | receive wall remote =>
    obtain ⟨hwall, hremote⟩ := he
    simp only [step, receive, safeRemoteTs, moved, ofStamp, rounded_bound hwall, mathMin_natCast,
      mathMax_natCast, same_natCast, Bool.and_eq_true, plusOne_float hs.2,
      plusOne_float hremote.2, plusOne_float (isFloat_max hs.2 hremote.2)]
    split_ifs <;> simp

theorem later_ofStamp (s r : Stamp Text) : Later (ofStamp s) (ofStamp r) ↔ s.time < r.time := by
  rw [Later, Stamp.time_lt_iff]
  simp only [ofStamp, lt_natCast, same_natCast]

/-- **When the clock moves forward.** -/
theorem advances_iff_counts (hs : Floats s) (he : e.WellFormed) :
    Advances (ofStamp s) e ↔ Counts s e := by
  rw [Advances, step_ofStamp hs he, later_ofStamp]
  cases e with
  | tick wall =>
    have hstep := lt_inc_iff hs.2
    rw [Stamp.time_lt_iff, moved, Counts, ← hstep]
    split_ifs with h
    · exact iff_of_true ⟨rfl, .inl h, trivial⟩ (.inl h)
    · constructor
      · rintro ⟨-, hlt, -⟩
        exact .inr (hlt.resolve_left (lt_irrefl _)).2
      · intro hlt
        exact ⟨rfl, .inr ⟨rfl, hlt.resolve_left h⟩, trivial⟩
  | receive wall remote =>
    have hr := he.2
    have hmax := isFloat_max hs.2 hr.2
    have hbound : le (ofStamp (moved s (.receive wall remote))).ts
        (mathMax (ofStamp s).ts (.finite (wall + hlcMaxFutureSkewMs : ℕ))) = true := by
      simp only [ofStamp, mathMax_natCast, le_natCast, moved]
      omega
    have hnode : (ofStamp (moved s (.receive wall remote))).nodeId = (ofStamp s).nodeId := rfl
    rw [Bounded, and_iff_left hbound, and_iff_right hnode, later_ofStamp, Stamp.time_lt_iff,
      Stamp.time_lt_iff, Counts, ← lt_inc_iff hs.2, ← lt_inc_iff hr.2, ← lt_inc_iff hmax]
    have hsle := le_inc hs.2
    have hrle := le_inc hr.2
    have hmle := le_inc hmax
    simp only [moved]
    set safe := min remote.ts (wall + hlcMaxFutureSkewMs)
    have hsafe : (remote.ts ≤ wall + hlcMaxFutureSkewMs ∧ safe = remote.ts) ∨
        (wall + hlcMaxFutureSkewMs < remote.ts ∧ safe = wall + hlcMaxFutureSkewMs) := by
      omega
    set top := max (max wall s.ts) safe
    have htop : wall ≤ top ∧ s.ts ≤ top ∧ safe ≤ top ∧
        (top = wall ∨ top = s.ts ∨ top = safe) := by
      omega
    set both := max s.counter remote.counter
    have hboth : s.counter ≤ both ∧ remote.counter ≤ both ∧
        (both = s.counter ∨ both = remote.counter) := by
      omega
    clear_value safe top both
    -- ties between the wall clock, the two times and the bound choose the branch
    split_ifs with htie hlocal hremote
    · obtain ⟨htop, htie⟩ := htie
      have heq : remote.ts = s.ts := htie.symm.trans htop
      constructor
      · rintro ⟨hown, hother⟩
        exact ⟨fun _ => by omega, fun hne => absurd heq hne.1, by omega⟩
      · rintro ⟨hboth', -, -⟩
        have hstep := hboth' ⟨heq, by omega⟩
        exact ⟨by omega, by omega⟩
    · have hne : remote.ts ≠ s.ts := fun heq => htie ⟨hlocal, hlocal.trans heq.symm⟩
      have hbelow : remote.ts ≤ wall + hlcMaxFutureSkewMs → remote.ts < top := by omega
      constructor
      · rintro ⟨hown, -⟩
        exact ⟨fun heq => absurd heq.1 hne, fun _ => by omega, by omega⟩
      · rintro ⟨-, hown, -⟩
        exact ⟨.inr ⟨hlocal.symm, hown (by omega)⟩, fun hle => .inl (hbelow hle)⟩
    · omega
    · omega

/-! ## Runs -/

/-- The clocks that a run of events shows, from the first on. -/
def clocks (s : Stamp Text) : List Event → List (Stamp Text)
  | [] => [s]
  | e :: rest => s :: clocks (moved s e) rest

/-- Every event of a run increments a counter that can step. -/
def CountsAll (s : Stamp Text) : List Event → Prop
  | [] => True
  | e :: rest => Counts s e ∧ CountsAll (moved s e) rest

/-- The clocks of a run are the ones that the functions of `hlc.ts` return. -/
theorem clocks_eq (hs : Floats s) {events : List Event} (he : ∀ e ∈ events, e.WellFormed) :
    (clocks s events).map ofStamp = events.scanl step (ofStamp s) := by
  induction events generalizing s with
  | nil => rfl
  | cons e events ih =>
    rw [List.forall_mem_cons] at he
    rw [clocks, List.map_cons, List.scanl_cons, ih (floats_moved hs he.1) he.2,
      step_ofStamp hs he.1]

theorem time_le_clocks (hs : Floats s) {events : List Event} (he : ∀ e ∈ events, e.WellFormed)
    (hcounts : CountsAll s events) :
    (∀ c ∈ clocks s events, s.time ≤ c.time) ∧
      (clocks s events).Pairwise fun a b => a.time < b.time := by
  induction events generalizing s with
  | nil =>
    refine ⟨fun c hc => ?_, List.pairwise_singleton _ _⟩
    rw [List.mem_singleton.mp hc]
  | cons e events ih =>
    rw [List.forall_mem_cons] at he
    have hlater := ((advances_iff_counts hs he.1).mpr hcounts.1).2.1
    rw [step_ofStamp hs he.1, later_ofStamp] at hlater
    obtain ⟨hle, hpairwise⟩ := ih (floats_moved hs he.1) he.2 hcounts.2
    have hrest : ∀ c ∈ clocks (moved s e) events, s.time < c.time :=
      fun c hc => lt_of_lt_of_le hlater (hle c hc)
    rw [clocks]
    refine ⟨fun c hc => ?_, List.pairwise_cons.mpr ⟨hrest, hpairwise⟩⟩
    rcases List.mem_cons.mp hc with rfl | hc
    · exact le_rfl
    · exact (hrest c hc).le

/-- **The clock moves forward exactly where its counter can.**  For every clock of floats and every
event, it advances if and only if the counter that is incremented can step; and along a run of such
events it is strictly increasing. -/
theorem advances_iff (s : {s : Stamp Text // Floats s}) :
    (∀ e : Event, e.WellFormed → (Advances (ofStamp s) e ↔ Counts s e)) ∧
    ∀ events : List Event, (∀ e ∈ events, e.WellFormed) → CountsAll s events →
      (events.scanl step (ofStamp s)).Pairwise Later := by
  obtain ⟨s, hs⟩ := s
  refine ⟨fun e he => advances_iff_counts hs he, fun events he hcounts => ?_⟩
  rw [← clocks_eq hs he, List.pairwise_map]
  exact (time_le_clocks hs he hcounts).2.imp fun {a b} hab => (later_ofStamp a b).mpr hab

/-- A clock whose counter is `2 ^ 53` stands still under a local event of the same millisecond. -/
theorem not_advances : ¬∀ (s : Stamp Text) (e : Event), Floats s → e.WellFormed →
    Advances (ofStamp s) e := by
  intro h
  have hfloat : IsFloat (2 ^ 53) := by
    refine ⟨nearest_mul_pow (m := 2 ^ 52) le_rfl (by norm_num) 1, ?_⟩
    exact Nat.pow_lt_pow_right Nat.one_lt_two (by decide)
  have hs : Floats ⟨1711785600000, 2 ^ 53, []⟩ := ⟨isFloat_of_lt (by norm_num), hfloat⟩
  have he : (Event.tick 1711785600000).WellFormed := by
    change 1711785600000 ≤ maxTime
    decide
  have hcounts := (advances_iff_counts hs he).mp (h _ _ hs he)
  rcases hcounts with hlt | hstep
  · exact absurd hlt (lt_irrefl _)
  · rcases hstep with hlt | hnext
    · exact absurd hlt (lt_irrefl _)
    · exact absurd hnext.2 (by norm_num)

end JsHlc

end Interocitor
