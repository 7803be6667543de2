import Interocitor.Foundation.CodeUnits
import Interocitor.Foundation.HybridClock

/-!
# `hlc.ts`: the hybrid logical clock and its serialized form

The functions of `packages/core/src/core/hlc.ts`.  A clock value holds two
JavaScript numbers; the ones that occur are natural numbers or `NaN`, the latter
because `hlcParse` reads them out of text that a peer wrote.  `Num` is that range,
with `none` for `NaN`, and every function below propagates `NaN` the way the
source's arithmetic and comparisons do.  `Date.now()` is the argument `wall`.

On clock values without `NaN` the functions are the abstract clock of
`Foundation.HybridClock`: `hlcNow_ofStamp` and `hlcReceive_ofStamp`.

Stamps travel as text.  `hlcCompareStr` compares two texts directly when both
have dashes where a 15-digit time and a 4-digit counter put them, and parses them
otherwise.  `hlcCompareStr_stampText` shows that on the texts `hlcSerialize`
produces the two ways are the same order, whatever the widths: a counter that has
outgrown four hexadecimal digits only moves the comparison to the second way.
-/

namespace Interocitor

open CodeUnits HybridClock List

/-- A JavaScript number that is a natural number or `NaN` (`none`). -/
abbrev Num := Option ℕ

/-- `HLC` of `types.ts`. -/
@[ext] structure Hlc where
  ts : Num
  counter : Num
  nodeId : Text
  deriving DecidableEq

/-- `HLC_MAX_FUTURE_SKEW_MS`: five minutes. -/
def hlcMaxFutureSkewMs : ℕ := 5 * 60 * 1000

/-- `"-"`. -/
def dash : CodeUnit := 45

/-- The `===` of two numbers: `NaN` equals nothing. -/
def numEq : Num → Num → Bool
  | some a, some b => decide (a = b)
  | _, _ => false

/-- `a + 1`. -/
def numSucc (a : Num) : Num := a.map (· + 1)

/-- `Math.max`, `Math.min`: `NaN` if an argument is. -/
def numMax (a b : Num) : Num := a.bind fun x => b.map (max x)

@[inherit_doc numMax]
def numMin (a b : Num) : Num := a.bind fun x => b.map (min x)

/-- `a - b`. -/
def numSub (a b : Num) : Option ℤ := a.bind fun x => b.map fun y : ℕ => (x : ℤ) - (y : ℤ)

/-- The tests `c > 0`, `c < 0` and `c <= 0`, all false of `NaN`. -/
def isPos (c : Option ℤ) : Bool := c.any fun z => decide (0 < z)

@[inherit_doc isPos]
def isNeg (c : Option ℤ) : Bool := c.any fun z => decide (z < 0)

@[inherit_doc isPos]
def isNonPos (c : Option ℤ) : Bool := c.any fun z => decide (z ≤ 0)

/-! ## The clock -/

/-- `hlcInit`. -/
def hlcInit (wall : ℕ) (nodeId : Text) : Hlc := ⟨some wall, some 0, nodeId⟩

/-- `hlcNow`: tick the local clock forward for a new local event. -/
def hlcNow (wall : ℕ) (clock : Hlc) : Hlc :=
  if clock.ts.any fun t => decide (t < wall) then ⟨some wall, some 0, clock.nodeId⟩
  else ⟨clock.ts, numSucc clock.counter, clock.nodeId⟩

/-- `hlcReceive`: merge a remote clock value into the local clock. -/
def hlcReceive (wall : ℕ) (clock remote : Hlc) : Hlc :=
  let safeRemoteTs := numMin remote.ts (some (wall + hlcMaxFutureSkewMs))
  let maxTs := numMax (numMax (some wall) clock.ts) safeRemoteTs
  let counter :=
    if numEq maxTs clock.ts && numEq maxTs remote.ts then
      numSucc (numMax clock.counter remote.counter)
    else if numEq maxTs clock.ts then numSucc clock.counter
    else if numEq maxTs safeRemoteTs then numSucc remote.counter
    else some 0
  ⟨maxTs, counter, clock.nodeId⟩

/-- `hlcCompare`. -/
def hlcCompare (a b : Hlc) : Option ℤ :=
  if !numEq a.ts b.ts then numSub a.ts b.ts
  else if !numEq a.counter b.counter then numSub a.counter b.counter
  else if a.nodeId < b.nodeId then some (-1)
  else if b.nodeId < a.nodeId then some 1
  else some 0

/-! ## The serialized form -/

/-- The text of a number: its numeral, or `"NaN"`. -/
def numText (base : ℕ) : Num → Text
  | some n => numeral base n
  | none => [78, 97, 78]

/-- `hlcSerialize`. -/
def hlcSerialize (hlc : Hlc) : Text :=
  padStart 15 (digitUnit 0) (numText 10 hlc.ts) ++
    (dash :: (padStart 4 (digitUnit 0) (numText 16 hlc.counter) ++ (dash :: hlc.nodeId)))

/-- `hlcParse`.  An index that `indexOf` does not find is `-1`, and `slice` reads a
negative end from the right: without a first dash the time and the counter are both
read from the text less its last unit, and without a second dash the node id is the
whole text. -/
def hlcParse (s : Text) : Hlc :=
  match s.idxOf? dash with
  | none => ⟨parseInt 10 s.dropLast, parseInt 16 s.dropLast, s⟩
  | some firstDash =>
    let rest := s.drop (firstDash + 1)
    match rest.idxOf? dash with
    | none => ⟨parseInt 10 (s.take firstDash), parseInt 16 (s.dropLast.drop (firstDash + 1)), s⟩
    | some gap =>
      ⟨parseInt 10 (s.take firstDash), parseInt 16 (rest.take gap), rest.drop (gap + 1)⟩

/-- Dashes at positions 15 and 20. -/
def canonicalShape (s : Text) : Bool :=
  decide (s[15]? = some dash) && decide (s[20]? = some dash)

/-- `hlcCompareStr`. -/
def hlcCompareStr (a b : Text) : Option ℤ :=
  if canonicalShape a && canonicalShape b then
    if a < b then some (-1) else if b < a then some 1 else some 0
  else hlcCompare (hlcParse a) (hlcParse b)

/-! ## Clock values without `NaN` -/

/-- The abstract clock value, as a record of the source. -/
def Hlc.ofStamp (s : Stamp Text) : Hlc := ⟨some s.ts, some s.counter, s.node⟩

theorem Hlc.ofStamp_injective : Function.Injective Hlc.ofStamp := by
  intro a b h
  simp only [Hlc.ofStamp, Hlc.mk.injEq, Option.some.injEq] at h
  exact Stamp.ext h.1 h.2.1 h.2.2

theorem hlcNow_ofStamp (wall : ℕ) (s : Stamp Text) :
    hlcNow wall (.ofStamp s) = .ofStamp (s.tick wall) := by
  rw [hlcNow, Stamp.tick, Hlc.ofStamp]
  by_cases h : s.ts < wall
  · simp [h, Hlc.ofStamp]
  · simp [h, Hlc.ofStamp, numSucc]

theorem hlcReceive_ofStamp (wall : ℕ) (s remote : Stamp Text) :
    hlcReceive wall (.ofStamp s) (.ofStamp remote) =
      .ofStamp (s.receive hlcMaxFutureSkewMs wall remote) := by
  simp only [hlcReceive, Hlc.ofStamp, Stamp.receive, numMin, numMax, numEq, numSucc,
    Option.bind_some, Option.map_some, max_assoc, Bool.and_eq_true, decide_eq_true_eq]
  split_ifs <;> rfl

theorem hlcCompare_ofStamp (a b : Stamp Text) :
    hlcCompare (.ofStamp a) (.ofStamp b) =
      if a.ts ≠ b.ts then some ((a.ts : ℤ) - b.ts)
      else if a.counter ≠ b.counter then some ((a.counter : ℤ) - b.counter)
      else if a.node < b.node then some (-1)
      else if b.node < a.node then some 1
      else some 0 := by
  simp only [hlcCompare, Hlc.ofStamp, numEq, numSub, Option.bind_some, Option.map_some,
    Bool.not_eq_true', decide_eq_false_iff_not, ne_eq]
  congr

/-- `hlcCompare` is the order of stamps. -/
theorem isPos_hlcCompare (a b : Stamp Text) :
    isPos (hlcCompare (.ofStamp a) (.ofStamp b)) = true ↔ b < a := by
  rw [hlcCompare_ofStamp, Stamp.lt_iff, isPos]
  split_ifs with h1 h2 h3 h4
  · simp
    omega
  · simp
    omega
  · have hn : ¬ b.node < a.node := lt_asymm h3
    simp [hn]
    omega
  · simp [h4]
    omega
  · simp [h4]
    omega

@[inherit_doc isPos_hlcCompare]
theorem isNeg_hlcCompare (a b : Stamp Text) :
    isNeg (hlcCompare (.ofStamp a) (.ofStamp b)) = true ↔ a < b := by
  rw [hlcCompare_ofStamp, Stamp.lt_iff, isNeg]
  split_ifs with h1 h2 h3 h4
  · simp
    omega
  · simp
    omega
  · simp [h3]
    omega
  · simp [h3]
    omega
  · simp [h3]
    omega

/-! ## Reading back what was serialized -/

/-- The text of a stamp. -/
def stampText (s : Stamp Text) : Text := hlcSerialize (.ofStamp s)

/-- The time part of a serialized stamp, and its counter part. -/
def timeText (s : Stamp Text) : Text := padStart 15 (digitUnit 0) (numeral 10 s.ts)

@[inherit_doc timeText]
def counterText (s : Stamp Text) : Text := padStart 4 (digitUnit 0) (numeral 16 s.counter)

theorem stampText_eq (s : Stamp Text) :
    stampText s = timeText s ++ dash :: (counterText s ++ dash :: s.node) := rfl

theorem dash_notMem_padStart (w n : ℕ) {b : ℕ} (hb : 1 < b) (hb' : b ≤ 16) :
    dash ∉ padStart w (digitUnit 0) (numeral b n) := by
  rw [padStart_numeral, mem_map]
  rintro ⟨d, hd, he⟩
  have hd16 : d < 16 := lt_of_lt_of_le (lt_of_mem_paddedDigits hb hd) hb'
  have hval := congrArg Fin.val he
  rw [val_digitUnit hd16] at hval
  have hdash : dash.val = 45 := rfl
  split_ifs at hval <;> omega

theorem idxOf?_dash {s t : Text} (h : dash ∉ s) : (s ++ dash :: t).idxOf? dash = some s.length := by
  rw [List.idxOf?, List.findIdx?_append, List.findIdx?_eq_none_iff.mpr, Option.none_or,
    List.findIdx?_cons]
  · simp
  · intro u hu
    simpa using fun he : u = dash => h (he ▸ hu)

/-- **A serialized stamp is read back**, whatever its node id contains. -/
theorem hlcParse_stampText (s : Stamp Text) : hlcParse (stampText s) = .ofStamp s := by
  have htime : dash ∉ timeText s := dash_notMem_padStart 15 s.ts (by omega) (by omega)
  have hcounter : dash ∉ counterText s := dash_notMem_padStart 4 s.counter (by omega) (by omega)
  have hdrop : (timeText s ++ dash :: (counterText s ++ dash :: s.node)).drop
      ((timeText s).length + 1) = counterText s ++ dash :: s.node := by
    rw [drop_append, drop_of_length_le (by omega)]
    simp
  simp only [hlcParse, stampText_eq, idxOf?_dash htime, hdrop, idxOf?_dash hcounter]
  rw [take_left, take_left, timeText, counterText,
    parseInt_padStart_numeral 15 s.ts (by omega) (by omega),
    parseInt_padStart_numeral 4 s.counter (by omega) (by omega), Hlc.ofStamp]
  rw [drop_append, drop_of_length_le (by omega)]
  simp

theorem stampText_injective : Function.Injective stampText := by
  intro a b h
  have hp := congrArg hlcParse h
  rw [hlcParse_stampText, hlcParse_stampText] at hp
  exact Hlc.ofStamp_injective hp

/-! ## The order of serialized stamps -/

/-- A stamp whose time and counter fit the fixed widths. -/
def Narrow (s : Stamp Text) : Prop := s.ts < 10 ^ 15 ∧ s.counter < 16 ^ 4

theorem length_timeText {s : Stamp Text} (h : s.ts < 10 ^ 15) : (timeText s).length = 15 := by
  rw [timeText, padStart_numeral, length_map]
  exact length_paddedDigits (by omega) (by omega) h

theorem length_counterText {s : Stamp Text} (h : s.counter < 16 ^ 4) :
    (counterText s).length = 4 := by
  rw [counterText, padStart_numeral, length_map]
  exact length_paddedDigits (by omega) (by omega) h

theorem getElem?_ne_dash {w n i : ℕ} {b : ℕ} (hb : 1 < b) (hb' : b ≤ 16) {t : Text}
    (h : i < (padStart w (digitUnit 0) (numeral b n)).length) :
    (padStart w (digitUnit 0) (numeral b n) ++ t)[i]? ≠ some dash := by
  rw [List.getElem?_append_left h, List.getElem?_eq_getElem h, Ne, Option.some.injEq]
  intro he
  exact dash_notMem_padStart w n hb hb' (he ▸ getElem_mem h)

theorem canonicalShape_stampText_iff (s : Stamp Text) :
    canonicalShape (stampText s) = true ↔ Narrow s := by
  rw [canonicalShape, Bool.and_eq_true, decide_eq_true_iff, decide_eq_true_iff, stampText_eq]
  by_cases hts : s.ts < 10 ^ 15
  · have hl := length_timeText hts
    have h15 : (timeText s ++ dash :: (counterText s ++ dash :: s.node))[15]? = some dash := by
      rw [List.getElem?_append_right (by omega), hl]
      rfl
    have h20 : (timeText s ++ dash :: (counterText s ++ dash :: s.node))[20]? =
        (counterText s ++ dash :: s.node)[4]? := by
      rw [List.getElem?_append_right (by omega), hl]
      rfl
    rw [h15, h20]
    by_cases hc : s.counter < 16 ^ 4
    · have hlc := length_counterText hc
      rw [List.getElem?_append_right (by omega), hlc]
      exact ⟨fun _ => ⟨hts, hc⟩, fun _ => ⟨rfl, rfl⟩⟩
    · refine ⟨fun h => absurd h.2 ?_, fun h => absurd h.2 hc⟩
      refine getElem?_ne_dash (b := 16) (by omega) (by omega) ?_
      rw [padStart_numeral, length_map]
      exact lt_length_paddedDigits (by omega) (by omega) (by omega)
  · refine ⟨fun h => absurd h.1 ?_, fun h => absurd h.1 hts⟩
    refine getElem?_ne_dash (b := 10) (by omega) (by omega) ?_
    rw [padStart_numeral, length_map]
    exact lt_length_paddedDigits (by omega) (by omega) (by omega)

theorem stampText_lt_iff {a b : Stamp Text} (ha : Narrow a) (hb : Narrow b) :
    stampText a < stampText b ↔ a < b := by
  have ht := padStart_numeral_lt_iff (b := 10) (by omega) (by omega) (by omega) ha.1 hb.1
  have ht' := padStart_numeral_lt_iff (b := 10) (by omega) (by omega) (by omega) hb.1 ha.1
  have hc := padStart_numeral_lt_iff (b := 16) (by omega) (by omega) (by omega) ha.2 hb.2
  have hc' := padStart_numeral_lt_iff (b := 16) (by omega) (by omega) (by omega) hb.2 ha.2
  have hteq : timeText a = timeText b ↔ a.ts = b.ts := by
    refine ⟨fun h => ?_, fun h => by rw [timeText, timeText, h]⟩
    rw [timeText, timeText] at h
    rw [h] at ht ht'
    have h1 := (not_congr ht).mp (lt_irrefl _)
    have h2 := (not_congr ht').mp (lt_irrefl _)
    omega
  have hceq : counterText a = counterText b ↔ a.counter = b.counter := by
    refine ⟨fun h => ?_, fun h => by rw [counterText, counterText, h]⟩
    rw [counterText, counterText] at h
    rw [h] at hc hc'
    have h1 := (not_congr hc).mp (lt_irrefl _)
    have h2 := (not_congr hc').mp (lt_irrefl _)
    omega
  rw [stampText_eq, stampText_eq,
    append_lt_append_iff ((length_timeText ha.1).trans (length_timeText hb.1).symm),
    cons_lt_cons_iff,
    append_lt_append_iff ((length_counterText ha.2).trans (length_counterText hb.2).symm),
    cons_lt_cons_iff, hteq, hceq, Stamp.lt_iff, timeText, timeText, ht, counterText,
    counterText, hc]
  simp

/-- **Serialized stamps order like the stamps**, in either way of comparing them. -/
theorem isPos_hlcCompareStr (a b : Stamp Text) :
    isPos (hlcCompareStr (stampText a) (stampText b)) = true ↔ b < a := by
  rw [hlcCompareStr]
  split_ifs with hshape h1 h2
  · rw [Bool.and_eq_true, canonicalShape_stampText_iff, canonicalShape_stampText_iff] at hshape
    rw [stampText_lt_iff hshape.1 hshape.2] at h1
    simpa [isPos] using h1.le
  · rw [Bool.and_eq_true, canonicalShape_stampText_iff, canonicalShape_stampText_iff] at hshape
    rw [stampText_lt_iff hshape.2 hshape.1] at h2
    simpa [isPos] using h2
  · rw [Bool.and_eq_true, canonicalShape_stampText_iff, canonicalShape_stampText_iff] at hshape
    rw [stampText_lt_iff hshape.2 hshape.1] at h2
    simpa [isPos] using not_lt.mp h2
  · rw [hlcParse_stampText, hlcParse_stampText]
    exact isPos_hlcCompare a b

@[inherit_doc isPos_hlcCompareStr]
theorem isNeg_hlcCompareStr (a b : Stamp Text) :
    isNeg (hlcCompareStr (stampText a) (stampText b)) = true ↔ a < b := by
  rw [hlcCompareStr]
  split_ifs with hshape h1 h2
  · rw [Bool.and_eq_true, canonicalShape_stampText_iff, canonicalShape_stampText_iff] at hshape
    rw [stampText_lt_iff hshape.1 hshape.2] at h1
    simpa [isNeg] using h1
  · rw [Bool.and_eq_true, canonicalShape_stampText_iff, canonicalShape_stampText_iff] at hshape
    rw [stampText_lt_iff hshape.1 hshape.2] at h1
    simpa [isNeg] using not_lt.mp h1
  · rw [Bool.and_eq_true, canonicalShape_stampText_iff, canonicalShape_stampText_iff] at hshape
    rw [stampText_lt_iff hshape.1 hshape.2] at h1
    simpa [isNeg] using not_lt.mp h1
  · rw [hlcParse_stampText, hlcParse_stampText]
    exact isNeg_hlcCompare a b

end Interocitor
