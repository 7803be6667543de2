import Interocitor.Foundation.GuardedCell
import Interocitor.Clock.Writes
import Interocitor.Worker.Paths

/-!
# `opPutSemantic`: the two objects that only move forward

The manifest pointer and the head file are overwritten, but not by anything older: a pointer
with a lower generation and a head with a smaller stamp are refused with status 409.  The host
reads the stored object in one database call and writes in another; a request that was let in
writes whatever has happened to the row in between.  Generations are compared as numbers,
stamps as texts.

So the row of one path is a guarded cell (`GuardedCell.Cell`), the check of which is `stale`.

* `forward_of_calm`: a row of meaningful objects never goes back in a run where no request
  writes over an object that it has not read, and no newer object is refused there.
-/

namespace Interocitor.Worker

open CodeUnits OrderedRecord HybridClock GuardedCell Option

/-- The bytes of an object. -/
abbrev Bytes := List UInt8

/-! ## Reading an object -/

/-- How an object is read: `JSON.parse` of its text, and what `Number` and `String` make of
values that are not numbers or strings already.  `none` is an exception. -/
structure Reading where
  parse : Bytes → Option JsValue
  numberOf : JsValue → Option JsNumber
  textOf : JsValue → Option Text

/-- A text in code units, if its characters have one each. -/
def unitsOf (s : Path) : Text := s.map fun c => Fin.ofNat 65536 c.toNat

/-- `"currentGeneration"`. -/
def generationKey : Path :=
  ['c', 'u', 'r', 'r', 'e', 'n', 't', 'G', 'e', 'n', 'e', 'r', 'a', 't', 'i', 'o', 'n']

/-- `"latestHlc"`. -/
def latestKey : Path := ['l', 'a', 't', 'e', 's', 't', 'H', 'l', 'c']

/-- `value?.[key]`, of a value that comes from JSON. -/
def property (value : JsValue) (key : Text) : JsValue :=
  match value with
  | .object fields => (find key fields).getD .undefined
  | _ => .undefined

/-- `<`, of numbers. -/
def numberLt : JsNumber → JsNumber → Bool
  | .nan, _ => false
  | _, .nan => false
  | .posInf, _ => false
  | _, .posInf => true
  | _, .negInf => false
  | .negInf, _ => true
  | .negZero, .negZero => false
  | .negZero, .finite q => decide (0 < q)
  | .finite p, .negZero => decide (p < 0)
  | .finite p, .finite q => decide (p < q)

namespace Reading

/-- `Number(value ?? -1)`. -/
def number (R : Reading) : JsValue → Option JsNumber
  | .undefined => some (.finite (-1))
  | .null => some (.finite (-1))
  | .bool b => some (.finite (if b then 1 else 0))
  | .number n => some n
  | value => R.numberOf value

/-- `String(value ?? "")`. -/
def text (R : Reading) : JsValue → Option Text
  | .undefined => some []
  | .null => some []
  | .string s => some s
  | value => R.textOf value

/-- The generation that the host reads in a pointer. -/
def generation (R : Reading) (bytes : Bytes) : Option JsNumber :=
  (R.parse bytes).bind fun json => R.number (property json (unitsOf generationKey))

/-- The stamp that the host reads in a head. -/
def latestHlc (R : Reading) (bytes : Bytes) : Option Text :=
  (R.parse bytes).bind fun json => R.text (property json (unitsOf latestKey))

/-- The check of `opPutSemantic`: whether the incoming object is refused.  An exception lets it
in. -/
def stale (R : Reading) (pathType : PathType) (existing incoming : Bytes) : Bool :=
  match R.parse existing, R.parse incoming with
  | some _, some _ =>
    if pathType = .manifestPointer then
      match R.generation existing, R.generation incoming with
      | some oldGen, some newGen => numberLt newGen oldGen
      | _, _ => false
    else if pathType = .head then
      match R.latestHlc existing, R.latestHlc incoming with
      | some oldHlc, some newHlc => decide (newHlc < oldHlc)
      | _, _ => false
    else false
  | _, _ => false

end Reading

/-! ## Order of what is read -/

/-- The place of a number in the order of numbers. -/
def numberRank : JsNumber → WithBot (WithTop ℚ)
  | .nan => ⊥
  | .negInf => ⊥
  | .posInf => ((⊤ : WithTop ℚ) : WithBot (WithTop ℚ))
  | .negZero => ((0 : ℚ) : WithTop ℚ)
  | .finite q => (q : WithTop ℚ)

theorem numberLt_iff {a b : JsNumber} (ha : a ≠ .nan) (hb : b ≠ .nan) :
    numberLt a b = true ↔ numberRank a < numberRank b := by
  have hfin : ∀ p q : ℚ, ((p : WithTop ℚ) : WithBot (WithTop ℚ)) < (q : WithTop ℚ) ↔ p < q :=
    fun p q => WithBot.coe_lt_coe.trans WithTop.coe_lt_coe
  have htop : ∀ p : ℚ, ((p : WithTop ℚ) : WithBot (WithTop ℚ)) < (⊤ : WithTop ℚ) :=
    fun p => WithBot.coe_lt_coe.mpr (WithTop.coe_lt_top p)
  cases a <;> cases b <;> simp only [numberLt, numberRank, ne_eq, reduceCtorEq, not_false_eq_true,
    not_true_eq_false, decide_eq_true_eq, lt_irrefl, not_lt_bot, hfin, htop, (htop _).not_gt,
    WithBot.bot_lt_coe] at *

namespace Reading

/-- The first object is behind the second. -/
def Behind (R : Reading) (pathType : PathType) (a b : Bytes) : Prop :=
  match pathType with
  | .manifestPointer =>
    ∃ m n, R.generation a = some m ∧ R.generation b = some n ∧ numberLt m n = true
  | .head =>
    ∃ s t, R.latestHlc a = some s ∧ R.latestHlc b = some t ∧ isNeg (hlcCompareStr s t) = true
  | _ => False

/-- The first object is strictly ahead of the second. -/
def Ahead (R : Reading) (pathType : PathType) (a b : Bytes) : Prop :=
  match pathType with
  | .manifestPointer =>
    ∃ m n, R.generation a = some m ∧ R.generation b = some n ∧ numberLt n m = true
  | .head =>
    ∃ s t, R.latestHlc a = some s ∧ R.latestHlc b = some t ∧ isPos (hlcCompareStr s t) = true
  | _ => False

/-- The host finds what it compares: a generation that is a number, or a stamp of the
documented width. -/
def Meaningful (R : Reading) (pathType : PathType) (bytes : Bytes) : Prop :=
  match pathType with
  | .manifestPointer => ∃ n, R.generation bytes = some n ∧ n ≠ .nan
  | .head => ∃ t, R.latestHlc bytes = some t ∧ Fits t
  | _ => True

variable {R : Reading}

theorem exists_parse_of_generation {bytes : Bytes} {n : JsNumber}
    (h : R.generation bytes = some n) : ∃ json, R.parse bytes = some json := by
  obtain ⟨json, hjson, -⟩ := bind_eq_some_iff.mp h
  exact ⟨json, hjson⟩

theorem exists_parse_of_latestHlc {bytes : Bytes} {t : Text}
    (h : R.latestHlc bytes = some t) : ∃ json, R.parse bytes = some json := by
  obtain ⟨json, hjson, -⟩ := bind_eq_some_iff.mp h
  exact ⟨json, hjson⟩

theorem stale_manifestPointer {existing incoming : Bytes} {oldGen newGen : JsNumber}
    (hold : R.generation existing = some oldGen) (hnew : R.generation incoming = some newGen) :
    R.stale .manifestPointer existing incoming = numberLt newGen oldGen := by
  obtain ⟨a, ha⟩ := exists_parse_of_generation hold
  obtain ⟨b, hb⟩ := exists_parse_of_generation hnew
  simp only [stale, ha, hb, hold, hnew, if_true]

theorem stale_head {existing incoming : Bytes} {oldHlc newHlc : Text}
    (hold : R.latestHlc existing = some oldHlc) (hnew : R.latestHlc incoming = some newHlc) :
    R.stale .head existing incoming = decide (newHlc < oldHlc) := by
  obtain ⟨a, ha⟩ := exists_parse_of_latestHlc hold
  obtain ⟨b, hb⟩ := exists_parse_of_latestHlc hnew
  simp only [stale, ha, hb, hold, hnew, if_true, reduceCtorEq, if_false]

/-- The place of a pointer among pointers. -/
def pointerRank (R : Reading) (bytes : Bytes) : WithBot (WithTop ℚ) :=
  numberRank ((R.generation bytes).getD .nan)

/-- The place of a head among heads. -/
def headRank (R : Reading) (bytes : Bytes) : Stamp Text := stampOf ((R.latestHlc bytes).getD [])

theorem stale_manifestPointer_iff {x y : Bytes} (hx : R.Meaningful .manifestPointer x)
    (hy : R.Meaningful .manifestPointer y) :
    R.stale .manifestPointer y x = true ↔ R.pointerRank x < R.pointerRank y := by
  obtain ⟨m, hm, hm'⟩ := hx
  obtain ⟨n, hn, hn'⟩ := hy
  rw [stale_manifestPointer hn hm, numberLt_iff hm' hn', pointerRank, pointerRank, hm, hn,
    getD_some, getD_some]

theorem stale_head_iff {x y : Bytes} (hx : R.Meaningful .head x) (hy : R.Meaningful .head y) :
    R.stale .head y x = true ↔ R.headRank x < R.headRank y := by
  obtain ⟨s, hs, hs'⟩ := hx
  obtain ⟨t, ht, ht'⟩ := hy
  rw [stale_head ht hs, decide_eq_true_eq, hs'.lt_iff ht', headRank, headRank, hs, ht,
    getD_some, getD_some]

variable {a b : Bytes}

theorem Behind.pointerRank_lt (ha : R.Meaningful .manifestPointer a)
    (hb : R.Meaningful .manifestPointer b) (h : R.Behind .manifestPointer a b) :
    R.pointerRank a < R.pointerRank b := by
  obtain ⟨m, n, hm, hn, hlt⟩ := h
  rwa [← stale_manifestPointer_iff ha hb, stale_manifestPointer hn hm]

theorem Ahead.behind_manifestPointer (h : R.Ahead .manifestPointer a b) :
    R.Behind .manifestPointer b a := by
  obtain ⟨m, n, hm, hn, hlt⟩ := h
  exact ⟨n, m, hn, hm, hlt⟩

theorem Behind.headRank_lt (ha : R.Meaningful .head a) (hb : R.Meaningful .head b)
    (h : R.Behind .head a b) : R.headRank a < R.headRank b := by
  obtain ⟨s, t, hs, ht, hneg⟩ := h
  obtain ⟨s', hs', st, rfl, -⟩ := ha
  obtain ⟨t', ht', st', rfl, -⟩ := hb
  obtain rfl := some.inj (hs.symm.trans hs')
  obtain rfl := some.inj (ht.symm.trans ht')
  rw [headRank, headRank, hs', ht', getD_some, getD_some, stampOf_stampText, stampOf_stampText]
  exact (isNeg_hlcCompareStr st st').mp hneg

theorem Ahead.headRank_lt (ha : R.Meaningful .head a) (hb : R.Meaningful .head b)
    (h : R.Ahead .head a b) : R.headRank b < R.headRank a := by
  obtain ⟨s, t, hs, ht, hpos⟩ := h
  obtain ⟨s', hs', st, rfl, -⟩ := ha
  obtain ⟨t', ht', st', rfl, -⟩ := hb
  obtain rfl := some.inj (hs.symm.trans hs')
  obtain rfl := some.inj (ht.symm.trans ht')
  rw [headRank, headRank, hs', ht', getD_some, getD_some, stampOf_stampText, stampOf_stampText]
  exact (isPos_hlcCompareStr st st').mp hpos

/-! ## The row of one path -/

/-- The row goes forward: no stored object is behind an earlier one, and no object was refused
that was strictly ahead of the stored one. -/
structure Forward (R : Reading) (pathType : PathType) (row : Cell Bytes) : Prop where
  stored : row.history.Pairwise fun newer older => ¬ R.Behind pathType newer older
  refused : ∀ r ∈ row.refused, ¬ R.Ahead pathType r.1 r.2

/-- A sound cell goes forward, if its rank sees what is behind and what is ahead. -/
theorem Forward.of_sound {pathType : PathType} {L : Type} [LinearOrder L] {rank : Bytes → L}
    {row : Cell Bytes} (h : row.Sound (R.Meaningful pathType) rank)
    (hbehind : ∀ {a b}, R.Meaningful pathType a → R.Meaningful pathType b →
      R.Behind pathType a b → rank a < rank b)
    (hahead : ∀ {a b}, R.Meaningful pathType a → R.Meaningful pathType b →
      R.Ahead pathType a b → rank b < rank a) : R.Forward pathType row where
  stored := by
    refine h.rising.imp_of_mem fun {newer older} hn ho hle hb => ?_
    exact absurd (hbehind (h.good_history newer hn) (h.good_history older ho) hb) (not_lt.mpr hle)
  refused := by
    intro r hr ha
    obtain ⟨⟨hx, hy⟩, hlt⟩ := h.behind r hr
    exact absurd (hahead hx hy ha) hlt.le.not_gt

/-- **A calm run keeps a row going forward.**  Requests to the manifest pointer or to the head
of a mesh come in any number and interleave in any way; the row is empty at first or holds a
meaningful object.  If each request brings a meaningful object, and writes only when the row
still holds what it read, then no stored object is behind an earlier one, and no request was
refused that was strictly ahead. -/
theorem forward_of_calm (R : Reading) (pathType : PathType)
    (hT : pathType = .manifestPointer ∨ pathType = .head) (row : Option Bytes)
    (hrow : ∀ bytes, row = some bytes → R.Meaningful pathType bytes) (actions : List (Action Bytes))
    (hcalm : (Cell.start row).CalmRun (R.stale pathType) (R.Meaningful pathType) actions) :
    R.Forward pathType ((Cell.start row).run (R.stale pathType) actions) := by
  rcases hT with rfl | rfl
  · have hstart : (Cell.start row).Sound (R.Meaningful .manifestPointer) R.pointerRank :=
      Cell.sound_start hrow
    have hsound := hstart.run (fun x y => stale_manifestPointer_iff) hcalm
    exact .of_sound hsound Behind.pointerRank_lt
      fun ha hb h => Behind.pointerRank_lt hb ha h.behind_manifestPointer
  · have hstart : (Cell.start row).Sound (R.Meaningful .head) R.headRank := Cell.sound_start hrow
    have hsound := hstart.run (fun x y => stale_head_iff) hcalm
    exact .of_sound hsound Behind.headRank_lt Ahead.headRank_lt

end Reading

/-! ## Some objects -/

/-- The bytes of `{"key":value}`, for a text of single bytes. -/
def objectBody (key value : Path) : Bytes :=
  (['{', '"'] ++ key ++ ['"', ':'] ++ value ++ ['}']).map fun c => UInt8.ofNat c.toNat

/-- `{"currentGeneration":d}`, for a digit. -/
def pointerBody (d : ℕ) : Bytes := objectBody generationKey [Char.ofNat (48 + d)]

/-- `{"latestHlc":"hlc"}`. -/
def headBody (hlc : Path) : Bytes := objectBody latestKey (['"'] ++ hlc ++ ['"'])

/-- `"000000000000001-"`. -/
def firstMilli : Path := ['0', '0', '0', '0', '0', '0', '0', '0', '0', '0', '0', '0', '0', '0', '1', '-']

/-- The last stamp of a millisecond with four counter digits. -/
def lastNarrow : Path := firstMilli ++ ['f', 'f', 'f', 'f', '-', 'a']

/-- The stamp after it. -/
def firstWide : Path := firstMilli ++ ['1', '0', '0', '0', '0', '-', 'a']

/-- `JSON.parse` on these objects. -/
def sampleReading : Reading where
  parse bytes :=
    (((List.range 10).find? fun d => decide (bytes = pointerBody d)).map fun d =>
      .object [(unitsOf generationKey, .number (.finite d))]).or
    (([lastNarrow, firstWide].find? fun hlc => decide (bytes = headBody hlc)).map fun hlc =>
      .object [(unitsOf latestKey, .string (unitsOf hlc))])
  numberOf _ := some .nan
  textOf _ := none

/-- Two requests read the pointer at generation 5; generation 7 is written first and then
generation 6.  And a head whose counter needs a fifth digit is refused. -/
theorem semantic_backwards :
    ¬ sampleReading.Forward .manifestPointer
      ((Cell.start (some (pointerBody 5))).run (sampleReading.stale .manifestPointer)
        [.read (pointerBody 7), .read (pointerBody 6), .write 1, .write 0]) ∧
    ¬ sampleReading.Forward .head
      ((Cell.start (some (headBody lastNarrow))).run (sampleReading.stale .head)
        [.read (headBody firstWide)]) := by
  constructor
  · intro h
    have hhistory : ((Cell.start (some (pointerBody 5))).run (sampleReading.stale .manifestPointer)
        [.read (pointerBody 7), .read (pointerBody 6), .write 1, .write 0]).history =
          [pointerBody 6, pointerBody 7, pointerBody 5] := by decide
    have hstored := h.stored
    rw [hhistory, List.pairwise_cons] at hstored
    exact hstored.1 _ (List.mem_cons_self ..)
      ⟨.finite 6, .finite 7, by decide, by decide, by decide⟩
  · intro h
    have hrefused : (headBody firstWide, headBody lastNarrow) ∈
        ((Cell.start (some (headBody lastNarrow))).run (sampleReading.stale .head)
          [.read (headBody firstWide)]).refused := by decide
    exact h.refused _ hrefused
      ⟨unitsOf firstWide, unitsOf lastNarrow, by decide, by decide, by decide⟩

/-- The pointer moves from generation 5 to generation 7, and generation 6 is refused. -/
theorem forward_of_calm_pointer :
    sampleReading.Forward .manifestPointer
      ((Cell.start (some (pointerBody 5))).run (sampleReading.stale .manifestPointer)
        [.read (pointerBody 7), .write 0, .read (pointerBody 6)]) := by
  have hgood : ∀ d ∈ [5, 6, 7], sampleReading.Meaningful .manifestPointer (pointerBody d) := by
    intro d hd
    refine ⟨.finite d, ?_, by simp⟩
    simp only [List.mem_cons, List.not_mem_nil, or_false] at hd
    rcases hd with rfl | rfl | rfl <;> decide
  refine Reading.forward_of_calm sampleReading .manifestPointer (.inl rfl) _ ?_ _ ?_
  · rintro bytes ⟨⟩
    exact hgood 5 (by simp)
  · refine ⟨hgood 7 (by simp), ?_, hgood 6 (by simp), trivial⟩
    intro w hw
    have hseen : ((Cell.start (some (pointerBody 5))).step (sampleReading.stale .manifestPointer)
        (.read (pointerBody 7))).waiting[0]? = some (pointerBody 7, some (pointerBody 5)) := by decide
    rw [hseen, some.injEq] at hw
    subst hw
    decide

end Interocitor.Worker
