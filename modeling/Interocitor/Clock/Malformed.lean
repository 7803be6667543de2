import Interocitor.Clock.Stamps
import Interocitor.Core.Numbers
import Interocitor.Core.PullWindow
import Interocitor.Native.Hlc

/-!
# Malformed stamps in a pull

`decodeChangePayload` looks at the outer shape of a change file and at its mesh, and `hlcParse`
never fails.  What a peer wrote as a stamp therefore reaches the clock as whatever numbers
`parseInt` reads out of it, and the rows as it stands.  The Python engine parses every stamp of a
change first and refuses the file if one is not in the form of the serializer.

A merge that throws is a rejection too, but a store that hands out the rows it holds has them half
merged by then.

The clock of this file has the numbers of JavaScript: a time or a counter that is no number is
`NaN`, one with too many digits is `Infinity`, one beyond `2 ^ 53` is rounded, and `Math.min`,
`Math.max`, `===` and the `+ 1` of the counter take these as they come.  The order of stamps is the
one of `Core.Hlc`; it decides which of two stamps a row keeps, and here it does not matter which.

* `malformed_stamps_iff`: payloads with given stamps are handled, whatever they are merged into, if
  and only if the entry's stamp keeps the clock and the stamps of the ops are in the form of the
  serializer.
-/

namespace Interocitor

open CodeUnits OrderedRecord Decimals Option

/-! ## Arithmetic -/

namespace JsNumber

/-- `n + 1`. -/
def plusOne : JsNumber → JsNumber
  | .finite q => rounded (q + 1)
  | .negZero => .finite 1
  | n => n

/-- `Math.min`: of two zeros the negative one. -/
def mathMin (a b : JsNumber) : JsNumber :=
  if a = .nan ∨ b = .nan then .nan
  else if a.lt b then a
  else if b.lt a then b
  else if a = .negZero then a
  else b

/-- `Math.max`: of two zeros the positive one. -/
def mathMax (a b : JsNumber) : JsNumber :=
  if a = .nan ∨ b = .nan then .nan
  else if a.lt b then b
  else if b.lt a then a
  else if a = .negZero then b
  else a

/-- A float that is a non-negative integer. -/
def Natural (n : JsNumber) : Prop := ∃ k : ℕ, n = .finite k ∧ nearest k = k ∧ k < 2 ^ 1024

theorem rounded_natCast (n : ℕ) :
    rounded n = if nearest n < 2 ^ 1024 then .finite (nearest n) else .posInf := by
  have hneg : ¬(n : ℚ) < 0 := not_lt.mpr (Nat.cast_nonneg n)
  have hcast : (nearest n : ℚ) < 2 ^ 1024 ↔ nearest n < 2 ^ 1024 := by exact_mod_cast Iff.rfl
  rw [rounded, Nat.abs_cast, nearestFloat_natCast_eq]
  simp only [hcast, if_neg hneg]

variable {n : ℕ}

theorem natural_rounded (h : nearest n < 2 ^ 1024) : Natural (rounded n) := by
  rw [rounded_natCast, if_pos h]
  exact ⟨nearest n, rfl, nearest_nearest n, h⟩

theorem rounded_natCast_cases (n : ℕ) : rounded n = .posInf ∨ Natural (rounded n) := by
  by_cases h : nearest n < 2 ^ 1024
  · exact .inr (natural_rounded h)
  · rw [rounded_natCast, if_neg h]
    exact .inl rfl

theorem lt_bound (h : n < 2 ^ 53) : n < 2 ^ 1024 :=
  Nat.lt_of_lt_of_le h (Nat.pow_le_pow_right Nat.two_pos (by omega : 53 ≤ 1024))

theorem natural_of_lt (h : n < 2 ^ 53) : Natural (.finite n) :=
  ⟨n, rfl, nearest_of_lt h, lt_bound h⟩

theorem rounded_of_lt (h : n < 2 ^ 53) : rounded n = .finite n := by
  rw [rounded_natCast, nearest_of_lt h, if_pos (lt_bound h)]

theorem Natural.ne_nan {n : JsNumber} (h : Natural n) : n ≠ .nan := by
  obtain ⟨k, rfl, -⟩ := h
  exact JsNumber.noConfusion

theorem not_natural_posInf : ¬Natural .posInf := by
  rintro ⟨k, hk, -⟩
  exact JsNumber.noConfusion hk

theorem natural_plusOne {n : JsNumber} (h : Natural n) : Natural n.plusOne := by
  obtain ⟨k, rfl, hfloat, hlt⟩ := h
  have hcast : plusOne (.finite k) = rounded ((k + 1 : ℕ) : ℚ) := by
    rw [plusOne, Nat.cast_succ]
  rw [hcast]
  exact natural_rounded (nearest_succ_lt (by norm_num) hfloat hlt)

variable {a b : JsNumber}

theorem mathMin_eq_or (ha : a ≠ .nan) (hb : b ≠ .nan) : mathMin a b = a ∨ mathMin a b = b := by
  rw [mathMin, if_neg (not_or.mpr ⟨ha, hb⟩)]
  split_ifs
  · exact .inl rfl
  · exact .inr rfl
  · exact .inl rfl
  · exact .inr rfl

theorem mathMax_eq_or (ha : a ≠ .nan) (hb : b ≠ .nan) : mathMax a b = a ∨ mathMax a b = b := by
  rw [mathMax, if_neg (not_or.mpr ⟨ha, hb⟩)]
  split_ifs
  · exact .inr rfl
  · exact .inl rfl
  · exact .inr rfl
  · exact .inl rfl

theorem natural_mathMax (ha : Natural a) (hb : Natural b) : Natural (mathMax a b) := by
  rcases mathMax_eq_or ha.ne_nan hb.ne_nan with h | h
  · rw [h]
    exact ha
  · rw [h]
    exact hb

theorem natural_mathMin (ha : a = .posInf ∨ Natural a) (hb : Natural b) :
    Natural (mathMin a b) := by
  rcases ha with rfl | ha
  · obtain ⟨k, rfl, hk⟩ := hb
    exact ⟨k, rfl, hk⟩
  · rcases mathMin_eq_or ha.ne_nan hb.ne_nan with h | h
    · rw [h]
      exact ha
    · rw [h]
      exact hb

theorem lt_natCast (a b : ℕ) : lt (.finite a) (.finite b) = true ↔ a < b := by
  rw [lt_iff rfl rfl]
  exact Nat.cast_lt

theorem le_natCast (a b : ℕ) : le (.finite a) (.finite b) = true ↔ a ≤ b := by
  rw [le_iff rfl rfl]
  exact Nat.cast_le

theorem same_natCast (a b : ℕ) : same (.finite a) (.finite b) = true ↔ a = b := by
  rw [same_iff]
  simp [extended]

theorem mathMax_natCast (a b : ℕ) : mathMax (.finite a) (.finite b) = .finite (max a b : ℕ) := by
  rw [mathMax, if_neg (by simp)]
  simp only [lt_natCast]
  rcases lt_trichotomy a b with h | rfl | h
  · rw [if_pos h, max_eq_right h.le]
  · rw [if_neg (lt_irrefl a), if_neg (lt_irrefl a), max_self, if_neg (by simp)]
  · rw [if_neg h.asymm, if_pos h, max_eq_left h.le]

theorem mathMin_natCast (a b : ℕ) : mathMin (.finite a) (.finite b) = .finite (min a b : ℕ) := by
  rw [mathMin, if_neg (by simp)]
  simp only [lt_natCast]
  rcases lt_trichotomy a b with h | rfl | h
  · rw [if_pos h, min_eq_left h.le]
  · rw [if_neg (lt_irrefl a), if_neg (lt_irrefl a), min_self, if_neg (by simp)]
  · rw [if_neg h.asymm, if_pos h, min_eq_right h.le]

theorem natural_plusOne_iff {n : JsNumber} (h : n = .nan ∨ n = .posInf ∨ Natural n) :
    Natural n.plusOne ↔ n.isFinite = true := by
  rcases h with rfl | rfl | h
  · exact ⟨fun h => absurd rfl h.ne_nan, fun h => absurd h Bool.false_ne_true⟩
  · exact ⟨fun h => absurd h not_natural_posInf, fun h => absurd h Bool.false_ne_true⟩
  · refine ⟨fun _ => ?_, fun _ => natural_plusOne h⟩
    obtain ⟨k, rfl, -⟩ := h
    rfl

theorem natural_plusOne_mathMax_iff {n : JsNumber} (ha : Natural a)
    (h : n = .nan ∨ n = .posInf ∨ Natural n) :
    Natural (mathMax a n).plusOne ↔ n.isFinite = true := by
  rcases h with rfl | rfl | h
  · rw [mathMax, if_pos (Or.inr rfl)]
    exact natural_plusOne_iff (.inl rfl)
  · have hmax : mathMax a .posInf = .posInf := by
      obtain ⟨k, rfl, -⟩ := ha
      rfl
    rw [hmax]
    exact natural_plusOne_iff (.inr (.inl rfl))
  · rw [← natural_plusOne_iff (.inr (.inr h))]
    exact ⟨fun _ => natural_plusOne h, fun _ => natural_plusOne (natural_mathMax ha h)⟩

/-- A number of `parseInt`, as a float. -/
def ofNum : Num → JsNumber
  | none => .nan
  | some n => rounded n

theorem ofNum_cases (n : Num) : ofNum n = .nan ∨ ofNum n = .posInf ∨ Natural (ofNum n) := by
  cases n with
  | none => exact .inl rfl
  | some n => exact .inr (rounded_natCast_cases n)

end JsNumber

/-! ## The clock -/

/-- `HLC` of `types.ts`, with the numbers of JavaScript. -/
structure JsHlc where
  ts : JsNumber
  counter : JsNumber
  nodeId : Text

namespace JsHlc

open JsNumber

/-- `hlcParse`. -/
def parse (s : Text) : JsHlc :=
  ⟨ofNum (hlcParse s).ts, ofNum (hlcParse s).counter, (hlcParse s).nodeId⟩

/-- `safeRemoteTs` of `hlcReceive`. -/
def safeRemoteTs (wall : ℕ) (remote : JsHlc) : JsNumber :=
  mathMin remote.ts (rounded (wall + hlcMaxFutureSkewMs : ℕ))

/-- `hlcReceive`. -/
def receive (wall : ℕ) (clock remote : JsHlc) : JsHlc :=
  let maxTs := mathMax (mathMax (.finite wall) clock.ts) (safeRemoteTs wall remote)
  let counter :=
    if maxTs.same clock.ts && maxTs.same remote.ts then
      (mathMax clock.counter remote.counter).plusOne
    else if maxTs.same clock.ts then clock.counter.plusOne
    else if maxTs.same (safeRemoteTs wall remote) then remote.counter.plusOne
    else .finite 0
  ⟨maxTs, counter, clock.nodeId⟩

/-- The latest time that `Date.now()` can return. -/
def maxTime : ℕ := 8640000000000000

/-- The remote time is the clock's, or comes after it, and the wall clock does not come later: the
counter is read. -/
def Leads (wall : ℕ) (clock remote : JsHlc) : Prop :=
  (clock.ts.same remote.ts = true ∧ le (.finite wall) clock.ts = true) ∨
    (clock.ts.lt (safeRemoteTs wall remote) = true ∧
      le (.finite wall) (safeRemoteTs wall remote) = true)

/-- The time of a remote stamp is a number, and so is its counter where it is read. -/
def KeepsClock (wall : ℕ) (clock remote : JsHlc) : Prop :=
  remote.ts ≠ .nan ∧ (Leads wall clock remote → remote.counter.isFinite = true)

/-- The numbers of a stamp, as JavaScript has them. -/
def ofStamp (s : HybridClock.Stamp Text) : JsHlc := ⟨.finite s.ts, .finite s.counter, s.node⟩

theorem rounded_bound {wall : ℕ} (h : wall ≤ maxTime) :
    rounded ((wall + hlcMaxFutureSkewMs : ℕ) : ℚ) =
      .finite (wall + hlcMaxFutureSkewMs : ℕ) := by
  refine rounded_of_lt ?_
  rw [maxTime] at h
  rw [hlcMaxFutureSkewMs]
  omega

/-- **When the clock keeps its numbers.** -/
theorem natural_receive_iff {wall : ℕ} (hwall : wall ≤ maxTime) {clock : JsHlc}
    (hts : Natural clock.ts) (hcounter : Natural clock.counter) (s : Text) :
    (Natural (receive wall clock (parse s)).ts ∧ Natural (receive wall clock (parse s)).counter) ↔
      KeepsClock wall clock (parse s) := by
  have hcounter' := ofNum_cases (hlcParse s).counter
  set remote := parse s with hremote
  change remote.counter = _ ∨ remote.counter = _ ∨ Natural remote.counter at hcounter'
  have hsum := rounded_bound hwall
  have hbound : Natural (.finite (wall + hlcMaxFutureSkewMs : ℕ)) := by
    refine natural_of_lt ?_
    rw [maxTime] at hwall
    rw [hlcMaxFutureSkewMs]
    omega
  have hwallNatural : Natural (.finite wall) := by
    refine natural_of_lt ?_
    rw [maxTime] at hwall
    omega
  by_cases hnan : remote.ts = .nan
  · -- `NaN` is the result of both bounds, and becomes the time
    refine iff_of_false (fun h => ?_) fun h => h.1 hnan
    refine h.1.ne_nan ?_
    rw [receive, safeRemoteTs, hnan, mathMin, if_pos (Or.inl rfl)]
    dsimp only
    rw [mathMax, if_pos (Or.inr rfl)]
  have hremoteTs : remote.ts = .posInf ∨ Natural remote.ts :=
    (ofNum_cases (hlcParse s).ts).resolve_left hnan
  have hsafe : Natural (safeRemoteTs wall remote) := by
    rw [safeRemoteTs, hsum]
    exact natural_mathMin hremoteTs hbound
  have htime : Natural (receive wall clock remote).ts :=
    natural_mathMax (natural_mathMax hwallNatural hts) hsafe
  rw [KeepsClock, and_iff_right htime, and_iff_right hnan]
  obtain ⟨t, ht, -⟩ := hts
  obtain ⟨k, hk, -⟩ := hsafe
  have hmax : mathMax (mathMax (.finite wall) clock.ts) (safeRemoteTs wall remote) =
      .finite (max (max wall t) k : ℕ) := by
    rw [ht, hk, mathMax_natCast, mathMax_natCast]
  have hequal : clock.ts.same remote.ts = true → k ≤ t := by
    intro hsame
    obtain hinf | ⟨r, hr, -⟩ := hremoteTs
    · rw [ht, hinf, same_iff] at hsame
      exact absurd hsame.2 (by simp [extended])
    · rw [ht, hr, same_natCast] at hsame
      rw [safeRemoteTs, hr, hsum, mathMin_natCast, JsNumber.finite.injEq, Nat.cast_inj] at hk
      omega
  have hleads : Leads wall clock remote ↔
      (clock.ts.same remote.ts = true ∧ wall ≤ t) ∨ (t < k ∧ wall ≤ k) := by
    rw [Leads, hk, ht, lt_natCast, le_natCast, le_natCast]
  have hcounterEq : (receive wall clock remote).counter =
      if max (max wall t) k = t then
        if clock.ts.same remote.ts then (mathMax clock.counter remote.counter).plusOne
        else clock.counter.plusOne
      else if max (max wall t) k = k then remote.counter.plusOne
      else .finite 0 := by
    rw [receive]
    dsimp only
    rw [hmax, hk, ht]
    by_cases hlocal : max (max wall t) k = t
    · rw [hlocal, (same_natCast t t).mpr rfl, Bool.true_and, if_pos rfl, if_pos rfl]
    · have hne : same (.finite (max (max wall t) k : ℕ)) (.finite t) = false :=
        Bool.eq_false_iff.mpr fun h => hlocal ((same_natCast _ _).mp h)
      rw [hne, Bool.false_and, if_neg Bool.false_ne_true, if_neg Bool.false_ne_true, if_neg hlocal]
      simp only [same_natCast]
  rw [hcounterEq, hleads]
  split_ifs with hlocal hsame hsafe'
  · rw [natural_plusOne_mathMax_iff hcounter hcounter', imp_iff_right (Or.inl ⟨hsame, by omega⟩)]
  · refine iff_of_true (natural_plusOne hcounter) fun hlead => ?_
    rcases hlead with hlead | hlead
    · exact absurd hlead.1 hsame
    · omega
  · rw [natural_plusOne_iff hcounter', imp_iff_right (Or.inr (by omega))]
  · refine iff_of_true (natural_of_lt (n := 0) (by norm_num)) fun hlead => ?_
    rcases hlead with hlead | hlead
    · have := hequal hlead.1
      omega
    · omega

end JsHlc

/-! ## One turn of the loop -/

namespace Malformed

open JsNumber JsHlc

/-- What the loop of `pull` works on. -/
structure Progress where
  store : LocalStore
  hlc : JsHlc
  ledger : ChangeObservationLedger

/-- How a turn ends, and what it leaves behind: a rejection fails the pull, whose clock is then
lost. -/
inductive Turn where
  | rejected (p : Progress)
  | applied (p : Progress)

/-- One turn of the loop: decode, advance the clock, merge, observe. -/
def receiveFile (handed : HandedOut) (manifest : Option Manifest)
    (schema : Option DatabaseSchemaDefinition) (wall : ℕ) (name : Text) (content : Content)
    (p : Progress) : Turn :=
  match PullWindow.decoded manifest p.store content with
  | none => .rejected p
  | some (store, entry) =>
    let v := (manifest.map fun m => m.schema).getD 1
    match mergeEntry store entry v schema with
    | .error _ => .rejected { p with store := handed.afterThrow store entry v schema }
    | .ok merged =>
      match p.ledger.observe name entry.hlc with
      | none => .rejected { p with store := merged }
      | some ledger => .applied ⟨merged, receive wall p.hlc (parse entry.hlc), ledger⟩

/-! ## What a turn is asked to do -/

/-- In the form of the serializer, as `hlc_parse` of the Python engine requires. -/
def Canonical (t : Text) : Prop := (Native.Python.hlcParse t).isSome = true

/-- All stamps of a row are canonical. -/
def CanonicalRow (row : Row) : Prop := row.Has Canonical fun entry => Canonical entry.hlc

/-- All stamps of the rows of a store are canonical. -/
def CanonicalRows (store : LocalStore) : Prop :=
  ∀ key row, store.rows.get key = some row → CanonicalRow row

/-- The clock has non-negative integers and the rows have canonical stamps. -/
structure Sound (p : Progress) : Prop where
  ts : Natural p.hlc.ts
  counter : Natural p.hlc.counter
  stamps : CanonicalRows p.store

/-- A rejected entry leaves the clock, the rows and the receipts; an applied one leaves a sound
state. -/
def Handled (p : Progress) : Turn → Prop
  | .rejected q => q.hlc = p.hlc ∧ q.store.rows = p.store.rows ∧ q.ledger = p.ledger ∧
      q.store.metadata.hlc = p.store.metadata.hlc ∧
      q.store.metadata.changeObservation = p.store.metadata.changeObservation
  | .applied q => Sound q

theorem decoded_cases (manifest : Option Manifest) (store : LocalStore) (meshId : Text)
    (entry : ChangeEntry) :
    PullWindow.decoded manifest store (.change meshId entry) = none ∨
      PullWindow.decoded manifest store (.change meshId entry) =
        some ({ store with
          metadata := { store.metadata with meshId := some meshId } }, entry) := by
  rw [PullWindow.decoded]
  split_ifs
  · exact .inl rfl
  · split
    · exact .inl rfl
    · exact .inr rfl

/-- A column is looked up as a property of the schema. -/
def OwnColumn (schema : Option DatabaseSchemaDefinition) (table field : Text) : Prop :=
  HasFields schema table → field ∉ inheritedNames

/-- The payloads in question: recorded under their names, merged under names that plain objects do
not inherit by functions that keep canonical stamps, and without a conflict where the store hands
out the rows that it holds. -/
structure Regular (handed : HandedOut) (manifest : Option Manifest)
    (schema : Option DatabaseSchemaDefinition) (name : Text) (entry : ChangeEntry)
    (store : LocalStore) : Prop where
  merges : MergesKeep (OwnColumn schema) (fun entry => Canonical entry.hlc) schema
  name : isRecordable name = true
  ordinary : ∀ op ∈ entry.ops, op.Ordinary
  own : ∀ op ∈ entry.ops, op.Within (OwnColumn schema)
  whole : handed = .copies ∨ ∃ merged,
    mergeEntry store entry ((manifest.map fun m => m.schema).getD 1) schema = .ok merged

theorem has_of_stamps {op : Op} (h : ∀ t ∈ op.stamps, Canonical t) :
    op.Has Canonical fun entry => Canonical entry.hlc := by
  cases op with
  | delete table rowId hlc => exact h hlc (List.mem_singleton_self hlc)
  | upsert table rowId columns =>
    exact fun entry hentry => h _ (List.mem_map.mpr ⟨entry, hentry, rfl⟩)

/-- Stamps that keep the clock and are canonical are handled. -/
theorem handled_of_canonical {handed : HandedOut} {manifest : Option Manifest}
    {schema : Option DatabaseSchemaDefinition} {wall : ℕ} (hwall : wall ≤ maxTime)
    {name meshId : Text} {entry : ChangeEntry} {p : Progress} (hp : Sound p)
    (hregular : Regular handed manifest schema name entry p.store)
    (hclock : KeepsClock wall p.hlc (parse entry.hlc)) (hstamps : ∀ t ∈ entry.stamps, Canonical t) :
    Handled p (receiveFile handed manifest schema wall name (.change meshId entry) p) := by
  rcases decoded_cases manifest p.store meshId entry with h | h
  · rw [receiveFile, h]
    exact ⟨rfl, rfl, rfl, rfl, rfl⟩
  · rw [receiveFile, h]
    dsimp only
    split
    · rename_i hfails
      rcases hregular.whole with rfl | ⟨merged, hmerged⟩
      · exact ⟨rfl, rfl, rfl, rfl, rfl⟩
      · -- the merge reads the rows only, so it does not fail here either
        have hrows : p.store.rows = { p.store with
          metadata := { p.store.metadata with meshId := some meshId } }.rows := rfl
        rw [mergeEntry_congr hrows hmerged] at hfails
        exact absurd hfails (by simp)
    · rename_i merged hmerged
      obtain ⟨ledger, hledger⟩ :=
        ChangeObservationLedger.exists_observe p.ledger entry.hlc hregular.name
      rw [hledger]
      obtain ⟨hts, hcounter⟩ := (natural_receive_iff hwall hp.ts hp.counter entry.hlc).mpr hclock
      refine ⟨hts, hcounter, keeps_mergeEntry hregular.merges ?_ (fun op hop => ?_) hmerged⟩
      · exact hp.stamps
      · refine ⟨has_of_stamps fun t ht => hstamps t ?_, hregular.own op hop⟩
        exact List.mem_flatMap.mpr ⟨op, hop, ht⟩

/-! ## Payloads that are not handled -/

/-- A store whose mesh is known. -/
def joinedTo (store : LocalStore) : LocalStore :=
  { store with metadata := { store.metadata with meshId := some [109] } }

/-- The change file of an entry under a mesh id that every new store accepts, merged into an empty
store. -/
theorem receiveFile_empty (handed : HandedOut) (wall : ℕ) (clock : JsHlc) {name : Text}
    (hname : isRecordable name = true) {entry : ChangeEntry} {merged : LocalStore}
    (hmerge : mergeEntry (joinedTo .empty) entry 1 none = .ok merged) :
    ∃ ledger, receiveFile handed none none wall name (.change [109] entry)
      ⟨.empty, clock, .load none⟩ =
        .applied ⟨merged, receive wall clock (parse entry.hlc), ledger⟩ := by
  obtain ⟨ledger, hledger⟩ :=
    ChangeObservationLedger.exists_observe (.load none) entry.hlc hname
  refine ⟨ledger, ?_⟩
  have hdecoded : PullWindow.decoded none .empty (.change [109] entry) =
      some ((joinedTo .empty), entry) := rfl
  rw [receiveFile, hdecoded]
  dsimp only
  rw [map_none, getD_none, hmerge]
  dsimp only
  rw [hledger]

/-- A change that writes one column of one row under a stamp. -/
def oneColumn (hlc t : Text) : ChangeEntry :=
  ⟨[], 0, [], hlc, [.upsert [] [] ((∅ : Record Text ColumnEntry).set [] ⟨.null, t⟩)]⟩

theorem stamps_oneColumn (hlc t : Text) : (oneColumn hlc t).stamps = [t] := rfl

theorem ordinary_oneColumn (hlc t : Text) : ∀ op ∈ (oneColumn hlc t).ops, op.Ordinary := by
  intro op hop
  obtain rfl := List.mem_singleton.mp hop
  exact ⟨show ([] : Text) ∉ inheritedNames by decide, show ([] : Text) ∉ inheritedNames by decide,
    show protoName ∉ [([] : Text)] by decide⟩

theorem mergeEntry_oneColumn (hlc t : Text) :
    ∃ merged, mergeEntry (joinedTo .empty) (oneColumn hlc t) 1 none = .ok merged ∧
      (CanonicalRows merged → Canonical t) := by
  refine ⟨_, rfl, fun hrows => ?_⟩
  have hrow := hrows (LocalStore.rowKey [] []) _ (Record.get_set_self _ _ _)
  exact hrow.columns [] ⟨.null, t⟩ (Record.get_set_self _ _ _)

/-! ## Exactly when -/

/-- The regular payloads whose entry has a given stamp and whose ops have stamps in a given set are
all handled, whatever sound rows they are merged into. -/
def HandlesStamps (handed : HandedOut) (wall : ℕ) (clock : JsHlc) (hlc : Text)
    (stamps : Set Text) : Prop :=
  ∀ (manifest : Option Manifest) (schema : Option DatabaseSchemaDefinition) (name meshId : Text)
    (entry : ChangeEntry) (store : LocalStore) (ledger : ChangeObservationLedger),
    Regular handed manifest schema name entry store → entry.hlc = hlc →
    (∀ t ∈ entry.stamps, t ∈ stamps) → CanonicalRows store →
      Handled ⟨store, clock, ledger⟩
        (receiveFile handed manifest schema wall name (.change meshId entry) ⟨store, clock, ledger⟩)

theorem canonicalRows_empty : CanonicalRows .empty := fun _ _ hget =>
  absurd hget (by simp [LocalStore.empty])

/-- What is handled ends in a sound state when it is merged into an empty store. -/
theorem HandlesStamps.sound {handed : HandedOut} {wall : ℕ} {clock : JsHlc} {stamps : Set Text}
    (entry : ChangeEntry) (h : HandlesStamps handed wall clock entry.hlc stamps)
    (hordinary : ∀ op ∈ entry.ops, op.Ordinary) (hin : ∀ t ∈ entry.stamps, t ∈ stamps)
    {merged : LocalStore} (hmerge : mergeEntry (joinedTo .empty) entry 1 none = .ok merged) :
    ∃ ledger, Sound ⟨merged, receive wall clock (parse entry.hlc), ledger⟩ := by
  have hname : isRecordable changeMarker = true := by decide
  have hempty : ∃ merged', mergeEntry .empty entry 1 none = .ok merged' :=
    ⟨_, mergeEntry_congr (s := (joinedTo .empty)) (t := .empty) rfl hmerge⟩
  have hown : ∀ table field, OwnColumn none table field := by
    rintro table field ⟨c, hc, -⟩
    exact absurd hc (by simp)
  have hregular : Regular handed none none changeMarker entry .empty :=
    ⟨mergesKeep_none _ _, hname, hordinary, fun _ _ _ _ => hown _ _, .inr hempty⟩
  obtain ⟨ledger, hturn⟩ := receiveFile_empty handed wall clock hname hmerge
  have hhandled := h none none changeMarker [109] entry .empty (.load none) hregular rfl hin
    canonicalRows_empty
  rw [hturn] at hhandled
  exact ⟨ledger, hhandled⟩

/-- **Malformed stamps are handled exactly if they do no harm:** for every store, every wall clock
and every clock of non-negative integers, payloads with given stamps are handled if and only if the
entry's stamp keeps the clock and the stamps of the ops are canonical. -/
theorem malformed_stamps_iff (handed : HandedOut) {wall : ℕ} (hwall : wall ≤ maxTime)
    {clock : JsHlc} (hts : Natural clock.ts) (hcounter : Natural clock.counter) (hlc : Text)
    (stamps : Set Text) :
    HandlesStamps handed wall clock hlc stamps ↔
      KeepsClock wall clock (parse hlc) ∧ ∀ t ∈ stamps, Canonical t := by
  constructor
  · intro h
    constructor
    · -- an entry without ops shows what becomes of the clock
      obtain ⟨ledger, hclock⟩ := HandlesStamps.sound ⟨[], 0, [], hlc, []⟩ h
        (fun op hop => absurd hop List.not_mem_nil) (fun t ht => absurd ht List.not_mem_nil) rfl
      exact (natural_receive_iff hwall hts hcounter hlc).mp ⟨hclock.ts, hclock.counter⟩
    · -- an entry with one column stores the column's stamp
      intro t ht
      obtain ⟨merged, hmerge, hstored⟩ := mergeEntry_oneColumn hlc t
      have hin : ∀ t' ∈ (oneColumn hlc t).stamps, t' ∈ stamps := by
        intro t' ht'
        rw [stamps_oneColumn, List.mem_singleton] at ht'
        exact ht' ▸ ht
      obtain ⟨ledger, hrows⟩ := HandlesStamps.sound (oneColumn hlc t) h
        (ordinary_oneColumn hlc t) hin hmerge
      exact hstored hrows.stamps
  · rintro ⟨hclock, hcanonical⟩ manifest schema name meshId entry store ledger hregular rfl hin
      hstore
    exact handled_of_canonical hwall ⟨hts, hcounter, hstore⟩ hregular hclock
      fun t ht => hcanonical t (hin t ht)

variable {t : Text}

theorem hlcParse_of_canonical {s : HybridClock.Stamp Text} (h : Native.Python.hlcParse t = some s) :
    hlcParse t = .ofStamp s ∧ s.counter ≤ Native.Python.maxSafeInteger := by
  simp only [Native.Python.hlcParse, Option.bind_eq_bind, bind_eq_some_iff] at h
  obtain ⟨firstDash, hfirst, gap, hgap, h⟩ := h
  split_ifs at h with hshape
  simp only [bind_eq_some_iff] at h
  obtain ⟨timestamp, htime, count, hcount, h⟩ := h
  split_ifs at h with hsafe
  obtain rfl := some.inj h
  refine ⟨?_, hsafe.2⟩
  simp only [hlcParse, hfirst, hgap, htime, hcount]
  rfl

theorem keepsClock_of_canonical (h : Canonical t) (wall : ℕ) (clock : JsHlc) :
    KeepsClock wall clock (parse t) := by
  obtain ⟨s, hs⟩ := isSome_iff_exists.mp h
  obtain ⟨hparse, hsafe⟩ := hlcParse_of_canonical hs
  have hcounter : (parse t).counter = .finite s.counter := by
    rw [parse, hparse]
    refine rounded_of_lt ?_
    rw [Native.Python.maxSafeInteger] at hsafe
    omega
  refine ⟨?_, fun _ => by rw [hcounter]; rfl⟩
  rw [parse, hparse]
  rcases rounded_natCast_cases s.ts with hts | hts
  · exact fun hnan => JsNumber.noConfusion (hts.symm.trans hnan)
  · exact hts.ne_nan

/-- A stamp of the serializer. -/
def goodStamp : Text := stampText ⟨1711785600000, 0, [97]⟩

theorem canonical_goodStamp : Canonical goodStamp := by
  classical
  have hreadable : Native.Python.Readable ⟨1711785600000, 0, [97]⟩ :=
    ⟨by decide, by decide, List.cons_ne_nil _ _⟩
  rw [Canonical, goodStamp, Native.Python.hlcParse_stampText, if_pos hreadable]
  rfl

theorem malformed_stamps_iff_good : HandlesStamps .held 1711785600000
    ⟨.finite 1711785600000, .finite 0, []⟩ goodStamp {goodStamp} :=
  (malformed_stamps_iff .held (by decide)
    (natural_of_lt (n := 1711785600000) (by norm_num)) (natural_of_lt (n := 0) (by norm_num))
    goodStamp {goodStamp}).mpr
    ⟨keepsClock_of_canonical canonical_goodStamp _ _,
      fun _ ht => (Set.mem_singleton_iff.mp ht) ▸ canonical_goodStamp⟩

/-- The stamp `x` of an entry has no time: the clock becomes `NaN`. -/
theorem not_handled : ¬∀ (handed : HandedOut) (manifest : Option Manifest)
    (schema : Option DatabaseSchemaDefinition) (wall : ℕ) (name meshId : Text)
    (entry : ChangeEntry) (p : Progress), Regular handed manifest schema name entry p.store →
      wall ≤ maxTime → Sound p →
        Handled p (receiveFile handed manifest schema wall name (.change meshId entry) p) := by
  intro h
  have hts : Natural (.finite 1711785600000) := natural_of_lt (n := 1711785600000) (by norm_num)
  have hcounter : Natural (.finite 0) := natural_of_lt (n := 0) (by norm_num)
  have hhandles : HandlesStamps .copies 1711785600000 ⟨.finite 1711785600000, .finite 0, []⟩
      [120] ∅ := by
    rintro manifest schema name meshId entry store ledger hregular - - hstore
    exact h _ manifest schema _ name meshId entry _ hregular (by decide) ⟨hts, hcounter, hstore⟩
  obtain ⟨ledger, hclock⟩ := HandlesStamps.sound ⟨[], 0, [], [120], []⟩ hhandles
    (fun op hop => absurd hop List.not_mem_nil) (fun t ht => absurd ht List.not_mem_nil) rfl
  exact ((natural_receive_iff (by decide) hts hcounter [120]).mp ⟨hclock.ts, hclock.counter⟩).1 rfl

/-! ## A conflict -/

/-- A row with one column, whose value is `null`. -/
def heldRow (t : Text) : Row :=
  ⟨⟨[], [], false, none, 1, none⟩, (∅ : Record Text ColumnEntry).set [98] ⟨.null, t⟩⟩

/-- A store that holds the row. -/
def holdingStore (t : Text) : LocalStore :=
  { LocalStore.empty with rows := (∅ : Record Text Row).set (LocalStore.rowKey [] []) (heldRow t) }

/-- An op that writes another column first, and then another value under the same stamp. -/
def conflictingOp (t : Text) : Op :=
  .upsert [] [] (((∅ : Record Text ColumnEntry).set [97] ⟨.null, t⟩).set [98] ⟨.bool true, t⟩)

/-- The change with that op. -/
def conflicting (t : Text) : ChangeEntry := ⟨[], 0, [], t, [conflictingOp t]⟩

theorem hlcCompareStr_self (h : Canonical t) : hlcCompareStr t t = some 0 := by
  obtain ⟨s, hs⟩ := isSome_iff_exists.mp h
  rw [hlcCompareStr, (hlcParse_of_canonical hs).1, hlcCompare_ofStamp]
  simp

theorem Canonical.ne_nil (h : Canonical t) : t ≠ [] := by
  rintro rfl
  exact absurd (show (Native.Python.hlcParse []).isSome = true from h) (by decide)

section Conflict

variable {t : Text}

/-- The columns of the op. -/
def conflictingColumns (t : Text) : List (Text × ColumnEntry) :=
  [([97], ⟨.null, t⟩), ([98], ⟨.bool true, t⟩)]

/-- The first column is taken, and the second one conflicts. -/
theorem columns_conflicting (h : Canonical t) :
    applyColumns none [] [] (conflictingColumns t) (heldRow t).payload false =
        .error (.conflictingValues t [] [] [98]) ∧
      reachedPayload none [] [] (conflictingColumns t) (heldRow t).payload =
        (heldRow t).payload.set [97] ⟨.null, t⟩ := by
  have hstored : ((heldRow t).payload.set [97] ⟨.null, t⟩).get [98] = some ⟨.null, t⟩ := rfl
  have habsent : (heldRow t).payload.get [97] = none := rfl
  have hstrategy : ∀ field, resolveStrategy none [] field = .ok .lww := fun _ => rfl
  constructor
  · simp [conflictingColumns, applyColumns, hstrategy, mergeColumn, habsent, hstored, h.ne_nil,
      hlcCompareStr_self h, isPos, isNeg, columnValuesEqual]
  · simp [conflictingColumns, reachedPayload, hstrategy, mergeColumn, habsent, hstored, h.ne_nil,
      hlcCompareStr_self h, isPos, isNeg, columnValuesEqual]

theorem applyOp_conflicting (h : Canonical t) :
    applyOp (cachedRows (joinedTo (holdingStore t)) [conflictingOp t]) (conflictingOp t) 1 none =
      .error (.conflictingValues t [] [] [98]) := by
  have hrow : ((cachedRows (joinedTo (holdingStore t)) [conflictingOp t]).get
      (conflictingOp t).table |>.getD ∅).get (conflictingOp t).rowId = some (heldRow t) := rfl
  have hcolumns : ((∅ : Record Text ColumnEntry).set [97] ⟨.null, t⟩ |>.set [98]
      ⟨.bool true, t⟩).entries = conflictingColumns t := rfl
  have hlive : (heldRow t)._meta.deleted = false := rfl
  simp only [applyOp, hrow]
  simp only [applyToRow, conflictingOp, applyUpsert, getD_some, hlive, Bool.false_eq_true, if_false,
    hcolumns, isNone_some, (columns_conflicting h).1]

theorem mergeEntry_conflicting (h : Canonical t) :
    mergeEntry (joinedTo (holdingStore t)) (conflicting t) 1 none =
      .error (.conflictingValues t [] [] [98]) := by
  have hops : (conflicting t).ops = [conflictingOp t] := rfl
  simp only [mergeEntry, applyChangeEntry, hops, applyOpsLoop, applyOp_conflicting h]

theorem afterThrow_conflicting (h : Canonical t) :
    (HandedOut.held.afterThrow (joinedTo (holdingStore t)) (conflicting t) 1 none).rows.get
        (LocalStore.rowKey [] []) =
      some ⟨(heldRow t)._meta, (heldRow t).payload.set [97] ⟨.null, t⟩⟩ := by
  have hops : (conflicting t).ops = [conflictingOp t] := rfl
  have hcolumns : ((∅ : Record Text ColumnEntry).set [97] ⟨.null, t⟩ |>.set [98]
      ⟨.bool true, t⟩).entries = conflictingColumns t := rfl
  have hlive : (heldRow t)._meta.deleted = false := rfl
  have hrow : reachedRow (some (heldRow t)) [] [] (((∅ : Record Text ColumnEntry).set [97]
      ⟨.null, t⟩).set [98] ⟨.bool true, t⟩) 1 none =
        ⟨(heldRow t)._meta, (heldRow t).payload.set [97] ⟨.null, t⟩⟩ := by
    simp only [reachedRow, getD_some, hlive, Bool.false_eq_true, if_false, hcolumns,
      (columns_conflicting h).2]
  have hreached : rowAt (reachedTables 1 none [conflictingOp t]
      (cachedRows (joinedTo (holdingStore t)) [conflictingOp t])) [] [] =
      some ⟨(heldRow t)._meta, (heldRow t).payload.set [97] ⟨.null, t⟩⟩ := by
    simp only [reachedTables, applyOp_conflicting h]
    exact congrArg some hrow
  have hheld : (joinedTo (holdingStore t)).getRow [] [] = some (heldRow t) := rfl
  simp only [HandedOut.afterThrow, hops, List.foldl_cons, List.foldl_nil]
  simp only [show (conflictingOp t).table = [] from rfl, show (conflictingOp t).rowId = [] from rfl,
    hheld, hreached]
  exact Record.get_set_self _ _ _

end Conflict

/-- **A conflict half merges a row that a store has handed out:** under any canonical stamp there is
an entry that is rejected and has changed the rows by then. -/
theorem halfMerged (h : Canonical t) (wall : ℕ) (clock : JsHlc) (name : Text)
    (ledger : ChangeObservationLedger) :
    CanonicalRows (holdingStore t) ∧ (∀ s ∈ (conflicting t).stamps, s = t) ∧
      ¬ Handled ⟨holdingStore t, clock, ledger⟩ (receiveFile .held none none wall name
        (.change [109] (conflicting t)) ⟨holdingStore t, clock, ledger⟩) := by
  have hturn : receiveFile .held none none wall name (.change [109] (conflicting t))
      ⟨holdingStore t, clock, ledger⟩ = .rejected ⟨HandedOut.held.afterThrow
        (joinedTo (holdingStore t)) (conflicting t) 1 none, clock, ledger⟩ := by
    have hdecoded : PullWindow.decoded none (holdingStore t) (.change [109] (conflicting t)) =
        some (joinedTo (holdingStore t), conflicting t) := rfl
    rw [receiveFile, hdecoded]
    dsimp only
    rw [map_none, getD_none, mergeEntry_conflicting h]
  refine ⟨?_, fun s hs => ?_, ?_⟩
  · intro key row hget
    rw [holdingStore, Record.get_set] at hget
    split_ifs at hget
    · obtain rfl := some.inj hget
      refine ⟨fun t ht => absurd ht (by simp [heldRow]), fun col entry hcol => ?_⟩
      rw [heldRow, Record.get_set] at hcol
      split_ifs at hcol
      · obtain rfl := some.inj hcol
        exact h
      · exact absurd hcol (by simp)
    · exact absurd hget (by simp)
  · have hstamps : (conflicting t).stamps = [t, t] := rfl
    rw [hstamps] at hs
    simpa using hs
  · rw [hturn]
    rintro ⟨-, hrows, -⟩
    have hget := congrArg (fun rows => rows.get (LocalStore.rowKey [] [])) hrows
    rw [show _ = _ from afterThrow_conflicting h] at hget
    -- the row has a column more than the one that was handed out
    have hcolumn := congrArg (fun row => row.bind fun row : Row => row.payload.get [97]) hget
    exact absurd (show some (⟨.null, t⟩ : ColumnEntry) = none from hcolumn) (by simp)

end Malformed

end Interocitor
