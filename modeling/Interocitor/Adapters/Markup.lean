import Interocitor.Foundation.CodeUnits
import Interocitor.Foundation.Scan
import Mathlib.Data.List.DropRight

/-!
# `s3.ts`: reading markup with patterns

The listing of an object store comes as XML, and `S3Adapter` reads it with patterns:
`xmlBlocks` finds the elements of a name, `xmlText` the text of the first one, without the tags
in it, trimmed, and with its references decoded, one kind of reference after the other.

That is no parser, and it need not be one: what has to be right is what it makes of the answers
that a store gives.  So the other half of this file is about texts that *are* markup.  A text
is spelled piece by piece, each unit by itself or by a reference; elements hold spelled texts,
and blocks hold elements.  Two things could go wrong in reading it back.  A decoded reference
could become part of another one, which does not happen as long as the ampersand itself is only
ever spelled by its name, since `&amp;` is decoded last.  And a blank at the end of a text is
trimmed if it is spelled by itself.

* `decodeXml`, `xmlBlocks`, `xmlText`: the patterns, each as one pass of `Foundation.Scan`.
* `decodeXml_spell`: the references of a spelled text are decoded to what they mean.
* `trim_spell`: what trimming takes away.
* `shows_item`: which parts of a marked-up text the search for a name finds.
* `xmlBlocks_render`, `xmlText_render`: what is read from a marked-up text.
-/

namespace Interocitor.S3

open CodeUnits Scanning List Option

/-! ## The patterns -/

/-- The case of a unit, for patterns that ignore it. -/
def lower (u : CodeUnit) : CodeUnit := if 65 ≤ u.val ∧ u.val ≤ 90 then u + 32 else u

/-- `\w`. -/
def isWord (u : CodeUnit) : Bool :=
  decide (48 ≤ u.val ∧ u.val ≤ 57 ∨ 65 ≤ u.val ∧ u.val ≤ 90 ∨ 97 ≤ u.val ∧ u.val ≤ 122 ∨ u = 95)

/-- `[\w.-]`. -/
def isNameUnit (u : CodeUnit) : Bool := isWord u || decide (u = 45 ∨ u = 46)

/-- Two names that are the same for patterns that ignore case. -/
def SameName (n name : Text) : Prop := n.map lower = name.map lower

instance (n name : Text) : Decidable (SameName n name) := inferInstanceAs (Decidable (_ = _))

/-- `name\b` at the front: the word there is the name. -/
def nameAt (name t : Text) : Bool := decide (SameName (t.takeWhile isWord) name)

/-- What follows `[\w.-]+:` at the front. -/
def behindPrefix (t : Text) : Option Text :=
  match t.dropWhile isNameUnit with
  | u :: rest => if u = 58 ∧ t.takeWhile isNameUnit ≠ [] then some rest else none
  | [] => none

/-- `(?:[\w.-]+:)?name\b` at the front. -/
def tagNameAt (name t : Text) : Bool := (behindPrefix t).any (nameAt name) || nameAt name t

/-- `<(?:[\w.-]+:)?name\b[^>]*>` at the front, and what follows it. -/
def openAt (name : Text) : Text → Option Text
  | u :: t => if u = 60 ∧ tagNameAt name t = true then (t.dropWhile (· ≠ 62)).tail? else none
  | [] => none

/-- `name>` at the front, and what follows it. -/
def endsAt (name t : Text) : Option Text :=
  match t.dropWhile isWord with
  | u :: rest => if u = 62 ∧ nameAt name t = true then some rest else none
  | [] => none

/-- `<\/(?:[\w.-]+:)?name>` at the front, and what follows it. -/
def closeAt (name : Text) : Text → Option Text
  | u :: v :: t =>
    if u = 60 ∧ v = 47 then ((behindPrefix t).bind (endsAt name)).or (endsAt name t) else none
  | _ => none

/-- `[\s\S]*?` up to the first closing tag, and what follows that. -/
def untilClose (name : Text) : Text → Option (Text × Text)
  | [] => none
  | u :: t =>
    match closeAt name (u :: t) with
    | some rest => some ([], rest)
    | none => (untilClose name t).map fun p => (u :: p.1, p.2)

/-- An element at the front: all of it, and what is between its tags. -/
def elementAt (name t : Text) : Option ((Text × Text) × ℕ) :=
  (openAt name t).bind fun t' => (untilClose name t').map fun p =>
    ((t.take (t.length - p.2.length), p.1), t.length - p.2.length)

/-- `xmlBlocks`. -/
def xmlBlocks (xml name : Text) : List Text := (found (elementAt name) xml).map Prod.fst

/-- `/<(?:[\w.-]+:)?name\b/i.test(xml)`. -/
def mentions (name : Text) : Text → Bool
  | [] => false
  | u :: t => (decide (u = 60) && tagNameAt name t) || mentions name t

/-- `/<[^>]+>/` at the front. -/
def tagAt : Text → Option (Unit × ℕ)
  | u :: t =>
    let inner := t.takeWhile (· ≠ 62)
    if u = 60 ∧ inner ≠ [] ∧ inner.length < t.length then some ((), inner.length + 2) else none
  | [] => none

/-- `trim`. -/
def trim (t : Text) : Text := (t.dropWhile isSpace).rdropWhile isSpace

/-- Digits and a semicolon at the front: their value and their number. -/
def digitsAt (radix : ℕ) (t : Text) : Option (ℕ × ℕ) :=
  let ds := leadingDigits radix t
  if ds ≠ [] ∧ (t.drop ds.length).head? = some 59 then some (frontValue radix ds, ds.length)
  else none

/-- `/&#x([0-9a-f]+);/i` at the front. -/
def hexReference : Text → Option (ℕ × ℕ)
  | a :: b :: c :: t =>
    if a = 38 ∧ b = 35 ∧ (c = 120 ∨ c = 88) then (digitsAt 16 t).map fun p => (p.1, p.2 + 4)
    else none
  | _ => none

/-- `/&#([0-9]+);/` at the front. -/
def decReference : Text → Option (ℕ × ℕ)
  | a :: b :: t =>
    if a = 38 ∧ b = 35 then (digitsAt 10 t).map fun p => (p.1, p.2 + 3) else none
  | _ => none

/-- A fixed text at the front. -/
def literalAt (p t : Text) : Option (Unit × ℕ) :=
  if p.isPrefixOf t then some ((), p.length) else none

/-- The named references. -/
inductive Entity where
  | lt
  | gt
  | quot
  | apos
  | amp
  deriving DecidableEq

namespace Entity

/-- How it is written. -/
def spelled : Entity → Text
  | lt => [38, 108, 116, 59]
  | gt => [38, 103, 116, 59]
  | quot => [38, 113, 117, 111, 116, 59]
  | apos => [38, 97, 112, 111, 115, 59]
  | amp => [38, 97, 109, 112, 59]

/-- What it means. -/
def unit : Entity → CodeUnit
  | lt => 60
  | gt => 62
  | quot => 34
  | apos => 39
  | amp => 38

end Entity

/-- `String.fromCodePoint`, of a number that is one. -/
def fromCodePoint (n : ℕ) : Text :=
  if n < 0x10000 then [Fin.ofNat 65536 n]
  else [Fin.ofNat 65536 (0xD800 + (n - 0x10000) / 0x400),
    Fin.ofNat 65536 (0xDC00 + (n - 0x10000) % 0x400)]

/-- How a listing fails: the request, or the answer to it. -/
inductive ListFailure where
  | invalidPath
  | request (status : ℕ)
  | notListBucketResult
  | invalidCodePoint
  | truncatedWithoutToken
  | repeatedToken
  deriving DecidableEq

/-- A pass that decodes numbers; `fromCodePoint` throws if one of them is no code point. -/
def replaceNumbers (m : Text → Option (ℕ × ℕ)) (t : Text) : Except ListFailure Text :=
  if (found m t).any fun n => decide (0x10FFFF < n) then .error .invalidCodePoint
  else .ok (replaceAll m fromCodePoint t)

/-- A pass that decodes one named reference. -/
def replaceEntity (t : Text) (e : Entity) : Text :=
  replaceAll (literalAt e.spelled) (fun _ => [e.unit]) t

/-- `decodeXml`. -/
def decodeXml (value : Text) : Except ListFailure Text := do
  let s ← replaceNumbers hexReference value
  let s ← replaceNumbers decReference s
  pure ([.lt, .gt, .quot, .apos, .amp].foldl replaceEntity s)

/-- `xmlText`. -/
def xmlText (xml name : Text) : Except ListFailure (Option Text) :=
  match (found (elementAt name) xml).head? with
  | none => .ok none
  | some element =>
    (decodeXml (trim (replaceAll tagAt (fun _ => []) element.2))).map some

/-! ## Spelled texts -/

/-- A piece of a spelled text: a unit by itself, or a reference by name or by number. -/
inductive Piece where
  | plain (u : CodeUnit)
  | named (e : Entity)
  | hex (digits : Text)
  | dec (digits : Text)
  deriving DecidableEq

namespace Piece

/-- How it is written. -/
def spelled : Piece → Text
  | plain u => [u]
  | named e => e.spelled
  | hex digits => [38, 35, 120] ++ digits ++ [59]
  | dec digits => [38, 35] ++ digits ++ [59]

/-- The number of a reference by number. -/
def number (radix : ℕ) (digits : Text) : ℕ := frontValue radix (leadingDigits radix digits)

/-- What it means. -/
def meaning : Piece → Text
  | plain u => [u]
  | named e => [e.unit]
  | hex digits => fromCodePoint (number 16 digits)
  | dec digits => fromCodePoint (number 10 digits)

/-- Digits that spell a code point other than the ampersand. -/
structure Digits (radix : ℕ) (digits : Text) : Prop where
  ne_nil : digits ≠ []
  digit : ∀ u ∈ digits, (digitBelow radix u).isSome = true
  le : number radix digits ≤ 0x10FFFF
  ne_amp : number radix digits ≠ 38

/-- A piece of well-formed markup in which the ampersand is only spelled by its name. -/
def Valid : Piece → Prop
  | plain u => u ≠ 60 ∧ u ≠ 38
  | named _ => True
  | hex digits => Digits 16 digits
  | dec digits => Digits 10 digits

/-- A blank by itself. -/
def isBlank : Piece → Bool
  | plain u => isSpace u
  | _ => false

end Piece

/-- How a text is written. -/
def spell (ps : List Piece) : Text := ps.flatMap Piece.spelled

/-- What a text means. -/
def meaning (ps : List Piece) : Text := ps.flatMap Piece.meaning

/-- The pieces between the blanks at both ends. -/
def trimPieces (ps : List Piece) : List Piece :=
  (ps.dropWhile Piece.isBlank).rdropWhile Piece.isBlank

/-! ## Decoding -/

variable {u : CodeUnit} {digits : Text} {radix : ℕ}

theorem leadingDigits_append (h : ∀ u ∈ digits, (digitBelow radix u).isSome = true)
    (hu : digitBelow radix u = none) (rest : Text) :
    leadingDigits radix (digits ++ u :: rest) = leadingDigits radix digits ∧
      (leadingDigits radix digits).length = digits.length := by
  induction digits with
  | nil =>
    have hnil : leadingDigits radix (u :: rest) = [] := by rw [leadingDigits, hu]
    exact ⟨hnil, rfl⟩
  | cons d digits ih =>
    obtain ⟨n, hn⟩ := isSome_iff_exists.mp (h d mem_cons_self)
    obtain ⟨heq, hlen⟩ := ih fun v hv => h v (mem_cons_of_mem d hv)
    rw [cons_append, leadingDigits, leadingDigits, hn]
    exact ⟨congrArg (n :: ·) heq, congrArg (· + 1) hlen⟩

theorem digitsAt_eq (h : Piece.Digits radix digits) (rest : Text) :
    digitsAt radix (digits ++ [59] ++ rest) =
      some (Piece.number radix digits, digits.length) := by
  have hsemi : digitBelow radix 59 = none := rfl
  obtain ⟨heq, hlen⟩ := leadingDigits_append h.digit hsemi rest
  have hne : leadingDigits radix digits ≠ [] := by
    intro hnil
    rw [hnil] at hlen
    exact h.ne_nil (length_eq_zero_iff.mp hlen.symm)
  have happ : digits ++ [59] ++ rest = digits ++ 59 :: rest := by simp
  rw [digitsAt, happ, heq, hlen, drop_left, if_pos ⟨hne, rfl⟩, Piece.number]

theorem notMem_fromCodePoint {n : ℕ} (h : n ≤ 0x10FFFF) (hne : n ≠ 38) :
    (38 : CodeUnit) ∉ fromCodePoint n := by
  have hval : ∀ k, k < 65536 → ((38 : CodeUnit) = Fin.ofNat 65536 k ↔ k = 38) := by
    intro k hk
    rw [Fin.ext_iff]
    simp only [Fin.ofNat, Nat.mod_eq_of_lt hk]
    exact eq_comm
  rw [fromCodePoint]
  split_ifs with hlt
  · rw [mem_singleton, hval n hlt]
    exact hne
  · simp only [mem_cons, not_mem_nil, or_false, not_or]
    constructor
    · rw [hval _ (by omega)]
      omega
    · rw [hval _ (by omega)]
      omega

variable {p : Piece}

theorem notMem_meaning (h : p.Valid) (hne : p ≠ .named .amp) : (38 : CodeUnit) ∉ p.meaning := by
  cases p with
  | plain u =>
    rw [Piece.meaning, mem_singleton]
    exact Ne.symm h.2
  | named e =>
    cases e with
    | amp => exact absurd rfl hne
    | lt => decide
    | gt => decide
    | quot => decide
    | apos => decide
  | hex digits => exact notMem_fromCodePoint h.le h.ne_amp
  | dec digits => exact notMem_fromCodePoint h.le h.ne_amp

/-- A pattern for references. -/
def ForReferences {β : Type} (m : Text → Option (β × ℕ)) : Prop :=
  ∀ u t, u ≠ (38 : CodeUnit) → m (u :: t) = none

theorem forReferences_hex : ForReferences hexReference := by
  intro u t hu
  rcases t with _ | ⟨b, _ | ⟨c, t⟩⟩
  · rfl
  · rfl
  · exact if_neg fun h => hu h.1

theorem forReferences_dec : ForReferences decReference := by
  intro u t hu
  rcases t with _ | ⟨b, t⟩
  · rfl
  · exact if_neg fun h => hu h.1

theorem forReferences_literal (e : Entity) : ForReferences (literalAt e.spelled) := by
  intro u t hu
  have hbeq : ((38 : CodeUnit) == u) = false := by simpa using Ne.symm hu
  cases e <;> simp [literalAt, Entity.spelled, List.isPrefixOf, hbeq]

theorem notMem_digits (h : Piece.Digits radix digits) : (38 : CodeUnit) ∉ digits := by
  intro hmem
  have hnone : digitBelow radix 38 = none := rfl
  have hsome := h.digit 38 hmem
  rw [hnone] at hsome
  exact absurd hsome (by simp)

/-- Of the pieces of a text, some are decoded already. -/
def stage (done : Piece → Bool) (p : Piece) : Text := if done p then p.meaning else p.spelled

variable {done : Piece → Bool}

theorem stage_of_done (h : done p = true) :
    stage done p = p.meaning := if_pos h

theorem silent_reference {β : Type} {m : Text → Option (β × ℕ)} (hm : ForReferences m) {body : Text}
    (hbody : (38 : CodeUnit) ∉ body) (h : ∀ rest, m (38 :: body ++ rest) = none) :
    Silent m (38 :: body) :=
  silent_cons h (silent_of_notMem hm hbody)

theorem silent_meaning {β : Type} {m : Text → Option (β × ℕ)} (hm : ForReferences m) (h : p.Valid)
    (hne : p ≠ .named .amp) : Silent m p.meaning :=
  silent_of_notMem hm (notMem_meaning h hne)

theorem notMem_named (e : Entity) : (38 : CodeUnit) ∉ e.spelled.tail := by
  cases e <;> decide

theorem spelled_named (e : Entity) : e.spelled = 38 :: e.spelled.tail := by
  cases e <;> rfl

/-- The value of a reference by hexadecimal number. -/
def hexNumber : Piece → Option ℕ
  | .hex digits => some (Piece.number 16 digits)
  | _ => none

/-- The value of a reference by decimal number. -/
def decNumber : Piece → Option ℕ
  | .dec digits => some (Piece.number 10 digits)
  | _ => none

theorem silent_plain {β : Type} {m : Text → Option (β × ℕ)} (hm : ForReferences m) (hu : u ≠ 38) :
    Silent m [u] :=
  silent_of_notMem hm fun hmem => hu (mem_singleton.mp hmem).symm

theorem hexReference_hex (t : Text) :
    hexReference (38 :: 35 :: 120 :: t) = (digitsAt 16 t).map fun p => (p.1, p.2 + 4) := by
  rw [hexReference, if_pos ⟨rfl, rfl, .inl rfl⟩]

theorem decReference_dec (t : Text) :
    decReference (38 :: 35 :: t) = (digitsAt 10 t).map fun p => (p.1, p.2 + 3) := by
  rw [decReference, if_pos ⟨rfl, rfl⟩]

theorem reference_named (e : Entity) (rest : Text) :
    hexReference (e.spelled ++ rest) = none ∧ decReference (e.spelled ++ rest) = none := by
  cases e <;> simp [Entity.spelled, hexReference, decReference]

theorem shows_hex (h : p.Valid) : Shows hexReference Piece.spelled hexNumber p := by
  cases p with
  | plain u => exact silent_plain forReferences_hex h.2
  | named e =>
    change Silent hexReference e.spelled
    rw [spelled_named]
    refine silent_reference forReferences_hex (notMem_named e) fun rest => ?_
    rw [← spelled_named]
    exact (reference_named e rest).1
  | hex digits =>
    refine ⟨by simp [Piece.spelled], fun rest => ?_⟩
    change hexReference (38 :: 35 :: 120 :: (digits ++ [59] ++ rest)) = _
    rw [hexReference_hex, digitsAt_eq h rest, map_some, Piece.spelled]
    simp
  | dec digits =>
    have hbody : (38 : CodeUnit) ∉ 35 :: (digits ++ [59]) := by
      simp [notMem_digits h]
    refine silent_reference forReferences_hex hbody fun rest => ?_
    -- a decimal digit is not the letter that a hexadecimal number begins with
    obtain ⟨d, digits, rfl⟩ := exists_cons_of_ne_nil h.ne_nil
    have hd := h.digit d mem_cons_self
    refine if_neg fun hx => ?_
    rcases hx.2.2 with rfl | rfl
    · exact absurd hd (by decide)
    · exact absurd hd (by decide)

/-- The pieces that are decoded after the first pass. -/
def isHex : Piece → Bool
  | .hex _ => true
  | _ => false

/-- The pieces that are decoded after both passes for numbers. -/
def isNumber : Piece → Bool
  | .hex _ => true
  | .dec _ => true
  | _ => false

theorem shows_dec (h : p.Valid) : Shows decReference (stage isHex) decNumber p := by
  cases p with
  | plain u => exact silent_plain forReferences_dec h.2
  | named e =>
    change Silent decReference e.spelled
    rw [spelled_named]
    refine silent_reference forReferences_dec (notMem_named e) fun rest => ?_
    rw [← spelled_named]
    exact (reference_named e rest).2
  | hex digits =>
    have hs : Silent decReference (stage isHex (.hex digits)) := by
      rw [stage_of_done rfl]
      exact silent_meaning forReferences_dec h (by simp)
    exact hs
  | dec digits =>
    refine ⟨by simp [stage, isHex, Piece.spelled], fun rest => ?_⟩
    change decReference (38 :: 35 :: (digits ++ [59] ++ rest)) = _
    rw [decReference_dec, digitsAt_eq h rest, map_some, stage, Piece.spelled]
    simp [isHex]

/-- The pieces that are a reference by one name. -/
def isNamed (e : Entity) (p : Piece) : Option Unit := if p = .named e then some () else none

/-- Before the pass for a name: the numbers are decoded, and the ampersand and this name are not. -/
structure Before (e : Entity) (done : Piece → Bool) : Prop where
  number : ∀ p, isNumber p = true → done p = true
  amp : done (.named .amp) = false
  name : done (.named e) = false

theorem shows_named {e : Entity} (hd : Before e done) (h : p.Valid) :
    Shows (literalAt e.spelled) (stage done) (isNamed e) p := by
  by_cases hp : p = .named e
  · obtain rfl := hp
    have htaken : Taken (literalAt e.spelled) e.spelled () :=
      ⟨by cases e <;> simp [Entity.spelled], fun rest => if_pos (by simp)⟩
    rw [Shows, isNamed, if_pos rfl, stage, hd.name]
    exact htaken
  · rw [Shows, isNamed, if_neg hp, stage]
    dsimp only
    split_ifs with hdone
    · refine silent_meaning (forReferences_literal e) h ?_
      rintro rfl
      rw [hd.amp] at hdone
      exact absurd hdone (by simp)
    · cases p with
      | plain u => exact silent_plain (forReferences_literal e) h.2
      | hex digits => exact absurd (hd.number _ rfl) hdone
      | dec digits => exact absurd (hd.number _ rfl) hdone
      | named e' =>
        change Silent _ e'.spelled
        rw [spelled_named e']
        refine silent_reference (forReferences_literal e) (notMem_named e') fun rest => ?_
        cases e <;> cases e' <;> first | exact absurd rfl hp | rfl

variable {ps : List Piece}

theorem replaceEntity_stage {e : Entity} (hd : Before e done) (h : ∀ p ∈ ps, p.Valid) :
    replaceEntity (ps.flatMap (stage done)) e =
      ps.flatMap (stage fun p => done p || decide (p = .named e)) := by
  rw [replaceEntity, replaceAll_flatMap _ fun p hp => shows_named hd (h p hp)]
  refine flatMap_congr fun p _ => ?_
  rw [isNamed, stage, stage]
  by_cases hp : p = .named e
  · rw [if_pos hp, hp, hd.name]
    simp [Piece.meaning]
  · rw [if_neg hp]
    simp [hp]

theorem Before.next {e e' : Entity} (hd : Before e done) (he : e ≠ .amp) (he' : e' ≠ e)
    (hname : done (.named e') = false) :
    Before e' fun p => done p || decide (p = .named e) where
  number p hp := by simp [hd.number p hp]
  amp := by simpa [hd.amp] using Ne.symm he
  name := by simpa [hname] using he'

theorem replaceNumbers_flatMap {m : Text → Option (ℕ × ℕ)} {render : Piece → Text}
    {value : Piece → Option ℕ} (hshows : ∀ p ∈ ps, Shows m render value p)
    (hle : ∀ p ∈ ps, ∀ n, value p = some n → n ≤ 0x10FFFF) :
    replaceNumbers m (ps.flatMap render) =
      .ok (ps.flatMap fun p => (value p).elim (render p) fromCodePoint) := by
  rw [replaceNumbers, found_flatMap hshows, replaceAll_flatMap _ hshows, if_neg]
  intro hany
  obtain ⟨n, hn, hlt⟩ := any_eq_true.mp hany
  obtain ⟨p, hp, hv⟩ := mem_filterMap.mp hn
  exact absurd (of_decide_eq_true hlt) (not_lt.mpr (hle p hp n hv))

theorem replaceNumbers_hex (h : ∀ p ∈ ps, p.Valid) :
    replaceNumbers hexReference (spell ps) = .ok (ps.flatMap (stage isHex)) := by
  have hle : ∀ p ∈ ps, ∀ n, hexNumber p = some n → n ≤ 0x10FFFF := by
    intro p hp n hn
    cases p with
    | hex digits => exact some.inj hn ▸ (h _ hp).le
    | plain u => exact absurd hn (by simp [hexNumber])
    | named e => exact absurd hn (by simp [hexNumber])
    | dec digits => exact absurd hn (by simp [hexNumber])
  rw [spell, replaceNumbers_flatMap (fun p hp => shows_hex (h p hp)) hle]
  exact congrArg Except.ok (flatMap_congr fun p _ => by cases p <;> rfl)

theorem replaceNumbers_dec (h : ∀ p ∈ ps, p.Valid) :
    replaceNumbers decReference (ps.flatMap (stage isHex)) = .ok (ps.flatMap (stage isNumber)) := by
  have hle : ∀ p ∈ ps, ∀ n, decNumber p = some n → n ≤ 0x10FFFF := by
    intro p hp n hn
    cases p with
    | dec digits => exact some.inj hn ▸ (h _ hp).le
    | plain u => exact absurd hn (by simp [decNumber])
    | named e => exact absurd hn (by simp [decNumber])
    | hex digits => exact absurd hn (by simp [decNumber])
  rw [replaceNumbers_flatMap (fun p hp => shows_dec (h p hp)) hle]
  exact congrArg Except.ok (flatMap_congr fun p _ => by cases p <;> rfl)

theorem foldl_replaceEntity (h : ∀ p ∈ ps, p.Valid) :
    [Entity.lt, .gt, .quot, .apos, .amp].foldl replaceEntity (ps.flatMap (stage isNumber)) =
      meaning ps := by
  have hlt : Before .lt isNumber := ⟨fun _ hp => hp, rfl, rfl⟩
  have hgt : Before .gt _ := hlt.next (by simp) (by simp) rfl
  have hquot : Before .quot _ := hgt.next (by simp) (by simp) rfl
  have hapos : Before .apos _ := hquot.next (by simp) (by simp) rfl
  have hamp : Before .amp _ := hapos.next (by simp) (by simp) rfl
  rw [foldl_cons, replaceEntity_stage hlt h, foldl_cons, replaceEntity_stage hgt h,
    foldl_cons, replaceEntity_stage hquot h, foldl_cons, replaceEntity_stage hapos h,
    foldl_cons, replaceEntity_stage hamp h, foldl_nil]
  refine flatMap_congr fun p _ => ?_
  cases p with
  | plain u => rfl
  | hex digits => exact stage_of_done rfl
  | dec digits => exact stage_of_done rfl
  | named e => cases e <;> exact stage_of_done rfl

theorem ok_bind {α β : Type} (a : α) (f : α → Except ListFailure β) :
    ((Except.ok a : Except ListFailure α) >>= f) = f a := rfl

/-- **Decoding.**  The references of a spelled text are decoded to what they mean. -/
theorem decodeXml_spell (h : ∀ p ∈ ps, p.Valid) : decodeXml (spell ps) = .ok (meaning ps) := by
  rw [decodeXml, replaceNumbers_hex h, ok_bind, replaceNumbers_dec h, ok_bind,
    foldl_replaceEntity h]
  rfl

/-! ## Trimming -/

theorem spelled_cases (p : Piece) :
    (∃ u, p.spelled = [u] ∧ p.isBlank = true ∧ isSpace u = true) ∨
      p.isBlank = false ∧ ∃ u s v t, p.spelled = u :: s ∧ p.spelled = t ++ [v] ∧
        isSpace u = false ∧ isSpace v = false := by
  cases p with
  | plain u =>
    cases hu : isSpace u with
    | true => exact .inl ⟨u, rfl, hu, hu⟩
    | false => exact .inr ⟨hu, u, [], u, [], rfl, rfl, hu, hu⟩
  | named e =>
    refine .inr ⟨rfl, 38, e.spelled.tail, 59, e.spelled.dropLast, ?_, ?_, by decide, by decide⟩
    · exact spelled_named e
    · cases e <;> rfl
  | hex digits =>
    exact .inr ⟨rfl, 38, _, 59, [38, 35, 120] ++ digits, rfl, rfl, by decide, by decide⟩
  | dec digits =>
    exact .inr ⟨rfl, 38, _, 59, [38, 35] ++ digits, rfl, rfl, by decide, by decide⟩

theorem dropWhile_spell (ps : List Piece) :
    (spell ps).dropWhile isSpace = spell (ps.dropWhile Piece.isBlank) := by
  induction ps with
  | nil => rfl
  | cons p ps ih =>
    have hcons : spell (p :: ps) = p.spelled ++ spell ps := rfl
    rw [hcons]
    rcases spelled_cases p with ⟨u, heq, hblank, hu⟩ | ⟨hblank, u, s, v, t, heq, -, hu, -⟩
    · rw [heq, singleton_append, dropWhile_cons_of_pos hu, dropWhile_cons_of_pos hblank, ih]
    · have hnot : ¬p.isBlank = true := by simp [hblank]
      have hspace : ¬isSpace u = true := by simp [hu]
      rw [dropWhile_cons_of_neg hnot, hcons, heq, cons_append, dropWhile_cons_of_neg hspace]

theorem rdropWhile_spell (ps : List Piece) :
    (spell ps).rdropWhile isSpace = spell (ps.rdropWhile Piece.isBlank) := by
  induction ps using List.reverseRecOn with
  | nil => rfl
  | append_singleton ps p ih =>
    have happ : spell (ps ++ [p]) = spell ps ++ p.spelled := by simp [spell]
    rw [happ]
    rcases spelled_cases p with ⟨u, heq, hblank, hu⟩ | ⟨hblank, u, s, v, t, -, heq, -, hv⟩
    · rw [heq, rdropWhile_concat_pos _ _ _ hu, rdropWhile_concat_pos _ _ _ hblank, ih]
    · have hnot : ¬p.isBlank = true := by simp [hblank]
      have hspace : ¬isSpace v = true := by simp [hv]
      rw [rdropWhile_concat_neg _ _ _ hnot, happ, heq, ← append_assoc,
        rdropWhile_concat_neg _ _ _ hspace]

/-- **Trimming.**  Blanks at the ends go, if they are spelled by themselves. -/
theorem trim_spell (ps : List Piece) : trim (spell ps) = spell (trimPieces ps) := by
  rw [trim, dropWhile_spell, rdropWhile_spell, trimPieces]

/-! ## Markup -/

/-- `<name>`. -/
def startTag (name : Text) : Text := 60 :: name ++ [62]

/-- `</name>`. -/
def endTag (name : Text) : Text := [60, 47] ++ name ++ [62]

/-- A name of an element. -/
structure IsName (name : Text) : Prop where
  ne_nil : name ≠ []
  word : ∀ u ∈ name, isWord u = true

/-- What an element of a block is: space around elements, or an element with a text. -/
inductive Node where
  | gap (t : Text)
  | leaf (name : Text) (ps : List Piece)

namespace Node

/-- How it is written. -/
def render : Node → Text
  | gap t => t
  | leaf name ps => startTag name ++ spell ps ++ endTag name

/-- It is well-formed. -/
def Valid : Node → Prop
  | gap t => (60 : CodeUnit) ∉ t
  | leaf name ps => IsName name ∧ ∀ p ∈ ps, p.Valid

/-- The element is none of a name. -/
def Apart (name : Text) : Node → Prop
  | gap _ => True
  | leaf n _ => ¬SameName n name

end Node

/-- What a document is made of: a declaration at its front, tags around all the rest, and elements,
some of which hold others. -/
inductive Item where
  | declaration (t : Text)
  | opening (name attributes : Text)
  | closing (name : Text)
  | node (n : Node)
  | block (name : Text) (children : List Node)

namespace Item

/-- How it is written. -/
def render : Item → Text
  | declaration t => [60, 63] ++ t ++ [63, 62]
  | opening name attributes => 60 :: name ++ attributes ++ [62]
  | closing name => endTag name
  | node n => n.render
  | block name children => startTag name ++ children.flatMap Node.render ++ endTag name

/-- It is well-formed, and a search for a name finds it as a whole or not at all. -/
def Valid (name : Text) : Item → Prop
  | declaration t => (60 : CodeUnit) ∉ t
  | opening n attributes => IsName n ∧ ¬SameName n name ∧ (60 : CodeUnit) ∉ attributes ∧
      (attributes = [] ∨ attributes.head? = some 32)
  | closing n => IsName n
  | node n => n.Valid
  | block n children => IsName n ∧ ∀ c ∈ children, c.Valid ∧ c.Apart name

/-- What a search for a name finds of it: all of it, and what is between its tags. -/
def value (name : Text) : Item → Option (Text × Text)
  | node (.leaf n ps) =>
    if SameName n name then some (render (node (.leaf n ps)), spell ps) else none
  | block n children =>
    if SameName n name then some (render (block n children), children.flatMap Node.render)
    else none
  | _ => none

end Item

/-! ## What a search finds -/

theorem isNameUnit_of_isWord (h : isWord u = true) : isNameUnit u = true := by
  rw [isNameUnit, h, Bool.true_or]

variable {name : Text}

theorem takeWhile_name {p : CodeUnit → Bool} (h : ∀ u ∈ name, p u = true) (hu : p u = false)
    (t : Text) : (name ++ u :: t).takeWhile p = name ∧ (name ++ u :: t).dropWhile p = u :: t := by
  have hnot : ¬p u = true := by simp [hu]
  rw [takeWhile_append_of_pos h, dropWhile_append_of_pos h,
    takeWhile_cons_of_neg hnot, dropWhile_cons_of_neg hnot, append_nil]
  exact ⟨rfl, rfl⟩

variable {name n : Text}

theorem tagNameAt_append (hn : IsName n) (hu : isNameUnit u = false) (hcolon : u ≠ 58) (t : Text) :
    tagNameAt name (n ++ u :: t) = decide (SameName n name) := by
  have hword : isWord u = false := by
    rw [isNameUnit, Bool.or_eq_false_iff] at hu
    exact hu.1
  obtain ⟨htake, -⟩ := takeWhile_name hn.word hword t
  obtain ⟨-, hdrop⟩ := takeWhile_name (fun v hv => isNameUnit_of_isWord (hn.word v hv)) hu t
  rw [tagNameAt, behindPrefix, hdrop, nameAt, htake]
  dsimp only
  rw [if_neg fun h => hcolon h.1]
  rfl

theorem tagNameAt_of_notName (hname : name ≠ []) (hu : isNameUnit u = false) (t : Text) :
    tagNameAt name (u :: t) = false := by
  have hword : isWord u = false := by
    rw [isNameUnit, Bool.or_eq_false_iff] at hu
    exact hu.1
  have hnot : ¬isNameUnit u = true := by simp [hu]
  have hnot' : ¬isWord u = true := by simp [hword]
  have hprefix : behindPrefix (u :: t) = none := by
    rw [behindPrefix, dropWhile_cons_of_neg hnot, takeWhile_cons_of_neg hnot]
    exact if_neg fun h => h.2 rfl
  rw [tagNameAt, hprefix, nameAt, takeWhile_cons_of_neg hnot', any_none,
    Bool.false_or, decide_eq_false_iff_not]
  intro hsame
  exact hname (map_eq_nil_iff.mp hsame.symm)

theorem elementAt_of_ne (t : Text) (hu : u ≠ 60) : elementAt name (u :: t) = none := by
  rw [elementAt, openAt, if_neg fun h => hu h.1]
  rfl

variable {t : Text}

theorem elementAt_of_tagName (h : tagNameAt name t = false) : elementAt name (60 :: t) = none := by
  rw [elementAt, openAt, if_neg]
  · rfl
  · rintro ⟨-, h'⟩
    rw [h] at h'
    exact absurd h' (by simp)

theorem silent_text (h : (60 : CodeUnit) ∉ t) : Silent (elementAt name) t :=
  silent_of_notMem (fun _ t hu => elementAt_of_ne t hu) h

theorem notMem_word (h : ∀ u ∈ t, isWord u = true) : (60 : CodeUnit) ∉ t :=
  fun hmem => absurd (h 60 hmem) (by decide)

theorem silent_endTag (hname : name ≠ []) (hn : IsName n) : Silent (elementAt name) (endTag n) := by
  refine silent_cons (fun rest => ?_) (silent_text ?_)
  · exact elementAt_of_tagName (tagNameAt_of_notName hname (by decide) _)
  · have hnot := notMem_word hn.word
    simp [hnot]

theorem silent_startTag (hn : IsName n) (hne : ¬SameName n name) :
    Silent (elementAt name) (startTag n) := by
  refine silent_cons (fun rest => ?_) (silent_text ?_)
  · have heq : elementAt name (60 :: (n ++ [62]) ++ rest) =
        elementAt name (60 :: (n ++ 62 :: rest)) := by simp
    refine heq.trans (elementAt_of_tagName ?_)
    rw [tagNameAt_append hn (by decide) (by decide), decide_eq_false hne]
  · have hnot := notMem_word hn.word
    simp [hnot]

theorem notMem_spelled (h : p.Valid) : (60 : CodeUnit) ∉ p.spelled := by
  have hdigits : ∀ {radix : ℕ} {digits : Text}, Piece.Digits radix digits →
      (60 : CodeUnit) ∉ digits := by
    intro radix digits hd hmem
    have hnone : digitBelow radix 60 = none := rfl
    have hsome := hd.digit 60 hmem
    rw [hnone] at hsome
    exact absurd hsome (by simp)
  cases p with
  | plain u =>
    rw [Piece.spelled, mem_singleton]
    exact Ne.symm h.1
  | named e => cases e <;> decide
  | hex digits =>
    have hnot := hdigits h
    simp [Piece.spelled, hnot]
  | dec digits =>
    have hnot := hdigits h
    simp [Piece.spelled, hnot]

theorem notMem_spell (h : ∀ p ∈ ps, p.Valid) : (60 : CodeUnit) ∉ spell ps := by
  intro hmem
  obtain ⟨p, hp, hu⟩ := mem_flatMap.mp hmem
  exact notMem_spelled (h p hp) hu

theorem silent_leaf (hname : name ≠ []) (hn : IsName n) (hps : ∀ p ∈ ps, p.Valid)
    (hne : ¬SameName n name) : Silent (elementAt name) (Node.leaf n ps).render :=
  ((silent_startTag hn hne).append (silent_text (notMem_spell hps))).append
    (silent_endTag hname hn)

theorem silent_node {n : Node} (hname : name ≠ []) (hn : n.Valid) (hapart : n.Apart name) :
    Silent (elementAt name) n.render := by
  cases n with
  | gap t => exact silent_text hn
  | leaf n ps => exact silent_leaf hname hn.1 hn.2 hapart

theorem silent_nodes {l : List Node} (hname : name ≠ []) (h : ∀ c ∈ l, c.Valid ∧ c.Apart name) :
    Silent (elementAt name) (l.flatMap Node.render) := by
  induction l with
  | nil => exact silent_nil
  | cons n l ih =>
    obtain ⟨hn, hapart⟩ := h n mem_cons_self
    exact (silent_node hname hn hapart).append (ih fun c hc => h c (mem_cons_of_mem n hc))

/-- The pattern for a closing tag, as one that can be searched for. -/
def closingAt (name t : Text) : Option (Text × ℕ) := (closeAt name t).map fun rest => (rest, 0)

theorem closingAt_of_ne (t : Text) (hu : u ≠ 60) : closingAt name (u :: t) = none := by
  rcases t with _ | ⟨v, t⟩
  · rfl
  · rw [closingAt, closeAt, if_neg fun h => hu h.1]
    rfl

theorem noClosing_text (h : (60 : CodeUnit) ∉ t) : Silent (closingAt name) t :=
  silent_of_notMem (fun _ t hu => closingAt_of_ne t hu) h

theorem closeAt_endTag (hn : IsName n) (rest : Text) :
    closeAt name (endTag n ++ rest) = if SameName n name then some rest else none := by
  have heq : endTag n ++ rest = 60 :: 47 :: (n ++ 62 :: rest) := by simp [endTag]
  have hgt : isNameUnit 62 = false := by decide
  have hgt' : isWord 62 = false := by decide
  obtain ⟨htake, hdrop⟩ := takeWhile_name hn.word hgt' rest
  obtain ⟨-, hdrop'⟩ := takeWhile_name (fun v hv => isNameUnit_of_isWord (hn.word v hv)) hgt rest
  have hprefix : behindPrefix (n ++ 62 :: rest) = none := by
    rw [behindPrefix, hdrop']
    exact if_neg fun h => absurd h.1 (by decide)
  have hends : endsAt name (n ++ 62 :: rest) = if SameName n name then some rest else none := by
    rw [endsAt, hdrop, nameAt, htake]
    by_cases hsame : SameName n name
    · rw [if_pos hsame]
      exact if_pos ⟨rfl, decide_eq_true hsame⟩
    · rw [if_neg hsame]
      exact if_neg fun h => hsame (of_decide_eq_true h.2)
  rw [heq, closeAt, if_pos ⟨rfl, rfl⟩, hprefix, bind_none, none_or, hends]

theorem noClosing_endTag (hn : IsName n) (hne : ¬SameName n name) :
    Silent (closingAt name) (endTag n) := by
  refine silent_cons (fun rest => ?_) (noClosing_text ?_)
  · change closingAt name (endTag n ++ rest) = none
    rw [closingAt, closeAt_endTag hn, if_neg hne]
    rfl
  · have hnot := notMem_word hn.word
    simp [hnot]

theorem noClosing_startTag (hn : IsName n) : Silent (closingAt name) (startTag n) := by
  refine silent_cons (fun rest => ?_) (noClosing_text ?_)
  · obtain ⟨v, n, rfl⟩ := exists_cons_of_ne_nil hn.ne_nil
    have hv : v ≠ 47 := by
      rintro rfl
      exact absurd (hn.word 47 mem_cons_self) (by decide)
    have hclose : closeAt name (60 :: v :: (n ++ [62] ++ rest)) = none := by
      rw [closeAt, if_neg fun h => hv h.2]
    exact congrArg (Option.map fun rest => (rest, 0)) hclose
  · have hnot := notMem_word hn.word
    simp [hnot]

theorem noClosing_nodes {l : List Node} (h : ∀ c ∈ l, c.Valid ∧ c.Apart name) :
    Silent (closingAt name) (l.flatMap Node.render) := by
  induction l with
  | nil => exact silent_nil
  | cons c l ih =>
    obtain ⟨hc, hapart⟩ := h c mem_cons_self
    refine Silent.append ?_ (ih fun c hc => h c (mem_cons_of_mem _ hc))
    cases c with
    | gap t => exact noClosing_text hc
    | leaf n ps => exact ((noClosing_startTag hc.1).append (noClosing_text
        (notMem_spell hc.2))).append (noClosing_endTag hc.1 hapart)

theorem untilClose_append {p : Text} (h : Silent (closingAt name) p) (t : Text) :
    untilClose name (p ++ t) = (untilClose name t).map fun r => (p ++ r.1, r.2) := by
  induction p with
  | nil =>
    rw [nil_append]
    exact map_id'.symm
  | cons u p ih =>
    have hp : Silent (closingAt name) p :=
      fun s hs hsuffix => h s hs (hsuffix.trans (suffix_cons u p))
    have hnone : closeAt name (u :: p ++ t) = none :=
      map_eq_none_iff.mp (h (u :: p) (by simp) suffix_rfl t)
    rw [cons_append] at hnone ⊢
    rw [untilClose, hnone, ih hp, Option.map_map]
    rfl

theorem taken_element {content : Text} (hn : IsName n) (hsame : SameName n name)
    (hcontent : Silent (closingAt name) content) :
    Taken (elementAt name) (startTag n ++ content ++ endTag n)
      (startTag n ++ content ++ endTag n, content) := by
  refine ⟨by simp [startTag], fun rest => ?_⟩
  have heq : startTag n ++ content ++ endTag n ++ rest =
      60 :: (n ++ 62 :: (content ++ (endTag n ++ rest))) := by simp [startTag]
  have hword : ∀ u ∈ n, decide (u ≠ (62 : CodeUnit)) = true := by
    intro u hu
    refine decide_eq_true ?_
    rintro rfl
    exact absurd (hn.word 62 hu) (by decide)
  have hopen : openAt name (startTag n ++ content ++ endTag n ++ rest) =
      some (content ++ (endTag n ++ rest)) := by
    rw [heq, openAt, tagNameAt_append hn (by decide) (by decide),
      if_pos ⟨rfl, decide_eq_true hsame⟩, (takeWhile_name hword (by decide) _).2]
    rfl
  have hclose : untilClose name (content ++ (endTag n ++ rest)) = some (content, rest) := by
    have hend : untilClose name (endTag n ++ rest) = some ([], rest) := by
      have hat : closeAt name (endTag n ++ rest) = some rest :=
        (closeAt_endTag hn rest).trans (if_pos hsame)
      change untilClose name (60 :: ([47] ++ n ++ [62] ++ rest)) = _
      rw [untilClose]
      change (match closeAt name (endTag n ++ rest) with
        | some rest => some ([], rest)
        | none => _) = _
      rw [hat]
    rw [untilClose_append hcontent, hend, map_some, append_nil]
  rw [elementAt, hopen, bind_some, hclose, map_some]
  have hlen : (startTag n ++ content ++ endTag n ++ rest).length - rest.length =
      (startTag n ++ content ++ endTag n).length := by
    rw [length_append, Nat.add_sub_cancel]
  rw [hlen, take_left]

/-- **Searching markup.**  The search for a name finds the elements of that name, and goes over all
other parts of a document. -/
theorem shows_item (hname : name ≠ []) {i : Item} (h : i.Valid name) :
    Shows (elementAt name) Item.render (Item.value name) i := by
  cases i with
  | declaration t =>
    refine silent_cons (fun rest => ?_) (silent_text ?_)
    · exact elementAt_of_tagName (tagNameAt_of_notName hname (by decide) _)
    · have hnot : (60 : CodeUnit) ∉ t := h
      simp [hnot]
  | opening n attributes =>
    obtain ⟨hn, hne, hattributes, hhead⟩ := h
    refine silent_cons (fun rest => ?_) (silent_text ?_)
    · -- what follows the name of the tag ends it
      obtain ⟨u, t, heq, hu, hcolon⟩ : ∃ u t, attributes ++ [62] ++ rest = u :: t ∧
          isNameUnit u = false ∧ u ≠ 58 := by
        rcases hhead with rfl | hhead
        · exact ⟨62, rest, rfl, by decide, by decide⟩
        · obtain ⟨t, rfl⟩ := List.head?_eq_some_iff.mp hhead
          exact ⟨32, t ++ [62] ++ rest, by simp, by decide, by decide⟩
      have happ : elementAt name (60 :: (n ++ attributes ++ [62]) ++ rest) =
          elementAt name (60 :: (n ++ u :: t)) := by
        rw [← heq]
        simp
      refine happ.trans (elementAt_of_tagName ?_)
      rw [tagNameAt_append hn hu hcolon, decide_eq_false hne]
    · have hnot := notMem_word hn.word
      simp [hnot, hattributes]
  | closing n => exact silent_endTag hname h
  | node n =>
    cases n with
    | gap t => exact silent_text h
    | leaf n ps =>
      rw [Shows, Item.value]
      by_cases hsame : SameName n name
      · rw [if_pos hsame]
        exact taken_element h.1 hsame (noClosing_text (notMem_spell h.2))
      · rw [if_neg hsame]
        exact silent_leaf hname h.1 h.2 hsame
  | block n children =>
    rw [Shows, Item.value]
    by_cases hsame : SameName n name
    · rw [if_pos hsame]
      exact taken_element h.1 hsame (noClosing_nodes h.2)
    · rw [if_neg hsame]
      exact ((silent_startTag h.1 hsame).append (silent_nodes hname h.2)).append
        (silent_endTag hname h.1)

theorem xmlBlocks_render (hname : name ≠ []) {items : List Item} (h : ∀ i ∈ items, i.Valid name) :
    xmlBlocks (items.flatMap Item.render) name =
      (items.filterMap (Item.value name)).map Prod.fst := by
  rw [xmlBlocks, found_flatMap fun i hi => shows_item hname (h i hi)]

/-- What is read of a spelled text. -/
def readText (ps : List Piece) : Text := meaning (trimPieces ps)

theorem mem_of_mem_trimPieces (h : p ∈ trimPieces ps) : p ∈ ps :=
  (dropWhile_suffix _).subset ((List.rdropWhile_prefix _ _).subset h)

theorem tagAt_of_ne (t : Text) (hu : u ≠ 60) : tagAt (u :: t) = none := by
  rw [tagAt]
  exact if_neg fun h => hu h.1

theorem decode_text (h : ∀ p ∈ ps, p.Valid) :
    decodeXml (trim (replaceAll tagAt (fun _ => []) (spell ps))) = .ok (readText ps) := by
  rw [replaceAll_silent _ (silent_of_notMem (fun _ t hu => tagAt_of_ne t hu) (notMem_spell h)),
    trim_spell, decodeXml_spell fun p hp => h p (mem_of_mem_trimPieces hp), readText]

/-- The text of an element of a name. -/
def Item.text (name : Text) : Item → Option (List Piece)
  | node (.leaf n ps) => if SameName n name then some ps else none
  | _ => none

/-- The item is no block of a name. -/
def Item.NoBlock (name : Text) : Item → Prop
  | block n _ => ¬SameName n name
  | _ => True

theorem xmlText_render (hname : name ≠ []) {items : List Item}
    (h : ∀ i ∈ items, i.Valid name ∧ i.NoBlock name) :
    xmlText (items.flatMap Item.render) name =
      .ok ((items.filterMap (Item.text name)).head?.map readText) := by
  rw [xmlText, found_flatMap fun i hi => shows_item hname (h i hi).1]
  induction items with
  | nil => rfl
  | cons i items ih =>
    have htail := ih fun j hj => h j (mem_cons_of_mem i hj)
    obtain ⟨hvalid, hblock⟩ := h i mem_cons_self
    rw [filterMap_cons, filterMap_cons]
    cases i with
    | declaration t => exact htail
    | opening n attributes => exact htail
    | closing n => exact htail
    | block n children =>
      rw [Item.value, if_neg hblock]
      exact htail
    | node n =>
      cases n with
      | gap t => exact htail
      | leaf n ps =>
        rw [Item.value, Item.text]
        by_cases hsame : SameName n name
        · rw [if_pos hsame, if_pos hsame]
          change (decodeXml (trim (replaceAll tagAt (fun _ => []) (spell ps)))).map some = _
          rw [decode_text hvalid.2]
          rfl
        · rw [if_neg hsame, if_neg hsame]
          exact htail

theorem mentions_append (p : Text) (h : tagNameAt name t = true) :
    mentions name (p ++ 60 :: t) = true := by
  induction p with
  | nil =>
    rw [nil_append, mentions, h]
    rfl
  | cons u p ih =>
    rw [cons_append, mentions, ih, Bool.or_true]

end Interocitor.S3
