import Interocitor.Foundation.Decimals
import Interocitor.Foundation.JsonText

/-!
# Reading JSON

A reader of the JSON grammar over code units.  What it makes of a text is left to a `Builder`: one
language makes every number a binary float, another tells integers from floats, and some readers
know a few words more than the three of the grammar.

Writers differ in how they write a string --- which characters they escape, and how --- and a
reader must not care.  The facts about reading are therefore stated by the piece: `Reads p t` says
that the piece `p` stands for the characters `t` wherever in a string it occurs, and `Parses` says
the same of an item, a member or a value.  Pieces compose, and a writer is shown to be read back by
going over what it writes.

* `readBody`, `Reads`, `reads_quoteBody`: strings, with every spelling of a character.
* `readNumber`, `readNumber_ofNat`: the numbers of the grammar.
* `readMany`, `parses_many`: what stands between brackets, with commas.
* `readValue`, `read`: values, and a text that is one value.
* `quote_append_inj`: no quoted string is the front of another.
-/

namespace JsonReader

open CodeUnits JsonText Decimals List

/-! ## Strings -/

/-- Where the reader of a string stands: between characters, after a backslash, or after `\u` and
some of its digits. -/
inductive Mode where
  | plain
  | escape
  | hex (digits : List ℕ)

/-- What a backslash and a character other than `u` stand for. -/
def unescape (u : CodeUnit) : Option CodeUnit :=
  if u = 34 ∨ u = 92 ∨ u = 47 then some u
  else if u = 98 then some 8
  else if u = 102 then some 12
  else if u = 110 then some 10
  else if u = 114 then some 13
  else if u = 116 then some 9
  else none

/-- One more character in front. -/
def onto (u : CodeUnit) (out : Text × Text) : Text × Text := (u :: out.1, out.2)

/-- The inside of a string up to its closing quotation mark, and what comes after it. -/
def readBody : Mode → Text → Option (Text × Text)
  | _, [] => none
  | .plain, u :: rest =>
    if u = 34 then some ([], rest)
    else if u = 92 then readBody .escape rest
    else if u.val < 32 then none
    else (readBody .plain rest).map (onto u)
  | .escape, u :: rest =>
    if u = 117 then readBody (.hex []) rest
    else
      match unescape u with
      | some c => (readBody .plain rest).map (onto c)
      | none => none
  | .hex ds, u :: rest =>
    match digitBelow 16 u with
    | none => none
    | some d =>
      if ds.length = 3 then
        (readBody .plain rest).map (onto (Fin.ofNat 65536 (frontValue 16 (ds ++ [d]))))
      else readBody (.hex (ds ++ [d])) rest

/-- A string with its quotation marks. -/
def readString : Text → Option (Text × Text)
  | u :: rest => if u = 34 then readBody .plain rest else none
  | [] => none

/-- The piece `p` of a string stands for the characters `t`. -/
def Reads (p t : Text) : Prop :=
  ∀ rest, readBody .plain (p ++ rest) =
    (readBody .plain rest).map fun out => (t ++ out.1, out.2)

theorem reads_nil : Reads [] [] := by
  intro rest
  rw [nil_append]
  cases readBody .plain rest <;> rfl

theorem Reads.append {p p' t t' : Text} (h : Reads p t) (h' : Reads p' t') :
    Reads (p ++ p') (t ++ t') := by
  intro rest
  rw [append_assoc, h, h', Option.map_map]
  exact congrArg (fun f => Option.map f (readBody .plain rest))
    (funext fun out => Prod.ext (append_assoc t t' out.1).symm rfl)

variable {u : CodeUnit}

theorem reads_unit (hquote : u ≠ 34) (hslash : u ≠ 92) (hcontrol : 32 ≤ u.val) : Reads [u] [u] := by
  intro rest
  rw [singleton_append, readBody, if_neg hquote, if_neg hslash, if_neg (by omega)]
  rfl

theorem reads_escape {c : CodeUnit} (hc : c ≠ 117) (hu : unescape c = some u) :
    Reads [92, c] [u] := by
  intro rest
  have hslash : readBody .plain ([92, c] ++ rest) = readBody .escape (c :: rest) := rfl
  rw [hslash, readBody, if_neg hc, hu]
  rfl

variable {l : List ℕ}

theorem exists_four (h : l.length = 4) : ∃ a b c d, l = [a, b, c, d] := by
  rcases l with _ | ⟨a, _ | ⟨b, _ | ⟨c, _ | ⟨d, _ | ⟨e, l⟩⟩⟩⟩⟩
  case cons.cons.cons.cons.nil => exact ⟨a, b, c, d, rfl⟩
  all_goals exact absurd h (by simp)

/-- The four digits after `\u`. -/
theorem readBody_hex {a b c d : ℕ} (ha : a < 16) (hb : b < 16) (hc : c < 16) (hd : d < 16)
    (rest : Text) :
    readBody (.hex []) ([a, b, c, d].map digitUnit ++ rest) =
      (readBody .plain rest).map (onto (Fin.ofNat 65536 (frontValue 16 [a, b, c, d]))) := by
  have hdigit : ∀ {e : ℕ}, e < 16 → digitBelow 16 (digitUnit e) = some e :=
    fun he => digitBelow_digitUnit le_rfl he
  simp only [map_cons, map_nil, cons_append, nil_append, readBody, hdigit ha,
    hdigit hb, hdigit hc, hdigit hd]
  rfl

theorem reads_unicodeEscape (u : CodeUnit) : Reads (unicodeEscape u) [u] := by
  intro rest
  have hlength : (paddedDigits 4 16 u.val).length = 4 :=
    length_paddedDigits (by norm_num) (by norm_num) u.isLt
  have hlt : ∀ d ∈ paddedDigits 4 16 u.val, d < 16 := fun d => lt_of_mem_paddedDigits (by norm_num)
  have hvalue : frontValue 16 (paddedDigits 4 16 u.val) = u.val := frontValue_paddedDigits ..
  have hunfold : readBody .plain (unicodeEscape u ++ rest) =
      readBody (.hex []) ((paddedDigits 4 16 u.val).map digitUnit ++ rest) := by
    rw [unicodeEscape, padStart_numeral]
    rfl
  obtain ⟨a, b, c, d, hdigits⟩ := exists_four hlength
  rw [hdigits] at hlt hvalue
  rw [hunfold, hdigits, readBody_hex (hlt a (by simp)) (hlt b (by simp)) (hlt c (by simp))
    (hlt d (by simp)), hvalue]
  have hback : Fin.ofNat 65536 u.val = u := Fin.ext (Nat.mod_eq_of_lt u.isLt)
  rw [hback]
  rfl

theorem reads_escapeUnit (u : CodeUnit) : Reads (escapeUnit u) [u] := by
  unfold escapeUnit
  split_ifs with hquote hslash h8 h9 h10 h12 h13 hcontrol
  all_goals try subst u
  · exact reads_escape (by decide) rfl
  · exact reads_escape (by decide) rfl
  · exact reads_escape (by decide) rfl
  · exact reads_escape (by decide) rfl
  · exact reads_escape (by decide) rfl
  · exact reads_escape (by decide) rfl
  · exact reads_escape (by decide) rfl
  · exact reads_unicodeEscape u
  · exact reads_unit hquote hslash (by omega)

theorem reads_escapeAlone (u : CodeUnit) : Reads (escapeAlone u) [u] := by
  rw [escapeAlone]
  split_ifs
  · exact reads_unicodeEscape u
  · exact reads_escapeUnit u

theorem reads_surrogate (h : isSurrogate u = true) : Reads [u] [u] := by
  have hunit := reads_escapeUnit u
  rwa [escapeUnit_of_isSurrogate h] at hunit

/-- **A string written in one pass is read as itself.** -/
theorem reads_quoteBody (t : Text) : Reads (quoteBody t) t := by
  induction t using quoteBody.induct with
  | case1 => exact reads_nil
  | case2 u => exact reads_escapeAlone u
  | case3 u v t hpair ih =>
    have hu := isSurrogate_of_isHigh (Bool.and_eq_true_iff.mp hpair).1
    have hv := isSurrogate_of_isLow (Bool.and_eq_true_iff.mp hpair).2
    rw [quoteBody, if_pos hpair]
    exact (reads_surrogate hu).append ((reads_surrogate hv).append ih)
  | case4 u v t hpair ih =>
    rw [quoteBody, if_neg hpair]
    exact (reads_escapeAlone u).append ih

theorem reads_flatMap {f : CodeUnit → Text} (h : ∀ u, Reads (f u) [u]) (t : Text) :
    Reads (t.flatMap f) t := by
  induction t with
  | nil => exact reads_nil
  | cons u t ih =>
    rw [flatMap_cons]
    exact (h u).append ih

theorem readString_of_reads {p t : Text} (h : Reads p t) (rest : Text) :
    readString (34 :: p ++ [34] ++ rest) = some (t, rest) := by
  have hclose : readBody .plain (34 :: rest) = some ([], rest) := rfl
  rw [cons_append, cons_append, readString, if_pos rfl, append_assoc, h,
    singleton_append, hclose, Option.map_some, append_nil]

theorem readString_quote (t rest : Text) : readString (quote t ++ rest) = some (t, rest) :=
  readString_of_reads (reads_quoteBody t) rest

theorem quote_append_inj {s t x y : Text} (h : quote s ++ x = quote t ++ y) : s = t ∧ x = y := by
  have hs := readString_quote s x
  rw [h, readString_quote, Option.some.injEq, Prod.mk.injEq] at hs
  exact ⟨hs.1.symm, hs.2.symm⟩

/-! ## Numbers -/

/-- The digits at the front of a text, and the rest. -/
def readDigits (t : Text) : List ℕ × Text :=
  (leadingDigits 10 t, t.drop (leadingDigits 10 t).length)

/-- `.` and digits, or nothing. -/
def readFraction : Text → Option (Option (ℕ × ℕ) × Text)
  | u :: rest =>
    if u = 46 then
      if (readDigits rest).1 = [] then none
      else some (some (frontValue 10 (readDigits rest).1, (readDigits rest).1.length),
        (readDigits rest).2)
    else some (none, u :: rest)
  | [] => some (none, [])

/-- The digits of an exponent, after its sign. -/
def readPower (negative : Bool) (t : Text) : Option (Option ℤ × Text) :=
  if (readDigits t).1 = [] then none
  else some (some (sign negative * frontValue 10 (readDigits t).1), (readDigits t).2)

/-- `e` or `E`, perhaps a sign, and digits, or nothing. -/
def readExponent : Text → Option (Option ℤ × Text)
  | u :: rest =>
    if u = 101 ∨ u = 69 then
      match rest with
      | v :: rest' =>
        if v = 43 then readPower false rest'
        else if v = 45 then readPower true rest'
        else readPower false rest
      | [] => none
    else some (none, u :: rest)
  | [] => some (none, [])

/-- What follows the sign of a number. -/
def readUnsigned (negative : Bool) (t : Text) : Option (Literal × Text) :=
  let digits := (readDigits t).1
  -- a leading zero stands alone
  if digits = [] ∨ (digits.head? = some 0 ∧ digits.length ≠ 1) then none
  else
    match readFraction (readDigits t).2 with
    | none => none
    | some (fraction, rest) =>
      (readExponent rest).map fun out =>
        (⟨negative, frontValue 10 digits, fraction, out.1⟩, out.2)

/-- A number. -/
def readNumber : Text → Option (Literal × Text)
  | u :: rest => if u = 45 then readUnsigned true rest else readUnsigned false (u :: rest)
  | [] => none

/-- Nothing that goes on with a number: the end, a comma or a closing bracket. -/
def Stops (t : Text) : Prop := ∀ u ∈ t.head?, u = 44 ∨ u = 93 ∨ u = 125

theorem stops_nil : Stops [] := fun _ h => absurd h (by simp)

theorem stops_cons (h : u = 44 ∨ u = 93 ∨ u = 125) (t : Text) : Stops (u :: t) := by
  intro v hv
  rw [List.head?_cons, Option.mem_some] at hv
  exact hv ▸ h

variable {t : Text}

theorem leadingDigits_of_stops (h : Stops t) : leadingDigits 10 t = [] := by
  cases t with
  | nil => rfl
  | cons u t =>
    have hu := h u rfl
    have hdigit : digitBelow 10 u = none := by
      rcases hu with rfl | rfl | rfl <;> rfl
    rw [leadingDigits, hdigit]

theorem leadingDigits_append (hl : ∀ d ∈ l, d < 10) (ht : Stops t) :
    leadingDigits 10 (l.map digitUnit ++ t) = l := by
  induction l with
  | nil => exact leadingDigits_of_stops ht
  | cons d l ih =>
    rw [forall_mem_cons] at hl
    rw [map_cons, cons_append, leadingDigits, digitBelow_digitUnit (by norm_num) hl.1, ih hl.2]

theorem readDigits_append (hl : ∀ d ∈ l, d < 10) (ht : Stops t) :
    readDigits (l.map digitUnit ++ t) = (l, t) := by
  rw [readDigits, leadingDigits_append hl ht, ← length_map digitUnit, drop_left]

theorem head_digitsFront (n : ℕ) :
    ¬ ((digitsFront 10 n).head? = some 0 ∧ (digitsFront 10 n).length ≠ 1) := by
  rintro ⟨hhead, hlength⟩
  rw [digitsFront] at hhead hlength
  split_ifs at hhead hlength with hn
  · exact hlength rfl
  · rw [List.head?_reverse] at hhead
    have hlast := Nat.getLast_digit_ne_zero 10 hn
    rw [List.getLast?_eq_some_getLast (Nat.digits_ne_nil_iff_ne_zero.mpr hn),
      Option.some.injEq] at hhead
    exact hlast hhead

/-- **A number written in digits is read as it.** -/
theorem readNumber_ofNat (n : ℕ) (ht : Stops t) :
    readNumber (numeral 10 n ++ t) = some (.ofInt n, t) := by
  have hlt : ∀ d ∈ digitsFront 10 n, d < 10 := fun d => lt_of_mem_digitsFront (by norm_num)
  have hdigits : readDigits (numeral 10 n ++ t) = (digitsFront 10 n, t) :=
    readDigits_append hlt ht
  have hfraction : readFraction t = some (none, t) := by
    cases t with
    | nil => rfl
    | cons u t => rw [readFraction, if_neg (by rcases ht u rfl with rfl | rfl | rfl <;> decide)]
  have hexponent : readExponent t = some (none, t) := by
    cases t with
    | nil => rfl
    | cons u t =>
      have hu : ¬ (u = 101 ∨ u = 69) := by rcases ht u rfl with rfl | rfl | rfl <;> decide
      simp only [readExponent, if_neg hu]
  have hunsigned : readUnsigned false (numeral 10 n ++ t) = some (.ofInt n, t) := by
    have hguard : ¬ (digitsFront 10 n = [] ∨
        (digitsFront 10 n).head? = some 0 ∧ (digitsFront 10 n).length ≠ 1) := by
      rintro (hnil | hzero)
      · exact digitsFront_ne_nil 10 n hnil
      · exact head_digitsFront n hzero
    simp only [readUnsigned, hdigits, if_neg hguard, hfraction, hexponent, Option.map_some,
      frontValue_digitsFront]
    have hsign : decide ((n : ℤ) < 0) = false := decide_eq_false (by omega)
    rw [Literal.ofInt, hsign, Int.natAbs_natCast]
  obtain ⟨d, l, hd⟩ := exists_cons_of_ne_nil (digitsFront_ne_nil 10 n)
  have hcons : numeral 10 n ++ t = digitUnit d :: (l.map digitUnit ++ t) := by
    rw [numeral, hd]
    rfl
  have hminus : digitUnit d ≠ 45 := by
    have hd10 := hlt d (by rw [hd]; exact mem_cons_self)
    intro h
    have hval := congrArg Fin.val h
    rw [val_digitUnit (by omega), if_pos hd10] at hval
    have h45 : ((45 : CodeUnit) : ℕ) = 45 := rfl
    omega
  rw [hcons] at hunsigned ⊢
  rw [readNumber, if_neg hminus, hunsigned]

/-! ## Items between brackets -/

/-- White space between tokens. -/
def isBlank (u : CodeUnit) : Bool := decide (u = 32 ∨ u = 9 ∨ u = 10 ∨ u = 13)

/-- Skip white space. -/
def skip (t : Text) : Text := t.dropWhile isBlank

section Many

variable {α : Type*}

/-- One or more items with commas between them, up to the closing bracket.  There are at most `n`
items. -/
def readItems (item : Text → Option (α × Text)) (close : CodeUnit) :
    ℕ → Text → Option (List α × Text)
  | 0, _ => none
  | n + 1, t =>
    match item t with
    | none => none
    | some (a, rest) =>
      match skip rest with
      | [] => none
      | u :: rest =>
        if u = close then some ([a], rest)
        else if u = 44 then
          (readItems item close n rest).map fun out => (a :: out.1, out.2)
        else none

/-- Any number of items, up to the closing bracket. -/
def readMany (item : Text → Option (α × Text)) (close : CodeUnit) (t : Text) :
    Option (List α × Text) :=
  match skip t with
  | [] => none
  | u :: rest => if u = close then some ([], rest) else readItems item close t.length (u :: rest)

/-- The piece `p` is read as `a` in front of whatever may follow a value. -/
def Parses (read : Text → Option (α × Text)) (p : Text) (a : α) : Prop :=
  ∀ t, Stops t → read (p ++ t) = some (a, t)

/-- The text starts with something other than white space and a closing bracket. -/
def Solid (p : Text) : Prop := ∃ u r, p = u :: r ∧ isBlank u = false ∧ u ≠ 93 ∧ u ≠ 125

theorem skip_of_stops (h : Stops t) : skip t = t := by
  cases t with
  | nil => rfl
  | cons u t =>
    refine dropWhile_cons_of_neg ?_
    rcases h u rfl with rfl | rfl | rfl <;> decide

theorem skip_of_solid {p : Text} (h : Solid p) (t : Text) : skip (p ++ t) = p ++ t := by
  obtain ⟨u, r, rfl, hblank, -⟩ := h
  exact dropWhile_cons_of_neg (by rw [hblank]; exact Bool.false_ne_true)

variable {item : Text → Option (α × Text)} {close : CodeUnit} {pieces : List (Text × α)}

theorem readItems_joined (hclose : close = 93 ∨ close = 125)
    (hpieces : ∀ q ∈ pieces, Parses item q.1 q.2) (hne : pieces ≠ []) {n : ℕ}
    (hn : pieces.length ≤ n) (t : Text) :
    readItems item close n (joined (pieces.map Prod.fst) ++ close :: t) =
      some (pieces.map Prod.snd, t) := by
  have hstop : Stops (close :: t) := stops_cons (Or.inr hclose) t
  induction pieces generalizing n with
  | nil => exact absurd rfl hne
  | cons q pieces ih =>
    obtain ⟨n, rfl⟩ := Nat.exists_eq_succ_of_ne_zero (Nat.ne_of_gt (lt_of_lt_of_le (by simp) hn))
    rw [forall_mem_cons] at hpieces
    cases pieces with
    | nil =>
      rw [map_singleton, joined, readItems, hpieces.1 _ hstop]
      dsimp only
      rw [skip_of_stops hstop]
      dsimp only
      rw [if_pos rfl]
      rfl
    | cons q' pieces =>
      have hcomma : Stops (44 :: (joined ((q' :: pieces).map Prod.fst) ++ close :: t)) :=
        stops_cons (Or.inl rfl) _
      have hother : (44 : CodeUnit) ≠ close := by rcases hclose with rfl | rfl <;> decide
      have hrest := ih hpieces.2 (cons_ne_nil q' pieces)
        (Nat.le_of_succ_le_succ (by simpa using hn))
      have htext : joined ((q :: q' :: pieces).map Prod.fst) ++ close :: t =
          q.1 ++ 44 :: (joined ((q' :: pieces).map Prod.fst) ++ close :: t) := by
        rw [map_cons, map_cons, joined, append_assoc, cons_append]
      rw [htext, readItems, hpieces.1 _ hcomma]
      dsimp only
      rw [skip_of_stops hcomma]
      dsimp only
      rw [if_neg hother, if_pos rfl, hrest]
      rfl

theorem length_le_joined (l : List Text) (h : ∀ p ∈ l, p ≠ []) : l.length ≤ (joined l).length := by
  induction l with
  | nil => exact Nat.zero_le _
  | cons p l ih =>
    rw [forall_mem_cons] at h
    have hp : 0 < p.length := length_pos_iff.mpr h.1
    have hl := ih h.2
    cases l with
    | nil => exact hp
    | cons q l =>
      rw [joined, length_append, length_cons (a := 44), length_cons (a := p)]
      omega

/-- **Items with commas between them are read one by one.** -/
theorem readMany_joined (hclose : close = 93 ∨ close = 125)
    (hpieces : ∀ q ∈ pieces, Parses item q.1 q.2 ∧ Solid q.1) (t : Text) :
    readMany item close (joined (pieces.map Prod.fst) ++ close :: t) =
      some (pieces.map Prod.snd, t) := by
  cases pieces with
  | nil =>
    have hstop : Stops (close :: t) := stops_cons (Or.inr hclose) t
    rw [map_nil, joined, nil_append, readMany, skip_of_stops hstop]
    dsimp only
    rw [if_pos rfl]
    rfl
  | cons q pieces =>
    obtain ⟨u, r, hq, hblank, h93, h125⟩ := (hpieces q mem_cons_self).2
    have hne : u ≠ close := by
      rcases hclose with rfl | rfl
      · exact h93
      · exact h125
    obtain ⟨r', hr'⟩ : ∃ r', joined ((q :: pieces).map Prod.fst) ++ close :: t = u :: r' := by
      cases pieces with
      | nil => exact ⟨_, by rw [map_singleton, joined, hq, cons_append]⟩
      | cons q' pieces =>
        exact ⟨_, by rw [map_cons, map_cons, joined, hq, cons_append, cons_append]⟩
    have hskip : skip (u :: r') = u :: r' :=
      dropWhile_cons_of_neg (by rw [hblank]; exact Bool.false_ne_true)
    have hlength : (q :: pieces).length ≤ (u :: r').length := by
      have hjoined := length_le_joined ((q :: pieces).map Prod.fst) (by
        intro p hp
        obtain ⟨q', hq', rfl⟩ := mem_map.mp hp
        obtain ⟨v, s, hv, -⟩ := (hpieces q' hq').2
        rw [hv]
        exact cons_ne_nil v s)
      rw [length_map] at hjoined
      rw [← hr', length_append]
      omega
    have hitems := readItems_joined hclose (fun q hq => (hpieces q hq).1)
      (cons_ne_nil q pieces) hlength t
    rw [hr'] at hitems ⊢
    rw [readMany, hskip]
    dsimp only
    rw [if_neg hne, hitems]

end Many

/-! ## Values -/

/-- What a reader makes of what it reads. -/
structure Builder (V : Type*) where
  null : V
  bool : Bool → V
  /-- `none` if the number is refused. -/
  number : Literal → Option V
  string : Text → V
  array : List V → V
  object : List (Text × V) → V
  /-- The words beside the three of the grammar. -/
  words : List (Text × V)

section Values

variable {V : Type*} (B : Builder V)

/-- One of the words at the front of a text. -/
def readWord : List (Text × V) → Text → Option (V × Text)
  | [], _ => none
  | w :: words, t =>
    if w.1 <+: t then some (w.2, t.drop w.1.length) else readWord words t

/-- A member of an object. -/
def readMember (value : Text → Option (V × Text)) (t : Text) : Option ((Text × V) × Text) :=
  match readString (skip t) with
  | none => none
  | some (name, rest) =>
    match skip rest with
    | [] => none
    | u :: rest => if u = 58 then (value rest).map fun out => ((name, out.1), out.2) else none

/-- A value, nested to the depth `n` at most. -/
def readValue : ℕ → Text → Option (V × Text)
  | 0, _ => none
  | n + 1, t =>
    match skip t with
    | [] => none
    | u :: rest =>
      if u = 34 then (readBody .plain rest).map fun out => (B.string out.1, out.2)
      else if u = 91 then
        (readMany (readValue n) 93 rest).map fun out => (B.array out.1, out.2)
      else if u = 123 then
        (readMany (readMember (readValue n)) 125 rest).map fun out => (B.object out.1, out.2)
      else
        match readNumber (u :: rest) with
        | some (l, rest') => (B.number l).map fun v => (v, rest')
        | none =>
          readWord ([(nullText, B.null), (boolText true, B.bool true),
            (boolText false, B.bool false)] ++ B.words) (u :: rest)

/-- A text that is one value, with white space around it.  No value is nested deeper than its text
is long. -/
def read (t : Text) : Option V :=
  match readValue B (t.length + 1) t with
  | none => none
  | some (v, rest) => if skip rest = [] then some v else none

variable {B}

theorem read_of_parses {p : Text} {v : V} (h : Parses (readValue B (p.length + 1)) p v) :
    read B p = some v := by
  have hp := h [] stops_nil
  rw [append_nil] at hp
  rw [read, hp]
  rfl

theorem solid_quoted (p : Text) : Solid (34 :: p ++ [34]) :=
  ⟨34, p ++ [34], rfl, rfl, by decide, by decide⟩

theorem parses_string {p : Text} (h : Reads p t) (n : ℕ) :
    Parses (readValue B (n + 1)) (34 :: p ++ [34]) (B.string t) := by
  intro rest _
  have hstring := readString_of_reads h rest
  rw [cons_append, cons_append, readString, if_pos rfl] at hstring
  rw [readValue, skip_of_solid (solid_quoted p)]
  dsimp only [cons_append]
  rw [if_pos rfl, hstring]
  rfl

theorem head_numeral (m : ℕ) : ∃ d r, d < 10 ∧ numeral 10 m = digitUnit d :: r := by
  obtain ⟨d, l, hd⟩ := exists_cons_of_ne_nil (digitsFront_ne_nil 10 m)
  refine ⟨d, l.map digitUnit, lt_of_mem_digitsFront (b := 10) (n := m) (by norm_num) ?_, ?_⟩
  · rw [hd]
    exact mem_cons_self
  · rw [numeral, hd]
    rfl

theorem digitUnit_ne {d : ℕ} (hd : d < 10) (hu : u.val < 48 ∨ 57 < u.val) : digitUnit d ≠ u := by
  rintro rfl
  rw [val_digitUnit (by omega), if_pos hd] at hu
  omega

theorem solid_numeral (m : ℕ) : Solid (numeral 10 m) := by
  obtain ⟨d, r, hd, hnumeral⟩ := head_numeral m
  refine ⟨digitUnit d, r, hnumeral, ?_, digitUnit_ne hd (by decide), digitUnit_ne hd (by decide)⟩
  rw [isBlank, decide_eq_false_iff_not]
  rintro (h | h | h | h) <;> exact digitUnit_ne hd (by decide) h

theorem parses_numeral {m : ℕ} {v : V} (h : B.number (.ofInt m) = some v) (n : ℕ) :
    Parses (readValue B (n + 1)) (numeral 10 m) v := by
  intro t ht
  have hnumber := readNumber_ofNat m ht
  obtain ⟨d, r, hd, hnumeral⟩ := head_numeral m
  rw [readValue, skip_of_solid (solid_numeral m)]
  rw [hnumeral, cons_append] at hnumber ⊢
  dsimp only
  rw [if_neg (digitUnit_ne hd (by decide)), if_neg (digitUnit_ne hd (by decide)),
    if_neg (digitUnit_ne hd (by decide)), hnumber]
  dsimp only
  rw [h]
  rfl

theorem parses_member {value : Text → Option (V × Text)} {k name p : Text} {v : V}
    (hname : Reads k name) (hvalue : Parses value p v) :
    Parses (readMember value) (34 :: k ++ [34] ++ 58 :: p) (name, v) := by
  intro t ht
  have hcolon : skip (58 :: (p ++ t)) = 58 :: (p ++ t) := dropWhile_cons_of_neg (by decide)
  have htext : 34 :: k ++ [34] ++ 58 :: p ++ t = 34 :: k ++ [34] ++ 58 :: (p ++ t) :=
    append_assoc _ _ _
  rw [readMember, htext, skip_of_solid (solid_quoted k), readString_of_reads hname]
  dsimp only
  rw [hcolon]
  dsimp only
  rw [if_pos rfl, hvalue t ht]
  rfl

theorem solid_member (k p : Text) : Solid (34 :: k ++ [34] ++ 58 :: p) :=
  ⟨34, k ++ [34] ++ 58 :: p, rfl, rfl, by decide, by decide⟩

theorem parses_array {n : ℕ} {pieces : List (Text × V)}
    (h : ∀ q ∈ pieces, Parses (readValue B n) q.1 q.2 ∧ Solid q.1) :
    Parses (readValue B (n + 1)) (91 :: joined (pieces.map Prod.fst) ++ [93])
      (B.array (pieces.map Prod.snd)) := by
  intro t _
  have hmany := readMany_joined (Or.inl rfl) h t
  have hskip : skip (91 :: (joined (pieces.map Prod.fst) ++ 93 :: t)) =
      91 :: (joined (pieces.map Prod.fst) ++ 93 :: t) := dropWhile_cons_of_neg (by decide)
  rw [cons_append, cons_append, append_assoc, singleton_append, readValue, hskip]
  dsimp only
  rw [if_neg (by decide), if_pos rfl, hmany]
  rfl

theorem parses_object {n : ℕ} {pieces : List (Text × Text × V)}
    (h : ∀ q ∈ pieces, Parses (readMember (readValue B n)) q.1 q.2 ∧ Solid q.1) :
    Parses (readValue B (n + 1)) (123 :: joined (pieces.map Prod.fst) ++ [125])
      (B.object (pieces.map Prod.snd)) := by
  intro t _
  have hmany := readMany_joined (Or.inr rfl) h t
  have hskip : skip (123 :: (joined (pieces.map Prod.fst) ++ 125 :: t)) =
      123 :: (joined (pieces.map Prod.fst) ++ 125 :: t) := dropWhile_cons_of_neg (by decide)
  rw [cons_append, cons_append, append_assoc, singleton_append, readValue, hskip]
  dsimp only
  rw [if_neg (by decide), if_neg (by decide), if_pos rfl, hmany]
  rfl

theorem read_strings (fields : List (Text × Text)) :
    read B (123 :: joined (fields.map fun f => quote f.1 ++ 58 :: quote f.2) ++ [125]) =
      some (B.object (fields.map fun f => (f.1, B.string f.2))) := by
  let pieces := fields.map fun f => (quote f.1 ++ 58 :: quote f.2, f.1, B.string f.2)
  have htexts : pieces.map Prod.fst = fields.map fun f => quote f.1 ++ 58 :: quote f.2 := by
    rw [map_map]
    rfl
  have hvalues : pieces.map Prod.snd = fields.map fun f => (f.1, B.string f.2) := by
    rw [map_map]
    rfl
  rw [← htexts, ← hvalues]
  -- every text is long enough for an object of strings
  have hdepth : (123 :: joined (pieces.map Prod.fst) ++ [125]).length + 1 =
      (joined (pieces.map Prod.fst)).length + 1 + 1 + 1 := by
    rw [cons_append, length_cons, length_append]
    rfl
  refine read_of_parses ?_
  rw [hdepth]
  refine parses_object fun p hp => ?_
  obtain ⟨f, -, rfl⟩ := mem_map.mp hp
  exact ⟨parses_member (reads_quoteBody f.1) (parses_string (reads_quoteBody f.2) _),
    solid_member _ _⟩

end Values

end JsonReader
