import Interocitor.Foundation.CodeUnits

/-!
# The text of a JSON value

A JSON value is written without spaces, members in their order.  What varies between printers
is how a string is written: the quotation mark, the backslash and the control characters are
escaped by all of them, and a code unit that is half of a surrogate pair without its other half
cannot be written as it is.  One printer escapes such a half as it goes along; another writes
the whole text first and goes over it once more; a third has a string type that has no such
halves.  All three write the same text.

* `quote`: one pass over the string.
* `plainQuote`: the string without regard to surrogates; `escapeSurrogates`: the second pass.
* `Json.render`: a value, given how strings and numbers are written.
* `escapeSurrogates_render`: writing plainly and going over the text again is one pass.
* `quote_eq_plainQuote`: on well-formed strings there is nothing to go over.
-/

namespace JsonText

open CodeUnits List

/-! ## Strings -/

/-- The first half of a surrogate pair. -/
def isHigh (u : CodeUnit) : Bool := decide (0xD800 ≤ u.val ∧ u.val ≤ 0xDBFF)

/-- The second half of a surrogate pair. -/
def isLow (u : CodeUnit) : Bool := decide (0xDC00 ≤ u.val ∧ u.val ≤ 0xDFFF)

/-- Either half. -/
def isSurrogate (u : CodeUnit) : Bool := decide (0xD800 ≤ u.val ∧ u.val ≤ 0xDFFF)

/-- `\u` and four hexadecimal digits. -/
def unicodeEscape (u : CodeUnit) : Text :=
  92 :: 117 :: padStart 4 (digitUnit 0) (numeral 16 u.val)

/-- The escapes of the quotation mark, the backslash and the control characters. -/
def escapeUnit (u : CodeUnit) : Text :=
  if u = 34 then [92, 34]
  else if u = 92 then [92, 92]
  else if u = 8 then [92, 98]
  else if u = 9 then [92, 116]
  else if u = 10 then [92, 110]
  else if u = 12 then [92, 102]
  else if u = 13 then [92, 114]
  else if u.val < 32 then unicodeEscape u
  else [u]

/-- The escape of a code unit that is not the start of a surrogate pair. -/
def escapeAlone (u : CodeUnit) : Text :=
  if isSurrogate u then unicodeEscape u else escapeUnit u

/-- The inside of a string, written in one pass. -/
def quoteBody : Text → Text
  | [] => []
  | [u] => escapeAlone u
  | u :: v :: t =>
    if isHigh u && isLow v then u :: v :: quoteBody t else escapeAlone u ++ quoteBody (v :: t)

/-- A string, written in one pass. -/
def quote (t : Text) : Text := 34 :: quoteBody t ++ [34]

/-- A string, written without regard to surrogates. -/
def plainQuote (t : Text) : Text := 34 :: t.flatMap escapeUnit ++ [34]

/-- Escape every surrogate that is not in a pair. -/
def escapeSurrogates : Text → Text
  | [] => []
  | [u] => if isSurrogate u then unicodeEscape u else [u]
  | u :: v :: t =>
    if isHigh u && isLow v then u :: v :: escapeSurrogates t
    else (if isSurrogate u then unicodeEscape u else [u]) ++ escapeSurrogates (v :: t)

/-- No surrogate stands outside a pair. -/
def isWellFormed : Text → Bool
  | [] => true
  | [u] => !isSurrogate u
  | u :: v :: t => if isHigh u && isLow v then isWellFormed t else !isSurrogate u && isWellFormed (v :: t)

variable {u : CodeUnit}

theorem isSurrogate_of_isHigh (h : isHigh u = true) : isSurrogate u = true := by
  simp only [isHigh, isSurrogate, decide_eq_true_eq] at *
  omega

theorem isSurrogate_of_isLow (h : isLow u = true) : isSurrogate u = true := by
  simp only [isLow, isSurrogate, decide_eq_true_eq] at *
  omega

theorem isSurrogate_of_lt (h : u.val < 128) : isSurrogate u = false := by
  simp only [isSurrogate, decide_eq_false_iff_not]
  omega

theorem escapeUnit_of_isSurrogate (h : isSurrogate u = true) : escapeUnit u = [u] := by
  simp only [isSurrogate, decide_eq_true_eq] at h
  have hne : ∀ {v : CodeUnit}, v.val < 128 → u ≠ v := by
    rintro v hv rfl
    omega
  rw [escapeUnit, if_neg (hne (by decide)), if_neg (hne (by decide)), if_neg (hne (by decide)),
    if_neg (hne (by decide)), if_neg (hne (by decide)), if_neg (hne (by decide)),
    if_neg (hne (by decide)), if_neg (by omega)]

theorem isSurrogate_of_mem_numeral {b n : ℕ} (hb : 1 < b) (hb' : b ≤ 16) (h : u ∈ numeral b n) :
    isSurrogate u = false := by
  rw [numeral, mem_map] at h
  obtain ⟨d, hd, rfl⟩ := h
  have hlt : d < 16 := lt_of_lt_of_le (lt_of_mem_digitsFront hb hd) hb'
  refine isSurrogate_of_lt ?_
  rw [val_digitUnit hlt]
  split_ifs <;> omega

theorem isSurrogate_of_mem_padStart {w b n : ℕ} (hb : 1 < b) (hb' : b ≤ 16)
    (h : u ∈ padStart w (digitUnit 0) (numeral b n)) : isSurrogate u = false := by
  rw [padStart, mem_append] at h
  rcases h with h | h
  · rw [eq_of_mem_replicate h]
    decide
  · exact isSurrogate_of_mem_numeral hb hb' h

theorem isSurrogate_of_mem_unicodeEscape {v : CodeUnit} (h : v ∈ unicodeEscape u) :
    isSurrogate v = false := by
  rw [unicodeEscape, mem_cons, mem_cons] at h
  rcases h with rfl | rfl | h
  · decide
  · decide
  · exact isSurrogate_of_mem_padStart (by norm_num) (by norm_num) h

theorem isSurrogate_of_mem_escapeUnit {v : CodeUnit} (hu : isSurrogate u = false)
    (h : v ∈ escapeUnit u) : isSurrogate v = false := by
  unfold escapeUnit at h
  split_ifs at h
  all_goals first
    | exact isSurrogate_of_mem_unicodeEscape h
    | (rw [mem_singleton] at h; rw [h]; exact hu)
    | (simp only [mem_cons, not_mem_nil, or_false] at h
       rcases h with rfl | rfl <;> decide)

theorem escapeUnit_head (u : CodeUnit) : ∃ h t, escapeUnit u = h :: t ∧ (h = u ∨ h = 92) := by
  unfold escapeUnit
  split_ifs
  all_goals first
    | exact ⟨92, _, rfl, Or.inr rfl⟩
    | exact ⟨u, _, rfl, Or.inl rfl⟩

/-! ### The second pass -/

variable {c : CodeUnit}

theorem escapeSurrogates_cons (h : isSurrogate c = false) (u : Text) :
    escapeSurrogates (c :: u) = c :: escapeSurrogates u := by
  have hhigh : isHigh c = false := by
    rcases hc : isHigh c with _ | _
    · rfl
    · rw [isSurrogate_of_isHigh hc] at h
      exact absurd h (by decide)
  cases u with
  | nil =>
    show (if isSurrogate c then unicodeEscape c else [c]) = [c]
    rw [h]
    rfl
  | cons v t => rw [escapeSurrogates, hhigh, h]; rfl

theorem escapeSurrogates_alone {a : CodeUnit} (ha : isSurrogate a = true)
    (hpair : (isHigh a && isLow c) = false) (u : Text) :
    escapeSurrogates (a :: c :: u) = unicodeEscape a ++ escapeSurrogates (c :: u) := by
  rw [escapeSurrogates, hpair, ha]
  rfl

/-- The second pass turns the text `s` into `s'`, whatever comes after it. -/
def Sealed (s s' : Text) : Prop :=
  ∀ u, escapeSurrogates (s ++ u) = s' ++ escapeSurrogates u

theorem sealed_nil : Sealed [] [] := fun _ => rfl

theorem Sealed.append {s s' t t' : Text} (hs : Sealed s s') (ht : Sealed t t') :
    Sealed (s ++ t) (s' ++ t') := by
  intro u
  rw [append_assoc, hs, ht, append_assoc]

theorem sealed_of_plain {s : Text} (h : ∀ u ∈ s, isSurrogate u = false) : Sealed s s := by
  intro u
  induction s with
  | nil => rfl
  | cons c s ih =>
    rw [cons_append, escapeSurrogates_cons (h c mem_cons_self),
      ih fun v hv => h v (mem_cons_of_mem c hv), cons_append]

theorem sealed_of_all {s : Text} (h : (s.all fun u => !isSurrogate u) = true) : Sealed s s := by
  refine sealed_of_plain fun u hu => ?_
  have hu := all_eq_true.mp h u hu
  rwa [Bool.not_eq_true'] at hu

theorem Sealed.cons (hc : isSurrogate c = false) {s s' : Text} (hs : Sealed s s') :
    Sealed (c :: s) (c :: s') := by
  intro u
  rw [cons_append, escapeSurrogates_cons hc, hs, cons_append]

theorem escapeSurrogates_flatMap (t : Text) (hc : isSurrogate c = false) (u : Text) :
    escapeSurrogates (t.flatMap escapeUnit ++ c :: u) = quoteBody t ++ escapeSurrogates (c :: u) := by
  have hlow : isLow c = false := by
    rcases h : isLow c with _ | _
    · rfl
    · rw [isSurrogate_of_isLow h] at hc
      exact absurd hc (by decide)
  -- the recursion is the one of the first pass: a pair, or one unit
  induction t using quoteBody.induct with
  | case1 => rfl
  | case2 a =>
    rw [flatMap_cons, flatMap_nil, append_nil, quoteBody, escapeAlone]
    rcases ha : isSurrogate a with _ | _
    · rw [if_neg Bool.false_ne_true]
      exact sealed_of_plain (fun v hv => isSurrogate_of_mem_escapeUnit ha hv) _
    · rw [if_pos rfl, escapeUnit_of_isSurrogate ha]
      exact escapeSurrogates_alone ha (by rw [hlow, Bool.and_false]) u
  | case3 a b t hpair ih =>
    have ha := isSurrogate_of_isHigh (Bool.and_eq_true_iff.mp hpair).1
    have hb := isSurrogate_of_isLow (Bool.and_eq_true_iff.mp hpair).2
    rw [flatMap_cons, flatMap_cons, escapeUnit_of_isSurrogate ha,
      escapeUnit_of_isSurrogate hb, quoteBody, if_pos hpair]
    show escapeSurrogates (a :: b :: (t.flatMap escapeUnit ++ c :: u)) = _
    rw [escapeSurrogates, if_pos hpair, ih]
    rfl
  | case4 a b t hpair ih =>
    rw [flatMap_cons, quoteBody, if_neg hpair, append_assoc, append_assoc, escapeAlone]
    rcases ha : isSurrogate a with _ | _
    · rw [if_neg Bool.false_ne_true, sealed_of_plain fun v hv => isSurrogate_of_mem_escapeUnit ha hv,
        ih]
    · rw [if_pos rfl, escapeUnit_of_isSurrogate ha, ← ih, flatMap_cons]
      obtain ⟨h, r, hr, hh⟩ := escapeUnit_head b
      rw [hr]
      refine escapeSurrogates_alone ha ?_ _
      rcases hh with rfl | rfl
      · exact Bool.eq_false_iff.mpr hpair
      · have hbackslash : isLow 92 = false := by decide
        rw [hbackslash, Bool.and_false]

theorem sealed_plainQuote (t : Text) : Sealed (plainQuote t) (quote t) := by
  intro u
  have hmark : isSurrogate 34 = false := by decide
  show escapeSurrogates (34 :: (t.flatMap escapeUnit ++ [34] ++ u)) = _
  rw [escapeSurrogates_cons hmark, append_assoc]
  show 34 :: escapeSurrogates (t.flatMap escapeUnit ++ 34 :: u) = _
  rw [escapeSurrogates_flatMap t hmark, escapeSurrogates_cons hmark, quote, cons_append,
    cons_append, append_assoc]
  rfl

/-- **Well-formed strings.**  Nothing in them needs the second pass. -/
theorem quote_eq_plainQuote {t : Text} (h : isWellFormed t = true) : quote t = plainQuote t := by
  have hbody : quoteBody t = t.flatMap escapeUnit := by
    induction t using quoteBody.induct with
    | case1 => rfl
    | case2 a =>
      rw [isWellFormed, Bool.not_eq_true'] at h
      rw [quoteBody, escapeAlone, h, flatMap_cons, flatMap_nil, append_nil]
      rfl
    | case3 a b t hpair ih =>
      rw [isWellFormed, if_pos hpair] at h
      have ha := isSurrogate_of_isHigh (Bool.and_eq_true_iff.mp hpair).1
      have hb := isSurrogate_of_isLow (Bool.and_eq_true_iff.mp hpair).2
      rw [quoteBody, if_pos hpair, flatMap_cons, flatMap_cons,
        escapeUnit_of_isSurrogate ha, escapeUnit_of_isSurrogate hb, ih h]
      rfl
    | case4 a b t hpair ih =>
      rw [isWellFormed, if_neg hpair, Bool.and_eq_true_iff, Bool.not_eq_true'] at h
      rw [quoteBody, if_neg hpair, flatMap_cons, escapeAlone, h.1, ih h.2]
      rfl
  rw [quote, plainQuote, hbody]

theorem isWellFormed_of_plain {t : Text} (h : ∀ u ∈ t, isSurrogate u = false) :
    isWellFormed t = true := by
  induction t using isWellFormed.induct with
  | case1 => rfl
  | case2 u =>
    rw [isWellFormed, h u mem_cons_self]
    rfl
  | case3 u v t hpair ih =>
    have hhigh := isSurrogate_of_isHigh (Bool.and_eq_true_iff.mp hpair).1
    rw [h u mem_cons_self] at hhigh
    exact absurd hhigh Bool.false_ne_true
  | case4 u v t hpair ih =>
    rw [isWellFormed, if_neg hpair, h u mem_cons_self, ih fun w hw => h w (mem_cons_of_mem u hw)]
    rfl

/-! ## Values -/

/-- A JSON value whose numbers are in `ν` and whose member names are in `κ`. -/
inductive Json (κ ν : Type) where
  | null
  | bool (b : Bool)
  | number (x : ν)
  | string (t : Text)
  | object (members : List (κ × Json κ ν))

/-- `null`, `true`, `false`. -/
def nullText : Text := [110, 117, 108, 108]

@[inherit_doc nullText]
def boolText : Bool → Text
  | true => [116, 114, 117, 101]
  | false => [102, 97, 108, 115, 101]

/-- Texts with commas between them. -/
def joined : List Text → Text
  | [] => []
  | [s] => s
  | s :: t :: rest => s ++ 44 :: joined (t :: rest)

theorem sealed_joined {l l' : List Text} (h : List.Forall₂ Sealed l l') :
    Sealed (joined l) (joined l') := by
  induction h with
  | nil => exact sealed_nil
  | cons hs hrest ih =>
    cases hrest with
    | nil => exact hs
    | cons ht hrest => exact hs.append (ih.cons (by decide))

namespace Json

variable {κ ν : Type} (string : Text → Text) (number : ν → Text) (name : κ → Text)

mutual

/-- The text of a value. -/
def render : Json κ ν → Text
  | null => nullText
  | bool b => boolText b
  | .number x => number x
  | .string t => string t
  | object members => 123 :: joined (renderMembers members) ++ [125]

/-- The texts of the members of an object. -/
def renderMembers : List (κ × Json κ ν) → List Text
  | [] => []
  | (k, v) :: members => (string (name k) ++ 58 :: render v) :: renderMembers members

end

/-- Numbers are written without surrogates. -/
def PlainNumbers : Prop := ∀ x u, u ∈ number x → isSurrogate u = false

variable {number}

mutual

/-- **Two passes are one.**  A value whose strings are written plainly and whose text is then
gone over again is the value whose strings are written in one pass. -/
theorem sealed_render (hnumber : PlainNumbers number) : ∀ v : Json κ ν,
    Sealed (v.render plainQuote number name) (v.render quote number name)
  | null => by
    rw [render, render]
    exact sealed_of_all (by decide)
  | bool b => by
    rw [render, render]
    exact sealed_of_all (by cases b <;> decide)
  | .number x => sealed_of_plain (hnumber x)
  | .string t => sealed_plainQuote t
  | object members => by
    rw [render, render]
    exact ((sealed_joined (sealed_renderMembers hnumber members)).cons (by decide)).append
      (sealed_of_all (by decide))

theorem sealed_renderMembers (hnumber : PlainNumbers number) : ∀ members : List (κ × Json κ ν),
    List.Forall₂ Sealed (renderMembers plainQuote number name members)
      (renderMembers quote number name members)
  | [] => List.Forall₂.nil
  | (k, v) :: members => by
    rw [renderMembers, renderMembers]
    exact List.Forall₂.cons
      ((sealed_plainQuote (name k)).append ((sealed_render hnumber v).cons (by decide)))
      (sealed_renderMembers hnumber members)

end

theorem escapeSurrogates_render (hnumber : PlainNumbers number) (v : Json κ ν) :
    escapeSurrogates (v.render plainQuote number name) = v.render quote number name := by
  have h := sealed_render name hnumber v []
  rw [append_nil, escapeSurrogates, append_nil] at h
  exact h

/-! ### The numbers in a value -/

mutual

/-- Every number in a value has a property. -/
def Numbers (P : ν → Prop) : Json κ ν → Prop
  | null => True
  | bool _ => True
  | .number x => P x
  | .string _ => True
  | object members => MemberNumbers P members

/-- Every number in the members of an object has a property. -/
def MemberNumbers (P : ν → Prop) : List (κ × Json κ ν) → Prop
  | [] => True
  | (_, v) :: members => Numbers P v ∧ MemberNumbers P members

end

variable {number' : ν → Text} {P : ν → Prop}

mutual

theorem render_congr (h : ∀ x, P x → number x = number' x) : ∀ v : Json κ ν, v.Numbers P →
    v.render string number name = v.render string number' name
  | null, _ => by rw [render, render]
  | bool b, _ => by rw [render, render]
  | .number x, hv => by
    rw [render, render]
    exact h x (by rwa [Numbers] at hv)
  | .string t, _ => by rw [render, render]
  | object members, hv => by
    rw [Numbers] at hv
    rw [render, render, renderMembers_congr h members hv]

theorem renderMembers_congr (h : ∀ x, P x → number x = number' x) :
    ∀ members : List (κ × Json κ ν), MemberNumbers P members →
    renderMembers string number name members = renderMembers string number' name members
  | [], _ => rfl
  | (k, v) :: members, hv => by
    rw [MemberNumbers] at hv
    rw [renderMembers, renderMembers, render_congr h v hv.1, renderMembers_congr h members hv.2]

end

/-- The member of a name. -/
def get [DecidableEq κ] (members : List (κ × Json κ ν)) (k : κ) : Option (Json κ ν) :=
  (members.find? fun m => decide (m.1 = k)).map Prod.snd

end Json

end JsonText
