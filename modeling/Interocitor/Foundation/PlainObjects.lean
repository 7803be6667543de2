import Interocitor.Foundation.Record

/-!
# Plain objects used as maps

A language with prototypes lets a plain object serve as a map from names to values.  Looking up a
name that the object has no property of its own for goes on in its prototype, so the names of the
built-in prototype are found in an empty object; and one name among them stands for the prototype
itself: reading it yields the prototype, and assigning an object to it replaces the prototype and
creates no property.

* `ProtoNames`, `PlainObject`: the names that are found everywhere, and an object of values of one
  kind.
* `get`, `set`, `spread`: looking up, assigning, copying.
* `Whole`: the prototype has not been replaced.  Then, and for names that are not found everywhere,
  looking up and assigning are the operations of a finite map: `get_whole`, `set_whole`.
* `get_builtin`, `own_set_proto`: what they are for the other names.
-/

namespace PlainObjects

open OrderedRecord

variable {κ V : Type*} [DecidableEq κ]

/-- The names of the built-in prototype; one of them stands for the prototype itself. -/
structure ProtoNames (κ : Type*) where
  proto : κ
  inherited : List κ
  proto_mem : proto ∈ inherited

/-- A plain object: its own properties, and the value that an assignment has put in the place of the
built-in prototype. -/
structure PlainObject (κ V : Type*) where
  own : Record κ V
  proto : Option V

/-- What a lookup finds: nothing; a value that was assigned; something of the built-in prototype; or
whatever a prototype that was put in its place has under the name. -/
inductive Found (V : Type*) where
  | absent
  | value (v : V)
  | builtin
  | foreign

/-- What a lookup in a map finds. -/
def Found.ofOption : Option V → Found V
  | some v => .value v
  | none => .absent

namespace PlainObject

variable (N : ProtoNames κ)

/-- `{}`. -/
def empty : PlainObject κ V := ⟨∅, none⟩

/-- `object[name]`. -/
def get (o : PlainObject κ V) (k : κ) : Found V :=
  match o.own.get k, o.proto with
  | some v, _ => .value v
  | none, none => if k ∈ N.inherited then .builtin else .absent
  | none, some v => if k = N.proto then .value v else .foreign

/-- `object[name] = v`, of a value that is an object. -/
def set (o : PlainObject κ V) (k : κ) (v : V) : PlainObject κ V :=
  match o.own.get k with
  | some _ => { o with own := o.own.set k v }
  | none => if k = N.proto then { o with proto := some v } else { o with own := o.own.set k v }

/-- `{ ...object }`: the own properties are defined, not assigned. -/
def spread (o : PlainObject κ V) : PlainObject κ V := ⟨o.own, none⟩

/-- The prototype is the built-in one. -/
def Whole (o : PlainObject κ V) : Prop := o.proto = none

variable {N} {o : PlainObject κ V} {k : κ}

omit [DecidableEq κ] in
theorem whole_empty : (empty : PlainObject κ V).Whole := rfl

theorem get_whole (h : o.Whole) (hk : k ∉ N.inherited) : o.get N k = .ofOption (o.own.get k) := by
  rw [get, h]
  cases o.own.get k with
  | some v => rfl
  | none => exact if_neg hk

theorem get_builtin (h : o.Whole) (hk : k ∈ N.inherited) (hnone : o.own.get k = none) :
    o.get N k = .builtin := by
  rw [get, hnone, h]
  exact if_pos hk

theorem set_ne (hk : k ≠ N.proto) (v : V) : o.set N k v = { o with own := o.own.set k v } := by
  rw [set]
  cases o.own.get k with
  | some w => rfl
  | none => exact if_neg hk

theorem own_set_proto (hnone : o.own.get N.proto = none) (v : V) :
    (o.set N N.proto v).own = o.own := by
  rw [set, hnone]
  dsimp only
  rw [if_pos rfl]

omit [DecidableEq κ] in
theorem ne_proto (hk : k ∉ N.inherited) : k ≠ N.proto := fun h => hk (h ▸ N.proto_mem)

theorem foldl_set {l : List (κ × V)} (h : ∀ p ∈ l, p.1 ≠ N.proto) (o : PlainObject κ V) :
    l.foldl (fun o p => o.set N p.1 p.2) o = { o with own := o.own.setAll l } := by
  induction l generalizing o with
  | nil => rfl
  | cons p l ih =>
    rw [List.forall_mem_cons] at h
    rw [List.foldl_cons, ih h.2, set_ne h.1]
    rfl

end PlainObject

end PlainObjects
