import Interocitor.Core.Frame

/-!
# The mailbox as a world

The world an engine talks to: the objects of the store, and a record of every write
that was ever applied, which no engine can read.  `Truthful` is the behaviour of a
store that may fail any request, leave any request without an answer and apply a
write whose answer got lost, but that never lies: what it returns it holds, and what
it reports missing is missing.  Clock readings and identifiers are arbitrary.
-/

namespace Interocitor

open CodeUnits OrderedRecord Interaction

/-- The objects of a mesh, and every write that was applied. -/
structure Mailbox where
  objects : Objects
  written : List (ObjectPath × Content)

namespace Mailbox

/-- Apply a write. -/
def write (w : Mailbox) (path : ObjectPath) (content : Content) : Mailbox :=
  ⟨w.objects.set path content, w.written ++ [(path, content)]⟩

/-- Apply a delete. -/
def delete (w : Mailbox) (path : ObjectPath) : Mailbox := ⟨w.objects.erase path, w.written⟩

@[simp] theorem objects_write (w : Mailbox) (path : ObjectPath) (content : Content) :
    (w.write path content).objects = w.objects.set path content := rfl

@[simp] theorem objects_delete (w : Mailbox) (path : ObjectPath) :
    (w.delete path).objects = w.objects.erase path := rfl

/-- What reading an object may answer. -/
def ReadAnswer (w : Mailbox) (path : ObjectPath) : Except NoAnswer Content → Prop
  | .ok content => w.objects.get path = some content
  | .error (.failed .missing) => w.objects.get path = none
  | .error _ => True

/-- What a write or a delete may answer: success means that it was applied, anything
else leaves open whether it was. -/
def ApplyAnswer (w applied w' : Mailbox) : Except NoAnswer Unit → Prop
  | .ok _ => w' = applied
  | .error _ => w' = w ∨ w' = applied

/-- What a listing may answer: all names, in some order. -/
def ListAnswer {α : Type} (names : List α) : Except NoAnswer (List α) → Prop
  | .ok listing => listing.Perm names
  | .error _ => True

/-- The paths in `mainline/`. -/
def mainlinePaths (w : Mailbox) : List ObjectPath := w.objects.keys.filter ObjectPath.isSnapshot

/-- The answers of a store that may fail but does not lie. -/
def Truthful (w : Mailbox) : (c : Call) → Reply c → Mailbox → Prop
  | .now, _, w' => w' = w
  | .uuid, _, w' => w' = w
  | .isAuthenticated, _, w' => w' = w
  | .authenticate, _, w' => w' = w
  | .readFile path, rep, w' => w' = w ∧ w.ReadAnswer path rep
  | .writeFile path content, rep, w' => w.ApplyAnswer (w.write path content) w' rep
  | .deleteFile path, rep, w' => w.ApplyAnswer (w.delete path) w' rep
  | .listChanges, rep, w' => w' = w ∧ ListAnswer (changeNames w.objects) rep
  | .listMainline, rep, w' => w' = w ∧ ListAnswer w.mainlinePaths rep
  | .ensureFolder _, _, w' => w' = w

/-- A store that may fail any request, seen by one engine at a time. -/
def faulty : Env Call Reply Mailbox := ⟨Eq, Truthful, fun _ _ => True⟩

theorem quiet_faulty {I : Device → Mailbox → Prop} : Quiet faulty I where
  now := by
    rintro d w w₁ rep w₂ hI rfl rfl
    exact ⟨trivial, hI⟩
  uuid := by
    rintro d w w₁ rep w₂ hI rfl rfl
    exact ⟨trivial, hI⟩
  isAuthenticated := by
    rintro d w w₁ rep w₂ hI rfl rfl
    exact ⟨trivial, hI⟩
  authenticate := by
    rintro d w w₁ rep w₂ hI rfl rfl
    exact ⟨trivial, hI⟩
  readFile path := by
    rintro d w w₁ rep w₂ hI rfl ⟨rfl, -⟩
    exact ⟨trivial, hI⟩
  listChanges := by
    rintro d w w₁ rep w₂ hI rfl ⟨rfl, -⟩
    exact ⟨trivial, hI⟩
  listMainline := by
    rintro d w w₁ rep w₂ hI rfl ⟨rfl, -⟩
    exact ⟨trivial, hI⟩
  ensureFolder folder := by
    rintro d w w₁ rep w₂ hI rfl rfl
    exact ⟨trivial, hI⟩

theorem askKeeps_writeFile {I : Device → Mailbox → Prop} {path : ObjectPath} {content : Content}
    (h : ∀ d w, I d w → I d (w.write path content)) :
    Proc.AskKeeps faulty I (.writeFile path content) := by
  rintro d w w₁ rep w₂ hI rfl hans
  refine ⟨trivial, ?_⟩
  cases rep with
  | ok _ => exact hans ▸ h d w hI
  | error _ =>
    rcases hans with rfl | rfl
    · exact hI
    · exact h d w hI

/-! ## A store that answers by a function -/

/-- A store that works, except that reading the objects in `broken` fails.  Clock
readings are `wall`, and identifiers number the writes. -/
def reply (wall : ℕ) (broken : ObjectPath → Option NoAnswer) (w : Mailbox) :
    (c : Call) → Reply c × Mailbox
  | .now => (wall, w)
  | .uuid => ([Fin.ofNat 65536 w.written.length], w)
  | .isAuthenticated => (true, w)
  | .authenticate => (.ok (), w)
  | .readFile path =>
    (match broken path with
      | some e => .error e
      | none =>
        match w.objects.get path with
        | some content => .ok content
        | none => .error (.failed .missing), w)
  | .writeFile path content => (.ok (), w.write path content)
  | .deleteFile path => (.ok (), w.delete path)
  | .listChanges => (.ok (changeNames w.objects), w)
  | .listMainline => (.ok w.mainlinePaths, w)
  | .ensureFolder _ => (.ok (), w)

theorem truthful_reply {wall : ℕ} {broken : ObjectPath → Option NoAnswer}
    (h : ∀ path, broken path ≠ some (.failed .missing)) (w : Mailbox) (c : Call) :
    w.Truthful c (reply wall broken w c).1 (reply wall broken w c).2 := by
  cases c with
  | readFile path =>
    refine ⟨rfl, ?_⟩
    simp only [reply]
    cases hb : broken path with
    | some e =>
      cases e with
      | stalled => trivial
      | failed e =>
        cases e with
        | missing => exact absurd hb (h path)
        | _ => trivial
    | none =>
      cases ho : w.objects.get path with
      | some content => exact ho
      | none => exact ho
  | listChanges => exact ⟨rfl, List.Perm.refl _⟩
  | listMainline => exact ⟨rfl, List.Perm.refl _⟩
  | _ => rfl

end Mailbox

theorem applied_or_not {w applied w' : Mailbox} {rep : Except NoAnswer Unit}
    (h : w.ApplyAnswer applied w' rep) : w' = w ∨ w' = applied := by
  cases rep with
  | ok _ => exact .inr h
  | error _ => exact h

end Interocitor
