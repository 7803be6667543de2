import Interocitor.Foundation.Utf8Order
import Interocitor.Worker.Selections

/-!
# What the worker's deletions remove

`opDeletePath` deletes the rows whose path is the path given or lies in a range of texts after it,
from the path with a slash to the path with a slash and U+FFFF.  The database compares by bytes.  In
UTF-8 a character beyond U+FFFF comes after U+FFFF, and so does U+FFFF itself with more after it, so
that names which start with such a character stay.

At the root the whole mount is deleted.

* `deletes_subtree_iff`: a deletion removes exactly the subtree if and only if there are none.
-/

namespace Interocitor.Worker.Io

open OrderedRecord Interaction Utf8Order List

/-! ## The range -/

theorem utf8_inj {s t : Path} : utf8 s = utf8 t ↔ s = t := by
  refine ⟨fun h => ?_, congrArg utf8⟩
  rcases lt_trichotomy s t with hlt | heq | hgt
  · exact absurd ((utf8_lt_iff s t).mpr hlt) (h ▸ lt_irrefl _)
  · exact heq
  · exact absurd ((utf8_lt_iff t s).mpr hgt) (h ▸ lt_irrefl _)

/-- The condition of the statements, on bytes: `path = ?2 OR (path >= ?3 AND path < ?4)`. -/
theorem selected_eq_bytes (path candidate : Path) : selected path candidate =
    (decide (path = ['/']) || decide (utf8 candidate = utf8 path ∨
      utf8 (path ++ ['/']) ≤ utf8 candidate ∧
        utf8 candidate < utf8 (path ++ ['/'] ++ [lastUnit]))) := by
  refine congrArg (decide (path = ['/']) || ·) (decide_eq_decide.mpr ?_)
  rw [utf8_inj, utf8_lt_iff, ← not_lt, ← not_lt, utf8_lt_iff]

theorem append_lt_append_iff (s t u : Path) : s ++ t < s ++ u ↔ t < u := by
  induction s with
  | nil => exact Iff.rfl
  | cons c s ih =>
    rw [cons_append, cons_append, cons_lt_cons_iff, ih]
    simp only [lt_irrefl, false_or, true_and]

/-- Where a folder's path is the path of a row, or the row lies below it. -/
def AtOrBelow (path row : Path) : Prop := row = path ∨ folderText path ++ ['/'] <+: row

instance (path row : Path) : Decidable (AtOrBelow path row) := by
  unfold AtOrBelow
  infer_instance

/-- The rows on which the range and the subtree differ: below a folder, the names that start with
U+FFFF or a character after it; at the root, what does not start with a slash. -/
def Unmatched (path row : Path) : Prop :=
  if path = ['/'] then row.head? ≠ some '/'
  else ∃ c rest, row = path ++ '/' :: c :: rest ∧ lastUnit ≤ c

theorem lt_lastUnit_iff (name : Path) :
    name < [lastUnit] ↔ ¬∃ c rest, name = c :: rest ∧ lastUnit ≤ c := by
  cases name with
  | nil =>
    refine iff_of_true (nil_lt_cons _ _) ?_
    rintro ⟨c, rest, h, -⟩
    exact cons_ne_nil _ _ h.symm
  | cons c rest =>
    rw [cons_lt_cons_iff]
    constructor
    · rintro (hlt | ⟨-, hlt⟩) ⟨d, rest', h, hle⟩
      · rw [List.cons.injEq] at h
        exact absurd (h.1 ▸ hlt) (not_lt.mpr hle)
      · exact not_lt_nil _ hlt
    · intro h
      refine .inl (not_le.mp fun hle => h ⟨c, rest, rfl, hle⟩)

theorem selected_iff {path row : Path} :
    (selected path row = true ↔ AtOrBelow path row) ↔ ¬Unmatched path row := by
  rw [selected, AtOrBelow, Unmatched, folderText, Bool.or_eq_true, decide_eq_true_eq,
    decide_eq_true_eq]
  by_cases hroot : path = ['/']
  · rw [if_pos hroot, if_pos hroot, hroot]
    simp only [true_or, true_iff, nil_append, not_not]
    cases row with
    | nil => decide
    | cons c row =>
      simp only [List.head?_cons, Option.some.injEq, cons_prefix_cons, nil_prefix,
        and_true, List.cons.injEq]
      exact ⟨fun h => h.elim And.left Eq.symm, fun h => .inr h.symm⟩
  · rw [if_neg hroot, if_neg hroot]
    simp only [hroot, false_or]
    by_cases hself : row = path
    · simp only [hself, true_or, true_iff]
      rintro ⟨c, rest, h, -⟩
      exact cons_ne_nil _ _ (append_right_eq_self.mp h.symm)
    simp only [hself, false_or]
    by_cases hbelow : path ++ ['/'] <+: row
    · obtain ⟨name, rfl⟩ := hbelow
      have hle : path ++ ['/'] ≤ path ++ ['/'] ++ name := by
        rw [← not_lt, ← append_nil (path ++ ['/']), append_assoc, append_lt_append_iff]
        exact not_lt_nil _
      simp only [hle, true_and, prefix_append, iff_true, append_lt_append_iff, lt_lastUnit_iff]
      simp only [append_assoc, singleton_append, append_cancel_left_eq, List.cons.injEq, true_and]
    · refine iff_of_true (iff_of_false ?_ hbelow) ?_
      · rintro ⟨hle, hlt⟩
        exact hbelow (starts_of_between hle hlt)
      · rintro ⟨c, rest, rfl, -⟩
        exact hbelow ⟨c :: rest, by rw [append_assoc, singleton_append]⟩

/-! ## Deletions -/

/-- The rows that a deletion leaves, by what it selects. -/
def withoutRows {V : Type} (r : Record Key V) (mount : Path) (gone : Path → Bool) : Record Key V :=
  r.filter fun key _ => !(decide (key.1 = mount) && gone key.2)

/-- A deletion removes the rows of a mount at a path and below it, and no others, and answers
`false` only if no file went. -/
def DeletesSubtree (t : Tables) (mount path : Path) (remoteRoot : Option Path) : Prop :=
  ∀ fate : Fate, fate.fails = false → ∃ deleted t',
    perform fate (opDeletePath mount (normalizePath path) remoteRoot) t = (.ok deleted, t') ∧
      t'.files =
        withoutRows t.files mount (fun row => decide (AtOrBelow (normalizePath path) row)) ∧
      t'.folders =
        withoutRows t.folders mount (fun row => decide (AtOrBelow (normalizePath path) row)) ∧
      (deleted = false → t'.files = t.files)

variable {fate : Fate}

theorem perform_forgetAll (hfate : fate.fails = false) (t : Tables) (mount : Path)
    (deletedFiles : List (Path × ℕ)) :
    perform fate (forgetAll mount deletedFiles) t = (.ok (), t) := by
  induction deletedFiles with
  | nil => rfl
  | cons file rest ih =>
    have hone : perform fate (Proc.tryCatch (await (.cacheDelete (mount, file.1)))
        fun _ => pure ()) t = (.ok (), t) := perform_tryCatch (perform_await hfate _)
    exact (perform_bind hone).trans ih

theorem perform_meshDelta (hfate : fate.fails = false) (t : Tables) (mount : Path)
    (remoteRoot : Option Path) (delta : MetricsDelta) (now : ℕ) :
    perform fate (Proc.when (remoteRoot.isSome = true) do
      let _ ← await (.batch (meshDeltaStatements mount remoteRoot delta now false false))
      pure ()) t =
      (.ok (), (Statement.execAll t
        (meshDeltaStatements mount remoteRoot delta now false false)).1) := by
  refine perform_when (fun _ => (perform_bind (perform_await hfate _)).trans rfl) fun h => ?_
  cases remoteRoot with
  | none => rfl
  | some root => exact absurd rfl h

/-- The roots of a mount after a deletion. -/
def rootsAfter (t : Tables) (mount path : Path) (remoteRoot : Option Path) (now : ℕ) :
    Record Key MeshRecord :=
  if path = ['/'] then resetAll t.meshPaths mount now
  else if t.files.keys.filter (inSubtree mount path) = [] then t.meshPaths
  else
    let deletedFiles :=
      (t.files.entries.filter fun e => inSubtree mount path e.1).map fun e => (e.1.2, e.2.size)
    (Statement.execAll t (meshDeltaStatements mount remoteRoot
      ⟨-(t.files.keys.filter (inSubtree mount path)).length, -bytesOf (fun _ => true) deletedFiles,
        -bytesOf (fun k => decide (k = .changeFile)) deletedFiles,
        -bytesOf (fun k => decide (k = .mainlineSnapshot)) deletedFiles⟩
      now false false)).1.meshPaths

theorem perform_opDeletePath (hfate : fate.fails = false) (t : Tables) (mount path : Path)
    (remoteRoot : Option Path) :
    perform fate (opDeletePath mount path remoteRoot) t =
      (.ok (decide (path = ['/'] ∨ t.files.keys.filter (inSubtree mount path) ≠ [])),
        { t with
          files := withoutRows t.files mount (selected path)
          folders := withoutRows t.folders mount (selected path)
          meshPaths := rootsAfter t mount path remoteRoot fate.time }) := by
  rw [opDeletePath]
  refine (perform_bind (perform_await hfate _)).trans ?_
  by_cases hroot : path = ['/']
  · rw [if_pos hroot]
    refine (perform_bind (perform_await hfate _)).trans ?_
    refine (perform_bind (perform_forgetAll hfate _ _ _)).trans ?_
    refine (perform_bind (perform_await hfate _)).trans ?_
    refine (perform_bind (perform_await hfate _)).trans ?_
    refine (perform_bind (perform_await hfate _)).trans ?_
    rw [rootsAfter, if_pos hroot, perform_pure, decide_eq_true (.inl hroot)]
    rfl
  · rw [if_neg hroot]
    refine (perform_bind (perform_await hfate _)).trans ?_
    refine (perform_bind (perform_await hfate _)).trans ?_
    change perform fate
      (if (t.files.keys.filter (inSubtree mount path)).length = 0 then _ else _) _ = _
    rw [rootsAfter, if_neg hroot]
    by_cases hnone : t.files.keys.filter (inSubtree mount path) = []
    · rw [if_pos (length_eq_zero_iff.mpr hnone), if_pos hnone, perform_pure,
        decide_eq_false (not_or.mpr ⟨hroot, not_not.mpr hnone⟩)]
      rfl
    · rw [if_neg fun h => hnone (length_eq_zero_iff.mp h), if_neg hnone,
        decide_eq_true (.inr hnone)]
      refine (perform_bind (perform_meshDelta hfate _ _ _ _ _)).trans ?_
      refine (perform_bind (perform_forgetAll hfate _ _ _)).trans ?_
      refine (perform_bind (perform_await hfate _)).trans ?_
      cases remoteRoot with
      | none => rfl
      | some root => rfl

theorem filter_eq_iff {V : Type} (r : Record Key V) (mount : Path) (p q : Path → Bool) :
    withoutRows r mount p = withoutRows r mount q ↔
      ∀ row, (mount, row) ∈ r.keys → p row = q row := by
  constructor
  · intro h row hrow
    obtain ⟨v, hv⟩ := Record.mem_keys_iff.mp hrow
    have hget := congrArg (fun r => r.get (mount, row)) h
    simp only [withoutRows, Record.get_filter, hv, Option.filter_some, decide_true,
      Bool.true_and] at hget
    cases hp : p row <;> cases hq : q row <;> simp_all
  · intro h
    have hentries : ∀ e ∈ r.entries, (!(decide (e.1.1 = mount) && p e.1.2)) =
        !(decide (e.1.1 = mount) && q e.1.2) := by
      intro e he
      by_cases hmount : e.1.1 = mount
      · rw [h e.1.2 (hmount ▸ mem_map_of_mem he)]
      · rw [decide_eq_false hmount]
        rfl
    rw [withoutRows, withoutRows, Record.filter, Record.filter, Record.mk.injEq]
    exact filter_congr hentries

theorem withoutRows_eq_self {V : Type} {r : Record Key V} {mount : Path} {gone : Path → Bool}
    (h : (r.keys.filter fun key => decide (key.1 = mount) && gone key.2) = []) :
    withoutRows r mount gone = r := by
  obtain ⟨entries, nodup⟩ := r
  rw [withoutRows, Record.filter, Record.mk.injEq]
  refine filter_eq_self.mpr fun e he => ?_
  have hgone := filter_eq_nil_iff.mp h e.1 (mem_map_of_mem he)
  rw [Bool.not_eq_true] at hgone
  rw [hgone, Bool.not_false]

/-- **When a deletion removes exactly the subtree.** -/
theorem deletes_subtree_iff (t : Tables) (mount path : Path) (remoteRoot : Option Path) :
    DeletesSubtree t mount path remoteRoot ↔ ∀ row, (mount, row) ∈ t.files.keys ∨
      (mount, row) ∈ t.folders.keys → ¬Unmatched (normalizePath path) row := by
  have hrows : ∀ {V : Type} (r : Record Key V),
      withoutRows r mount (selected (normalizePath path)) =
        withoutRows r mount (fun row => decide (AtOrBelow (normalizePath path) row)) ↔
        ∀ row, (mount, row) ∈ r.keys → ¬Unmatched (normalizePath path) row := by
    intro V r
    rw [filter_eq_iff]
    refine forall₂_congr fun row _ => ?_
    rw [← selected_iff, Bool.eq_iff_iff, decide_eq_true_eq]
  have hnone : decide (normalizePath path = ['/'] ∨
      t.files.keys.filter (inSubtree mount (normalizePath path)) ≠ []) = false →
        withoutRows t.files mount (selected (normalizePath path)) = t.files := by
    intro h
    exact withoutRows_eq_self (not_not.mp (not_or.mp (of_decide_eq_false h)).2)
  constructor
  · intro h
    obtain ⟨deleted, t', heq, hfiles, hfolders, -⟩ := h quiet rfl
    rw [perform_opDeletePath rfl, Prod.mk.injEq] at heq
    obtain ⟨-, rfl⟩ := heq
    rintro row (hrow | hrow)
    · exact (hrows _).mp hfiles row hrow
    · exact (hrows _).mp hfolders row hrow
  · intro h fate hfate
    refine ⟨_, _, perform_opDeletePath hfate t mount _ remoteRoot, ?_, ?_, hnone⟩
    · exact (hrows _).mpr fun row hrow => h row (.inl hrow)
    · exact (hrows _).mpr fun row hrow => h row (.inr hrow)

/-- A folder named by a character beyond U+FFFF stays below the folder deleted. -/
theorem not_deletes_subtree : ¬∀ (t : Tables) (mount path : Path) (remoteRoot : Option Path),
    DeletesSubtree t mount path remoteRoot := by
  intro h
  have hrow := (deletes_subtree_iff (oneFile ['x'] ['/', 'a', '/', Char.ofNat 0x1F600]) ['x']
    ['/', 'a'] none).mp (h _ _ _ _) _ (shown_oneFile _ _ |>.imp_right And.left)
  refine hrow ?_
  rw [Unmatched, if_neg (by decide)]
  exact ⟨Char.ofNat 0x1F600, [], by decide, by decide⟩

end Interocitor.Worker.Io
