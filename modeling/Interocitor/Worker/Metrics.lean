import Interocitor.Worker.Subtrees

/-!
# The sums that the worker keeps of a mesh

`mesh_paths` has for each mesh root the number of its files and three sums of their sizes.  The
writing operations do not recompute them; each adds a difference that it works out on its own, next
to the statement that changes the rows.

The difference is right for `opPutSemantic`, which reads the old row first.  `opPutImmutable` adds
the new file also when its insert was ignored, `opPutOverwrite` adds nothing, and `opDeletePath`
takes all the rows it deletes from the sums of one root, whatever roots they belong to.

* `metrics_match`: along runs of such steps the sums kept are those of the rows, and then
  `opReconcileMetrics` leaves them as they are if and only if its pattern matches no file of another
  root.
-/

namespace Interocitor.Worker.Io

open OrderedRecord Interaction GuardedRuns List Option

/-! ## Sums -/

/-- What a file adds to a sum of a mesh root. -/
def share (key : Key) (kind : PathType → Bool) (unit : FileRow → ℕ) (e : Key × FileRow) : ℕ :=
  if e.1.1 = key.1 ∧ meshRootForPath e.1.2 = some key.2 ∧ kind (classifyPath e.1.2) = true then
    unit e.2
  else 0

/-- The sums of the files that `meshRootForPath` assigns to a root. -/
def sumsOf (files : Record Key FileRow) (key : Key) : Metrics where
  fileCount := files.weight (share key (fun _ => true) fun _ => 1)
  totalBytes := files.weight (share key (fun _ => true) FileRow.size)
  changeBytes := files.weight (share key (fun k => decide (k = .changeFile)) FileRow.size)
  mainlineBytes := files.weight (share key (fun k => decide (k = .mainlineSnapshot)) FileRow.size)

/-- The sums kept for a root. -/
def currentOf (t : Tables) (key : Key) : Metrics :=
  ((t.meshPaths.get key).map MeshRecord.current).getD ⟨0, 0, 0, 0⟩

/-- The sums kept are the sums of the rows. -/
def Matches (t : Tables) : Prop :=
  ∀ key record, t.meshPaths.get key = some record → record.current = sumsOf t.files key

/-! ## Runs -/

/-- The calls of the writing operations, with the time and the new tag that they get. -/
inductive Op where
  | putImmutable (mount path : Path) (bytes : Bytes) (time : ℕ) (tag : Path)
  | putSemantic (mount path : Path) (bytes : Bytes) (time : ℕ) (tag : Path)
  | putOverwrite (mount path : Path) (bytes : Bytes) (time : ℕ) (tag : Path)
  | deletePath (mount path : Path) (time : ℕ)

/-- An operation that nothing else interrupts and in which nothing fails. -/
def moment (time : ℕ) (tag : Path) : Fate := { quiet with time := time, tag := tag }

/-- The tables after an operation, with the role and the mesh root that the worker passes. -/
def step (run : IoRuntime) (t : Tables) : Op → Option Tables
  | .putImmutable mount path bytes time tag =>
    some (perform (moment time tag) (opPutImmutable mount (normalizePath path) bytes
      (pathTypeOf (normalizePath path))) t).2
  | .putSemantic mount path bytes time tag =>
    some (perform (moment time tag) (opPutSemantic run mount (normalizePath path) bytes
      (pathTypeOf (normalizePath path))) t).2
  | .putOverwrite mount path bytes time tag =>
    some (perform (moment time tag) (opPutOverwrite mount (normalizePath path) bytes) t).2
  | .deletePath mount path time =>
    some (perform (moment time []) (opDeletePath mount (normalizePath path)
      (meshRootOf (normalizePath path) (pathTypeOf (normalizePath path)))) t).2

/-- The difference that an operation adds is right: a name written once is new, an overwritten file
keeps its size, and all files that a deletion takes have the mesh root of the path deleted. -/
def Accounted (t : Tables) : Op → Prop
  | .putImmutable mount path _ _ _ =>
    meshRootForPath (normalizePath path) = none ∨ t.files.get (mount, normalizePath path) = none
  | .putSemantic _ _ _ _ _ => True
  | .putOverwrite mount path bytes _ _ =>
    meshRootForPath (normalizePath path) = none ∨
      (t.files.get (mount, normalizePath path)).map FileRow.size = some bytes.length
  | .deletePath mount path _ => normalizePath path = ['/'] ∨
      ∀ key ∈ t.files.keys, inSubtree mount (normalizePath path) key = true →
        meshRootForPath key.2 = meshRootForPath (normalizePath path)

/-! ## The statements -/

theorem execAll_append (t : Tables) (l l' : List Statement) :
    (Statement.execAll t (l ++ l')).1 = (Statement.execAll (Statement.execAll t l).1 l').1 := by
  induction l generalizing t with
  | nil => rfl
  | cons st l ih => exact ih (st.exec t).1

theorem execAll_folders (t : Tables) (mount path : Path) (now : ℕ) :
    (Statement.execAll t (folderTreeStatements mount path now)).1.files = t.files ∧
      (Statement.execAll t (folderTreeStatements mount path now)).1.meshPaths = t.meshPaths := by
  rw [folderTreeStatements]
  induction folderTree path generalizing t with
  | nil => exact ⟨rfl, rfl⟩
  | cons p l ih => exact ih (Statement.exec t (.insertFolder (mount, p) now)).1

theorem files_meshDelta (t : Tables) (mount : Path) (root : Option Path) (delta : MetricsDelta)
    (now : ℕ) (touchRead touchWrite : Bool) :
    (Statement.execAll t
      (meshDeltaStatements mount root delta now touchRead touchWrite)).1.files = t.files := by
  cases root <;> rfl

/-- The statements of `meshDeltaStatements` add their difference to the sums of one root. -/
theorem currentOf_meshDelta (t : Tables) (mount : Path) (root : Option Path) (delta : MetricsDelta)
    (now : ℕ) (touchRead touchWrite : Bool) (key : Key) :
    currentOf (Statement.execAll t
      (meshDeltaStatements mount root delta now touchRead touchWrite)).1 key =
      if key.1 = mount ∧ root = some key.2 then (currentOf t key).add delta
      else currentOf t key := by
  cases root with
  | none => rw [if_neg fun h => some_ne_none _ h.2.symm]; rfl
  | some root =>
    have hkey : key.1 = mount ∧ some root = some key.2 ↔ (mount, root) = key := by
      rw [some.injEq, Prod.ext_iff, eq_comm]
    have hget : (Statement.execAll t
        (meshDeltaStatements mount (some root) delta now touchRead touchWrite)).1.meshPaths =
          updateRow (insertOrIgnore t.meshPaths (mount, root) (freshRecord now)) (mount, root)
            fun r => touched r delta now touchRead touchWrite := rfl
    rw [currentOf, hget, get_updateRow, if_congr hkey rfl rfl, currentOf, insertOrIgnore]
    split_ifs with hk hsome hsome
    · obtain ⟨record, hrecord⟩ := isSome_iff_exists.mp hsome
      rw [← hk, hrecord]
      rfl
    · rw [← hk, Record.get_set_self, not_isSome_iff_eq_none.mp hsome]
      rfl
    · rfl
    · rw [Record.get_set_ne _ _ hk]

/-- What a put of a file leaves: the rows after its statement, and the difference added. -/
theorem execAll_put (t : Tables) (mount path : Path) (now : ℕ) (st : Statement)
    (hst : ∀ t : Tables, (st.exec t).1.meshPaths = t.meshPaths) (files : Record Key FileRow)
    (hfiles : ∀ t' : Tables, t'.files = t.files → (st.exec t').1.files = files)
    (root : Option Path) (delta : MetricsDelta) (touchRead touchWrite : Bool) :
    (Statement.execAll t (folderTreeStatements mount path now ++ [st] ++
        meshDeltaStatements mount root delta now touchRead touchWrite)).1.files = files ∧
      ∀ key, currentOf (Statement.execAll t (folderTreeStatements mount path now ++ [st] ++
        meshDeltaStatements mount root delta now touchRead touchWrite)).1 key =
          if key.1 = mount ∧ root = some key.2 then (currentOf t key).add delta
          else currentOf t key := by
  obtain ⟨hf, hm⟩ := execAll_folders t mount path now
  have hone : ∀ t : Tables, (Statement.execAll t [st]).1 = (st.exec t).1 := fun _ => rfl
  rw [execAll_append, execAll_append, hone, files_meshDelta, hfiles _ hf]
  refine ⟨rfl, fun key => ?_⟩
  have hcurrent : currentOf (st.exec
      (Statement.execAll t (folderTreeStatements mount path now)).1).1 key = currentOf t key := by
    rw [currentOf, hst, hm, currentOf]
  rw [currentOf_meshDelta, hcurrent]

/-! ## The operations -/

variable {fate : Fate}

theorem perform_opPutImmutable (hfate : fate.fails = false) (t : Tables) (mount path : Path)
    (bytes : Bytes) (pathType : PathType) :
    (perform fate (opPutImmutable mount path bytes pathType) t).2 =
      (Statement.execAll t (folderTreeStatements mount path fate.time ++
        [.insertFile (mount, path) ⟨bytes, bytes.length, fate.time, fate.tag⟩] ++
        meshDeltaStatements mount (meshRootOf path pathType)
          (metricsDelta pathType none bytes.length) fate.time false true)).1 := by
  rw [opPutImmutable, perform_bind (perform_await hfate _), perform_bind (perform_await hfate _),
    perform_bind (perform_await hfate _)]
  split_ifs
  · rw [perform_bind (perform_when (fun _ => perform_await hfate _) fun _ => rfl),
      perform_bind (perform_await hfate _), perform_pure]
    rfl
  · rw [perform_pure]
    rfl

theorem perform_opPutSemantic (hfate : fate.fails = false) (run : IoRuntime) (t : Tables)
    (mount path : Path) (bytes : Bytes) (pathType : PathType) :
    (perform fate (opPutSemantic run mount path bytes pathType) t).2 =
      if (t.files.get (mount, path)).any fun row =>
        run.reading.stale pathType row.content bytes then t
      else (Statement.execAll t (folderTreeStatements mount path fate.time ++
        [.putFile (mount, path) ⟨bytes, bytes.length, fate.time, fate.tag⟩] ++
        meshDeltaStatements mount (meshRootOf path pathType)
          (metricsDelta pathType ((t.files.get (mount, path)).map FileRow.size) bytes.length)
            fate.time false false)).1 := by
  rw [opPutSemantic, perform_bind (perform_await hfate _), perform_bind (perform_await hfate _),
    perform_bind (perform_await hfate _)]
  have hrow : (answer (answer (answer t fate .now).2 fate .newEtag).2 fate
      (.selectFile (mount, path))) = (t.files.get (mount, path), t) := rfl
  rw [hrow]
  split_ifs
  · rfl
  · rw [perform_bind (perform_await hfate _), perform_bind (perform_await hfate _), perform_pure]
    rfl

theorem perform_opPutOverwrite (hfate : fate.fails = false) (t : Tables) (mount path : Path)
    (bytes : Bytes) :
    (perform fate (opPutOverwrite mount path bytes) t).2 =
      (Statement.execAll t (folderTreeStatements mount path fate.time ++
        [.putFile (mount, path) ⟨bytes, bytes.length, fate.time, fate.tag⟩] ++
        meshDeltaStatements mount none ⟨0, 0, 0, 0⟩ fate.time false false)).1 := by
  rw [opPutOverwrite, perform_bind (perform_await hfate _), perform_bind (perform_await hfate _),
    perform_bind (perform_await hfate _), perform_bind (perform_await hfate _), perform_pure,
    meshDeltaStatements, append_nil]
  rfl

/-! ## What a row adds -/

variable {key : Key} {path : Path}

theorem share_self (hroot : meshRootForPath path = some key.2) (kind : PathType → Bool)
    (unit : FileRow → ℕ) (row : FileRow) :
    share key kind unit ((key.1, path), row) =
      if kind (classifyPath path) then unit row else 0 := by
  rw [share]
  simp only [hroot, true_and]

theorem share_other {mount : Path} (h : ¬(mount = key.1 ∧ meshRootForPath path = some key.2))
    (kind : PathType → Bool) (unit : FileRow → ℕ) (row : FileRow) :
    share key kind unit ((mount, path), row) = 0 := by
  rw [share, if_neg]
  rintro ⟨hmount, hroot, -⟩
  exact h ⟨hmount, hroot⟩

/-- A file put changes the sums of its own root, by the difference of the two rows. -/
theorem sumsOf_set (files : Record Key FileRow) (mount path : Path) (row : FileRow) (key : Key) :
    sumsOf (files.set (mount, path) row) key =
      if key.1 = mount ∧ meshRootForPath path = some key.2 then
        (sumsOf files key).add (metricsDelta (classifyPath path)
          ((files.get (mount, path)).map FileRow.size) row.size)
      else sumsOf files key := by
  have hset := fun kind unit => Record.weight_set (share key kind unit) files (mount, path) row
  split_ifs with hkey
  · obtain ⟨rfl, hroot⟩ := hkey
    simp only [share_self hroot] at hset
    have hcount := hset (fun _ => true) fun _ => 1
    have htotal := hset (fun _ => true) FileRow.size
    have hchange := hset (fun k => decide (k = .changeFile)) FileRow.size
    have hmainline := hset (fun k => decide (k = .mainlineSnapshot)) FileRow.size
    simp only [decide_eq_true_eq, if_true] at hcount htotal hchange hmainline
    rw [sumsOf, sumsOf, Metrics.add, metricsDelta, Metrics.mk.injEq]
    cases hold : files.get (key.1, path) with
    | none =>
      rw [hold] at hcount htotal hchange hmainline
      simp only [map_none, getD_none] at hcount htotal hchange hmainline ⊢
      refine ⟨?_, ?_, ?_, ?_⟩
      · rw [if_pos trivial]
        omega
      · omega
      · split_ifs at hchange ⊢ <;> omega
      · split_ifs at hmainline ⊢ <;> omega
    | some old =>
      rw [hold] at hcount htotal hchange hmainline
      simp only [map_some, getD_some] at hcount htotal hchange hmainline ⊢
      refine ⟨?_, ?_, ?_, ?_⟩
      · rw [if_neg (some_ne_none _)]
        omega
      · omega
      · split_ifs at hchange ⊢ <;> omega
      · split_ifs at hmainline ⊢ <;> omega
  · have hzero : ∀ kind unit row, share key kind unit ((mount, path), row) = 0 :=
      share_other fun h => hkey ⟨h.1.symm, h.2⟩
    have hsame : ∀ kind unit, (files.set (mount, path) row).weight (share key kind unit) =
        files.weight (share key kind unit) := by
      intro kind unit
      have hweight := hset kind unit
      simp only [hzero] at hweight
      cases hold : files.get (mount, path) with
      | none =>
        rw [hold] at hweight
        exact hweight
      | some old =>
        rw [hold] at hweight
        exact hweight
    rw [sumsOf, sumsOf]
    simp only [hsame]

theorem add_metricsDelta_self (m : Metrics) (pathType : PathType) (size : ℕ) :
    m.add (metricsDelta pathType (some size) size) = m := by
  simp [Metrics.add, metricsDelta]

theorem weight_withoutRows (files : Record Key FileRow) (mount : Path) (gone : Path → Bool)
    (w : Key × FileRow → ℕ) : (withoutRows files mount gone).weight w +
      ((files.entries.filter fun e => decide (e.1.1 = mount) && gone e.1.2).map w).sum =
        files.weight w := by
  rw [← Record.weight_filter w (fun key _ => !(decide (key.1 = mount) && gone key.2)) files,
    withoutRows]
  simp only [Bool.not_not]

theorem bytesOf_eq (kind : PathType → Bool) (l : List (Key × FileRow)) :
    bytesOf kind (l.map fun e => (e.1.2, e.2.size)) =
      ((l.map fun e => if kind (classifyPath e.1.2) = true then e.2.size else 0).sum : ℕ) := by
  rw [bytesOf]
  induction l with
  | nil => rfl
  | cons e l ih =>
    rw [map_cons, map_cons, sum_cons, filter_cons, Nat.cast_add, ← ih]
    split_ifs
    · rw [map_cons, sum_cons]
    · rw [Nat.cast_zero, zero_add]

theorem map_share_eq {l : List (Key × FileRow)} {kind : PathType → Bool} {unit : FileRow → ℕ}
    (h : ∀ e ∈ l, e.1.1 = key.1 ∧ meshRootForPath e.1.2 = some key.2) :
    l.map (share key kind unit) =
      l.map fun e => if kind (classifyPath e.1.2) = true then unit e.2 else 0 := by
  refine map_congr_left fun e he => ?_
  obtain ⟨hmount, hroot⟩ := h e he
  rw [share]
  simp only [hmount, hroot, true_and]

theorem sum_share_eq_zero {l : List (Key × FileRow)} {kind : PathType → Bool} {unit : FileRow → ℕ}
    (h : ∀ e ∈ l, ¬(e.1.1 = key.1 ∧ meshRootForPath e.1.2 = some key.2)) :
    (l.map (share key kind unit)).sum = 0 := by
  refine sum_eq_zero fun n hn => ?_
  obtain ⟨e, he, rfl⟩ := mem_map.mp hn
  exact share_other (h e he) kind unit e.2

variable {gone : Path → Bool} {mount : Path}

theorem sumsOf_withoutRows_other {files : Record Key FileRow}
    (h : ∀ e ∈ files.entries.filter fun e => decide (e.1.1 = mount) && gone e.1.2, ¬(e.1.1 =
      key.1 ∧ meshRootForPath e.1.2 = some key.2)) :
    sumsOf (withoutRows files mount gone) key = sumsOf files key := by
  have hweight : ∀ kind unit, (withoutRows files mount gone).weight (share key kind unit) =
      files.weight (share key kind unit) := by
    intro kind unit
    rw [← weight_withoutRows files mount gone, sum_share_eq_zero h, Nat.add_zero]
  rw [sumsOf, sumsOf]
  simp only [hweight]

theorem sumsOf_withoutRows_own {files : Record Key FileRow}
    (h : ∀ e ∈ files.entries.filter fun e => decide (e.1.1 = mount) && gone e.1.2, e.1.1 = key.1 ∧
      meshRootForPath e.1.2 = some key.2) :
    let deleted := (files.entries.filter fun e => decide (e.1.1 = mount) && gone e.1.2).map
      fun e => (e.1.2, e.2.size)
    sumsOf (withoutRows files mount gone) key = (sumsOf files key).add
      ⟨-deleted.length, -bytesOf (fun _ => true) deleted,
        -bytesOf (fun k => decide (k = .changeFile)) deleted,
        -bytesOf (fun k => decide (k = .mainlineSnapshot)) deleted⟩ := by
  intro deleted
  have hweight := fun kind unit => weight_withoutRows files mount gone (share key kind unit)
  simp only [map_share_eq h] at hweight
  have hcount := hweight (fun _ => true) fun _ => 1
  have htotal := hweight (fun _ => true) FileRow.size
  have hchange := hweight (fun k => decide (k = .changeFile)) FileRow.size
  have hmainline := hweight (fun k => decide (k = .mainlineSnapshot)) FileRow.size
  simp only [if_true, map_const', sum_replicate_nat, Nat.mul_one] at hcount htotal
  rw [sumsOf, sumsOf, Metrics.add, Metrics.mk.injEq]
  simp only [deleted, bytesOf_eq, length_map, if_true]
  refine ⟨?_, ?_, ?_, ?_⟩ <;> omega

/-! ## Deletions of whole mounts -/

theorem get_foldl_updateRow {V : Type} {f : V → V} (hf : ∀ v, f (f v) = f v) (l : List Key)
    (r : Record Key V) (key : Key) : (l.foldl (fun r k => updateRow r k f) r).get key =
      if key ∈ l then (r.get key).map f else r.get key := by
  induction l generalizing r with
  | nil => rfl
  | cons k l ih =>
    rw [foldl_cons, ih, get_updateRow]
    by_cases hk : k = key
    · rw [if_pos hk, if_pos (mem_cons.mpr (.inl hk.symm)), Option.map_map]
      split_ifs
      · exact congrArg (Option.map · (r.get key)) (funext hf)
      · rfl
    · have hmem : key ∈ k :: l ↔ key ∈ l := by
        rw [mem_cons, or_iff_right fun h => hk h.symm]
      rw [if_neg hk, if_congr hmem rfl rfl]

/-- A row of `mesh_paths` after the deletion of the root. -/
def zeroed (now : ℕ) (row : MeshRecord) : MeshRecord :=
  { row with current := ⟨0, 0, 0, 0⟩, deletedAt := some now, updatedAt := now }

theorem resetAll_eq (r : Record Key MeshRecord) (mount : Path) (now : ℕ) :
    resetAll r mount now = (r.keys.filter fun k => decide (k.1 = mount)).foldl
      (fun r k => updateRow r k (zeroed now)) r := by
  rw [resetAll]
  refine congrArg (fun f => List.foldl f r _) (funext₂ fun r k => ?_)
  rw [updateRow]
  cases r.get k <;> rfl

theorem get_resetAll (r : Record Key MeshRecord) (mount : Path) (now : ℕ) (key : Key) :
    (resetAll r mount now).get key =
      if key.1 = mount then (r.get key).map (zeroed now) else r.get key := by
  have hf : ∀ row, zeroed now (zeroed now row) = zeroed now row := fun _ => rfl
  have hmem : key ∈ r.keys.filter (fun k => decide (k.1 = mount)) ↔
      key ∈ r.keys ∧ key.1 = mount := by
    rw [mem_filter, decide_eq_true_eq]
  rw [resetAll_eq, get_foldl_updateRow hf, if_congr hmem rfl rfl]
  by_cases hmount : key.1 = mount
  · rw [if_pos hmount]
    by_cases hkey : key ∈ r.keys
    · rw [if_pos ⟨hkey, hmount⟩]
    · rw [if_neg fun h => hkey h.1]
      cases hget : r.get key with
      | none => rfl
      | some row => exact absurd (Record.mem_keys_iff.mpr ⟨row, hget⟩) hkey
  · rw [if_neg hmount, if_neg fun h => hmount h.2]

/-! ## The invariant -/

/-- The sums kept are those of the rows, zero where a root has no row yet, and the rows have
normalized paths. -/
structure Inv (t : Tables) : Prop where
  current : ∀ key, currentOf t key = sumsOf t.files key
  normal : ∀ key ∈ t.files.keys, ∃ raw, key.2 = normalizePath raw

theorem Inv.matches {t : Tables} (h : Inv t) : Matches t := by
  intro key record hrecord
  rw [← h.current key, currentOf, hrecord]
  rfl

theorem inv_empty : Inv ⟨∅, ∅, ∅, ∅⟩ :=
  ⟨fun _ => rfl, fun _ h => absurd h not_mem_nil⟩

theorem absolute_normalizePath (raw : Path) : absolute (normalizePath raw) = normalizePath raw := by
  rw [absolute, if_pos (head_normalizePath raw)]

theorem pathTypeOf_normalizePath (raw : Path) :
    pathTypeOf (normalizePath raw) = classifyPath (normalizePath raw) := by
  rw [pathTypeOf, absolute_normalizePath]

theorem meshRootOf_normalizePath (raw : Path) :
    meshRootOf (normalizePath raw) (pathTypeOf (normalizePath raw)) =
      meshRootForPath (normalizePath raw) := by
  rw [pathTypeOf_normalizePath, meshRootOf, meshRootForPath]
  simp only [absolute_normalizePath]
  by_cases hroot : normalizePath raw = ['/']
  · rw [if_pos hroot, if_pos hroot]
  · rw [if_neg hroot, if_neg hroot]
    cases classifyPath (normalizePath raw) <;> simp

variable {t t' : Tables}

theorem inv_same (h : Inv t) (hfiles : t'.files = t.files)
    (hcurrent : ∀ key, currentOf t' key = currentOf t key) : Inv t' :=
  ⟨fun key => by rw [hcurrent, hfiles, h.current], hfiles ▸ h.normal⟩

/-- A put keeps the invariant if the difference it adds is that of the rows. -/
theorem inv_put (h : Inv t) {raw : Path} {row : FileRow} {root : Option Path} {delta : MetricsDelta}
    (hfiles : t'.files = t.files.set (mount, normalizePath raw) row)
    (hcurrent : ∀ key, currentOf t' key = if key.1 = mount ∧ root =
      some key.2 then (currentOf t key).add delta else currentOf t key)
    (hdelta : ∀ key, (if key.1 = mount ∧ root =
      some key.2 then (sumsOf t.files key).add delta else sumsOf t.files key) =
      sumsOf (t.files.set (mount, normalizePath raw) row) key) :
    Inv t' := by
  refine ⟨fun key => ?_, fun key hkey => ?_⟩
  · rw [hcurrent, h.current, hdelta, hfiles]
  · rw [hfiles] at hkey
    obtain ⟨v, hv⟩ := Record.mem_keys_iff.mp hkey
    rw [Record.get_set] at hv
    split_ifs at hv with heq
    · exact ⟨raw, congrArg Prod.snd heq.symm⟩
    · exact h.normal key (Record.mem_keys_iff.mpr ⟨v, hv⟩)

theorem inv_deleteRows (h : Inv t) (hfiles : t'.files = withoutRows t.files mount gone)
    (hcurrent : ∀ key, currentOf t' key = sumsOf (withoutRows t.files mount gone) key) :
    Inv t' := by
  refine ⟨fun key => (hcurrent key).trans (congrArg (sumsOf · key) hfiles.symm), fun key hkey => ?_⟩
  rw [hfiles] at hkey
  obtain ⟨v, hv⟩ := Record.mem_keys_iff.mp hkey
  rw [withoutRows, Record.get_filter, filter_eq_some_iff] at hv
  exact h.normal key (Record.mem_keys_iff.mpr ⟨v, hv.1⟩)

/-- A deletion of one folder adjusts the sums of one root. -/
theorem currentOf_rootsAfter (h : Inv t) (hroot : path ≠ ['/']) {now : ℕ}
    (hroots : t'.meshPaths = rootsAfter t mount path (meshRootForPath path) now)
    (hok : ∀ key ∈ t.files.keys, inSubtree mount path key = true →
      meshRootForPath key.2 = meshRootForPath path) (key : Key) :
    currentOf t' key = sumsOf (withoutRows t.files mount (selected path)) key := by
  have hdeleted : ∀ e ∈ t.files.entries.filter
      fun e => decide (e.1.1 = mount) && selected path e.1.2,
      e.1.1 = mount ∧ meshRootForPath e.1.2 = meshRootForPath path := by
    intro e he
    obtain ⟨hmem, hsel⟩ := mem_filter.mp he
    exact ⟨of_decide_eq_true (Bool.and_eq_true_iff.mp hsel).1, hok e.1 (mem_map_of_mem hmem) hsel⟩
  rw [rootsAfter, if_neg hroot] at hroots
  split_ifs at hroots with hnone
  · rw [withoutRows_eq_self hnone, currentOf, hroots, ← h.current, currentOf]
  · have hmesh : currentOf t' key = currentOf (Statement.execAll t _).1 key :=
      congrArg (fun r : Record Key MeshRecord =>
        ((r.get key).map MeshRecord.current).getD ⟨0, 0, 0, 0⟩) hroots
    rw [hmesh, currentOf_meshDelta, h.current]
    split_ifs with hown
    · have hlength : (t.files.keys.filter (inSubtree mount path)).length =
          ((t.files.entries.filter fun e => inSubtree mount path e.1).map
            fun e => (e.1.2, e.2.size)).length := by
        rw [Record.keys, List.filter_map, length_map, length_map]
        rfl
      rw [hlength]
      refine (sumsOf_withoutRows_own fun e he => ?_).symm
      exact ⟨(hdeleted e he).1.trans hown.1.symm, (hdeleted e he).2.trans hown.2⟩
    · refine (sumsOf_withoutRows_other fun e he hkey => hown ?_).symm
      exact ⟨hkey.1.symm.trans (hdeleted e he).1, (hdeleted e he).2.symm.trans hkey.2⟩

theorem currentOf_resetAll (h : Inv t) {now : ℕ}
    (hroots : t'.meshPaths = resetAll t.meshPaths mount now) (key : Key) :
    currentOf t' key = sumsOf (withoutRows t.files mount (selected ['/'])) key := by
  rw [currentOf, hroots, get_resetAll]
  by_cases hmount : key.1 = mount
  · have hzero : sumsOf (withoutRows t.files mount (selected ['/'])) key = ⟨0, 0, 0, 0⟩ := by
      have hweight : ∀ kind unit,
          (withoutRows t.files mount (selected ['/'])).weight (share key kind unit) = 0 := by
        intro kind unit
        refine sum_share_eq_zero fun e he hkey => ?_
        have hkept := (mem_filter.mp he).2
        simp [hkey.1, hmount, selected] at hkept
      rw [sumsOf]
      simp only [hweight]
    rw [if_pos hmount, hzero, Option.map_map]
    cases t.meshPaths.get key <;> rfl
  · rw [if_neg hmount, sumsOf_withoutRows_other, ← h.current, currentOf]
    intro e he hkey
    have hsel := Bool.and_eq_true_iff.mp (mem_filter.mp he).2
    exact hmount (hkey.1.symm.trans (of_decide_eq_true hsel.1))

theorem inv_step {run : IoRuntime} {op : Op} (h : Inv t) (hstep : step run t op = some t')
    (hok : Accounted t op) : Inv t' := by
  cases op with
  | putImmutable mount path bytes time tag =>
    obtain rfl := some.inj hstep
    rw [perform_opPutImmutable rfl, meshRootOf_normalizePath, pathTypeOf_normalizePath]
    have hput := execAll_put t mount (normalizePath path) time
      (.insertFile (mount, normalizePath path) ⟨bytes, bytes.length, time, tag⟩) (fun _ => rfl)
      (insertOrIgnore t.files (mount, normalizePath path) ⟨bytes, bytes.length, time, tag⟩)
      (fun t' ht => congrArg (insertOrIgnore · _ _) ht) (meshRootForPath (normalizePath path))
      (metricsDelta (classifyPath (normalizePath path)) none bytes.length) false true
    by_cases hnew : t.files.get (mount, normalizePath path) = none
    · rw [insertOrIgnore, hnew] at hput
      refine inv_put h hput.1 hput.2 fun key => ?_
      rw [sumsOf_set, hnew]
      rfl
    · -- the insert was ignored, and the path has no root
      have hnone := hok.resolve_right hnew
      rw [insertOrIgnore, if_pos (isSome_iff_ne_none.mpr hnew)] at hput
      refine inv_same h hput.1 fun key => (hput.2 key).trans (if_neg fun hroot => ?_)
      exact some_ne_none _ (hroot.2.symm.trans hnone)
  | putSemantic mount path bytes time tag =>
    obtain rfl := some.inj hstep
    rw [perform_opPutSemantic rfl, meshRootOf_normalizePath, pathTypeOf_normalizePath]
    split_ifs
    · exact h
    · have hput := execAll_put t mount (normalizePath path) time
        (.putFile (mount, normalizePath path) ⟨bytes, bytes.length, time, tag⟩) (fun _ => rfl)
        (t.files.set (mount, normalizePath path) ⟨bytes, bytes.length, time, tag⟩)
        (fun t' ht => congrArg (Record.set · _ _) ht) (meshRootForPath (normalizePath path))
        (metricsDelta (classifyPath (normalizePath path))
          ((t.files.get (mount, normalizePath path)).map FileRow.size) bytes.length) false false
      exact inv_put h hput.1 hput.2 fun key => (sumsOf_set t.files mount (normalizePath path)
        ⟨bytes, bytes.length, time, tag⟩ key).symm
  | putOverwrite mount path bytes time tag =>
    obtain rfl := some.inj hstep
    rw [perform_opPutOverwrite rfl]
    have hput := execAll_put t mount (normalizePath path) time
      (.putFile (mount, normalizePath path) ⟨bytes, bytes.length, time, tag⟩) (fun _ => rfl)
      (t.files.set (mount, normalizePath path) ⟨bytes, bytes.length, time, tag⟩)
      (fun t' ht => congrArg (Record.set · _ _) ht) none ⟨0, 0, 0, 0⟩ false false
    refine inv_put h hput.1 hput.2 fun key => ?_
    rw [if_neg fun hroot => some_ne_none _ hroot.2.symm, sumsOf_set]
    rcases hok with hnone | hsize
    · rw [if_neg fun hroot => some_ne_none _ (hroot.2.symm.trans hnone)]
    · rw [hsize, add_metricsDelta_self, ite_self]
  | deletePath mount path time =>
    obtain rfl := some.inj hstep
    rw [perform_opDeletePath rfl, meshRootOf_normalizePath]
    by_cases hroot : normalizePath path = ['/']
    · rw [hroot]
      exact inv_deleteRows h rfl (currentOf_resetAll h rfl)
    · exact inv_deleteRows h rfl (currentOf_rootsAfter h hroot rfl (hok.resolve_left hroot))

/-! ## Reconciling -/

/-- `path = ?2 OR path LIKE ?3` of `opReconcileMetrics`. -/
def reconciles (root path : Path) : Bool :=
  decide (path = root) || like (if root = ['/'] then ['/', '%'] else root ++ ['/', '%']) path

/-- The rows that `opReconcileMetrics` counts. -/
def reconciled (t : Tables) (key : Key) : List (Key × FileRow) :=
  t.files.entries.filter fun e => decide (e.1.1 = key.1) && reconciles key.2 e.1.2

/-- `opReconcileMetrics`. -/
def opReconcileMetrics (t : Tables) (mount remoteRoot : Path) (now : ℕ) : Tables :=
  let key := (mount, normalizePath remoteRoot)
  { t with
    meshPaths := updateRow t.meshPaths key fun r =>
      { r with
        current := { r.current with
          fileCount := (reconciled t key).length
          totalBytes := ((reconciled t key).map fun e => e.2.size).sum }
        updatedAt := now } }

theorem head_collapseSlashes (s : Path) : (collapseSlashes true s).head? ≠ some '/' := by
  induction s with
  | nil => decide
  | cons c s ih =>
    rw [collapseSlashes]
    by_cases hc : c = '/'
    · rw [if_pos hc, if_pos rfl]
      exact ih
    · rw [if_neg hc]
      exact fun h => hc (some.inj h)

theorem normalizePath_cases (raw : Path) : normalizePath raw = ['/'] ∨
    ∃ c rest, normalizePath raw = '/' :: c :: rest ∧ c ≠ '/' := by
  have hstart : ∃ s, (if raw.head? = some '/' then raw else '/' :: raw) = '/' :: s := by
    split_ifs with h
    · obtain ⟨s, hs⟩ := List.head?_eq_some_iff.mp h
      exact ⟨s, hs⟩
    · exact ⟨raw, rfl⟩
  obtain ⟨s, hs⟩ := hstart
  have hcollapse : collapseSlashes false ('/' :: s) = '/' :: collapseSlashes true s := rfl
  have hhead := head_collapseSlashes s
  simp only [normalizePath, hs, hcollapse]
  cases hrest : collapseSlashes true s with
  | nil => exact .inl rfl
  | cons c rest =>
    rw [hrest, List.head?_cons, ne_eq, some.injEq] at hhead
    refine .inr ?_
    rw [if_neg (by simp)]
    split_ifs with hlast
    · cases rest with
      | nil => exact absurd (some.inj hlast) hhead
      | cons d rest => exact ⟨c, (d :: rest).dropLast, rfl, hhead⟩
    · exact ⟨c, rest, rfl, hhead⟩

theorem eq_of_parentPath {parent : Path} (h : parentPath path = some parent) :
    parent = ['/'] ∨ ∃ name, path = parent ++ '/' :: name := by
  rw [parentPath] at h
  split_ifs at h with hroot hempty
  · exact .inl (some.inj h).symm
  · have hmem : '/' ∈ path := by
      by_contra hmem
      exact hempty (beforeLastSlash_of_notMem hmem)
    obtain ⟨name, -, heq⟩ := eq_beforeLastSlash_append hmem
    rw [some.inj h] at heq
    exact .inr ⟨name, heq⟩

theorem reconciles_below {root name : Path} (hroot : root ≠ ['/']) :
    reconciles root (root ++ '/' :: name) = true := by
  have hlike : like (root ++ ['/', '%']) (root ++ '/' :: name) = true :=
    (like_append_iff _ _ _).mpr ⟨root, _, rfl, like_self root, (like_slash_iff _).mpr ⟨name, rfl⟩⟩
  rw [reconciles, if_neg hroot, hlike, Bool.or_true]

theorem reconciles_of_meshRoot {raw root : Path}
    (h : meshRootForPath (normalizePath raw) = some root) :
    reconciles root (normalizePath raw) = true := by
  have hhead := head_normalizePath raw
  have hall : root = ['/'] → reconciles root (normalizePath raw) = true := by
    rintro rfl
    obtain ⟨rest, hrest⟩ := List.head?_eq_some_iff.mp hhead
    rw [hrest, reconciles, if_pos rfl, (like_slash_iff _).mpr ⟨rest, rfl⟩, Bool.or_true]
  have hparent : parentPath (normalizePath raw) = some root →
      reconciles root (normalizePath raw) = true := by
    intro hp
    by_cases hroot : root = ['/']
    · exact hall hroot
    · obtain ⟨name, hname⟩ := (eq_of_parentPath hp).resolve_left hroot
      rw [hname]
      exact reconciles_below hroot
  have hgrand : (parentPath (normalizePath raw)).bind parentPath = some root →
      reconciles root (normalizePath raw) = true := by
    intro hp
    obtain ⟨folder, hfolder, hp⟩ := bind_eq_some_iff.mp hp
    by_cases hroot : root = ['/']
    · exact hall hroot
    · have hne : folder ≠ ['/'] := by
        rintro rfl
        rw [parentPath, if_pos rfl] at hp
        exact some_ne_none _ hp.symm
      obtain ⟨name, hname⟩ := (eq_of_parentPath hfolder).resolve_left hne
      obtain ⟨name', hname'⟩ := (eq_of_parentPath hp).resolve_left hroot
      rw [hname, hname', append_assoc, cons_append]
      exact reconciles_below hroot
  have hfirst : firstSegment (normalizePath raw) ≠ [] →
      root = '/' :: firstSegment (normalizePath raw) →
        reconciles root (normalizePath raw) = true := by
    intro hseg hroot
    rcases normalizePath_cases raw with hraw | ⟨c, rest, hraw, hc⟩
    · rw [hraw] at hseg
      exact absurd rfl hseg
    · have hdrop : (normalizePath raw).dropWhile (fun c => decide (c = '/')) = c :: rest := by
        rw [hraw, dropWhile_cons_of_pos (by decide), dropWhile_cons_of_neg (by simpa)]
      rw [firstSegment, hdrop] at hroot
      have hsplit : (c :: rest).takeWhile (fun c => decide (c ≠ '/')) ++
          (c :: rest).dropWhile (fun c => decide (c ≠ '/')) = c :: rest :=
        takeWhile_append_dropWhile
      have hne : root ≠ ['/'] := by
        rw [hroot, takeWhile_cons_of_pos (by simpa)]
        simp
      cases htail : (c :: rest).dropWhile fun c => decide (c ≠ '/') with
      | nil =>
        rw [htail, append_nil] at hsplit
        rw [reconciles, hroot, hsplit, hraw, decide_eq_true rfl, Bool.true_or]
      | cons d tail =>
        have hd := List.head?_dropWhile_not (fun c => decide (c ≠ '/')) (c :: rest)
        rw [htail] at hd
        obtain rfl : d = '/' := by simpa using hd
        have hpath : normalizePath raw = root ++ '/' :: tail := by
          rw [hroot, hraw, cons_append, ← htail, hsplit]
        rw [hpath]
        exact reconciles_below hne
  have hne : normalizePath raw ≠ ['/'] := by
    intro hne
    rw [meshRootForPath, if_pos hne] at h
    exact some_ne_none _ h.symm
  rw [meshRootForPath, if_neg hne] at h
  cases hkind : classifyPath (normalizePath raw) <;> simp only [hkind] at h
  · exact hparent h
  · exact hparent h
  · exact hparent h
  · exact hgrand h
  · exact hgrand h
  · exact hgrand h
  · exact hgrand h
  · split_ifs at h with hseg
    exact hfirst hseg (some.inj h).symm

theorem weight_share_eq (files : Record Key FileRow) (key : Key) (unit : FileRow → ℕ) :
    files.weight (share key (fun _ => true) unit) =
      ((files.entries.filter fun e => decide (e.1.1 = key.1 ∧
        meshRootForPath e.1.2 = some key.2)).map fun e => unit e.2).sum := by
  rw [Record.weight]
  induction files.entries with
  | nil => rfl
  | cons e l ih =>
    rw [map_cons, sum_cons, filter_cons, share, ih]
    simp only [and_true, decide_eq_true_eq]
    split_ifs
    · rw [map_cons, sum_cons]
    · rw [Nat.zero_add]

/-- **Reconciling.**  Sums that match are left as they are if and only if the pattern matches no
file of another root. -/
theorem reconcile_iff (h : Inv t) (mount remoteRoot : Path) (now : ℕ) {record : MeshRecord}
    (hrecord : t.meshPaths.get (mount, normalizePath remoteRoot) = some record) :
    currentOf (opReconcileMetrics t mount remoteRoot now) (mount, normalizePath remoteRoot) =
        currentOf t (mount, normalizePath remoteRoot) ↔
      ∀ row, (mount, row) ∈ t.files.keys → reconciles (normalizePath remoteRoot) row = true →
        meshRootForPath row = some (normalizePath remoteRoot) := by
  set key : Key := (mount, normalizePath remoteRoot) with hkey
  set own := t.files.entries.filter fun e =>
    decide (e.1.1 = key.1 ∧ meshRootForPath e.1.2 = some key.2) with hown
  have hsub : (reconciled t key).filter (fun e =>
      decide (e.1.1 = key.1 ∧ meshRootForPath e.1.2 = some key.2)) = own := by
    rw [reconciled, List.filter_filter]
    refine filter_congr fun e he => ?_
    rw [Bool.and_eq_left_iff_imp]
    intro hassigned
    obtain ⟨hmount, hroot⟩ := of_decide_eq_true hassigned
    obtain ⟨raw, hraw⟩ := h.normal e.1 (mem_map_of_mem he)
    rw [hmount, decide_eq_true rfl, Bool.true_and, hraw]
    exact reconciles_of_meshRoot (hraw ▸ hroot)
  have hafter : currentOf (opReconcileMetrics t mount remoteRoot now) key =
      { sumsOf t.files key with
        fileCount := (reconciled t key).length
        totalBytes := ((reconciled t key).map fun e => e.2.size).sum } := by
    have hcurrent : record.current = sumsOf t.files key := h.matches key record hrecord
    rw [currentOf, opReconcileMetrics, get_updateRow, if_pos rfl, hrecord, ← hcurrent]
    rfl
  rw [hafter, h.current key, sumsOf, Metrics.mk.injEq, weight_share_eq, weight_share_eq, ← hown]
  simp only [map_const', sum_replicate_nat, Nat.mul_one, and_true]
  constructor
  · rintro ⟨hlength, -⟩ row hrow hrec
    obtain ⟨e, he, heq⟩ := mem_map.mp hrow
    rw [← hsub] at hlength
    have hall := filter_eq_self.mp (filter_sublist.eq_of_length hlength.symm)
    have hmem : e ∈ reconciled t key := by
      refine mem_filter.mpr ⟨he, ?_⟩
      rw [heq, decide_eq_true rfl, Bool.true_and]
      exact hrec
    have hassigned := of_decide_eq_true (hall e hmem)
    rw [heq] at hassigned
    exact hassigned.2
  · intro hrows
    have heq : reconciled t key = own := by
      rw [← hsub, eq_comm, filter_eq_self]
      intro e he
      obtain ⟨hmem, hsel⟩ := mem_filter.mp he
      obtain ⟨hmount, hrec⟩ := Bool.and_eq_true_iff.mp hsel
      have hpair : e.1 = (mount, e.1.2) := Prod.ext (of_decide_eq_true hmount) rfl
      refine decide_eq_true ⟨of_decide_eq_true hmount, hrows e.1.2 ?_ hrec⟩
      rw [← hpair]
      exact mem_map_of_mem hmem
    rw [heq]
    exact ⟨rfl, rfl⟩

/-- A reconcile leaves the sums of a root as they are if and only if its pattern matches no file of
another root. -/
def ReconcilesOwn (t : Tables) : Prop := ∀ mount remoteRoot now,
  (t.meshPaths.get (mount, normalizePath remoteRoot)).isSome = true →
    (currentOf (opReconcileMetrics t mount remoteRoot now) (mount, normalizePath remoteRoot) =
        currentOf t (mount, normalizePath remoteRoot) ↔
      ∀ row, (mount, row) ∈ t.files.keys → reconciles (normalizePath remoteRoot) row = true →
        meshRootForPath row = some (normalizePath remoteRoot))

/-- The tables of a new host. -/
def noTables : Tables := ⟨∅, ∅, ∅, ∅⟩

/-- **The sums match.**  In every run in which every step adds the right difference, the sums kept
match the rows in every state reached, and what a reconcile changes depends on its pattern only. -/
theorem metrics_match {run : IoRuntime} {t : Tables}
    (h : Reached noTables (step run) Accounted t) : Matches t ∧ ReconcilesOwn t := by
  have hinv := h.invariant inv_empty fun _ _ _ hinv hstep hok => inv_step hinv hstep hok
  refine ⟨hinv.matches, fun mount remoteRoot now hsome => ?_⟩
  obtain ⟨record, hrecord⟩ := isSome_iff_exists.mp hsome
  exact reconcile_iff hinv mount remoteRoot now hrecord

/-- Settings of a host. -/
def sampleIo : IoRuntime :=
  ⟨sampleReading, ⟨100, 100, 100, 100⟩, ⟨100, 100⟩, false, .absent, fun _ _ _ => []⟩

/-- One byte stored at `"/m/f"`. -/
def putOnce (t : Tables) : Tables :=
  (perform (moment 5 []) (opPutImmutable ['x'] (normalizePath ['/', 'm', '/', 'f']) [1]
    (pathTypeOf (normalizePath ['/', 'm', '/', 'f']))) t).2

/-- A run over one mesh: a file, a manifest written twice, a heartbeat renewed, the file deleted. -/
def meshOps : List Op :=
  [.putImmutable ['x'] ['/', 'm', '/', 'f'] [1] 5 [],
    .putSemantic ['x'] ['/', 'm', '/', 'g'] [1] 6 [],
    .putSemantic ['x'] ['/', 'm', '/', 'g'] [1, 2] 7 [],
    .putOverwrite ['x'] ['/', 'm', '/', 'f'] [3] 8 [],
    .deletePath ['x'] ['/', 'm', '/', 'f'] 9]

instance : DecidablePred (Accounted t) := fun
  | .putImmutable _ _ _ _ _ => inferInstanceAs (Decidable (_ ∨ _))
  | .putSemantic _ _ _ _ _ => inferInstanceAs (Decidable True)
  | .putOverwrite _ _ _ _ _ => inferInstanceAs (Decidable (_ ∨ _))
  | .deletePath _ _ _ => inferInstanceAs (Decidable (_ ∨ _))

/-- The tables after the run, if all its steps meet the condition. -/
def meshOpsDone : Option Tables :=
  GuardedRuns.run (fun t e => if Accounted t e then step sampleIo t e else none) noTables meshOps

theorem metrics_match_meshOps : ∃ t, meshOpsDone = some t ∧ Matches t ∧ ReconcilesOwn t := by
  have hdone : meshOpsDone.isSome := by decide +kernel
  obtain ⟨t, ht⟩ := isSome_iff_exists.mp hdone
  exact ⟨t, ht, @metrics_match sampleIo _ (Reached.start.checked meshOps ht)⟩

/-- The same name stored twice is counted twice. -/
theorem not_metrics_match : ¬∀ (run : IoRuntime) (t : Tables),
    Reached noTables (step run) (fun _ _ => True) t → Matches t := by
  intro h
  have hreached : Reached noTables (step sampleIo) (fun _ _ => True)
      (putOnce (putOnce noTables)) :=
    (Reached.start.step (e := .putImmutable ['x'] ['/', 'm', '/', 'f'] [1] 5 []) rfl
      trivial).step (e := .putImmutable ['x'] ['/', 'm', '/', 'f'] [1] 5 []) rfl trivial
  have hmatches := h sampleIo _ hreached (['x'], ['/', 'm'])
  have hcount : ((putOnce (putOnce noTables)).meshPaths.get (['x'], ['/', 'm'])).map
      (fun r => r.current.fileCount) = some 2 := by
    decide +kernel
  obtain ⟨record, hrecord, htwo⟩ := map_eq_some_iff.mp hcount
  rw [hmatches record hrecord] at htwo
  exact absurd htwo (by decide +kernel)

end Interocitor.Worker.Io
