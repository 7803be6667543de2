import Interocitor.Worker.Handlers

/-!
# What the worker's listings select

`opListChildren` finds the children of a folder by a pattern, `path LIKE folder || '/%'`, and by the
number of slashes.  In the pattern the characters `%` and `_` of the folder's own name stand for
others, and letters of ASCII stand for both of their cases, so the rows selected may lie in another
folder of the same depth whose name only resembles that of the folder listed.

* `lists_children_iff`: a listing is exact if and only if there are none, and the folders whose
  listings are exact whatever is stored are those with no letter of ASCII, `%` or `_` in their path.
-/

namespace Interocitor.Worker.Io

open OrderedRecord Interaction List

/-! ## Handlers alone at the host -/

/-- A handler alone at the host: its result, and the tables after it. -/
def perform {α : Type} (fate : Fate) (m : Handler α) (t : Tables) : Except Unit α × Tables :=
  let r := (m ()).exec (fun t c => reply t fate c) t
  (r.1, r.2.2)

section Perform

variable {α β : Type} {fate : Fate} {t t' : Tables}

@[simp] theorem perform_pure (a : α) : perform fate (pure a : Handler α) t = (.ok a, t) := rfl

theorem perform_bind {m : Handler α} {f : α → Handler β} {a : α}
    (h : perform fate m t = (.ok a, t')) : perform fate (m >>= f) t = perform fate (f a) t' := by
  change perform fate (Proc.bind m f) t = _
  simp only [perform, Prod.mk.injEq] at h
  simp only [perform, Proc.bind, Prog.exec_andThen, h.1, h.2]

theorem perform_await (hfate : fate.fails = false) (c : Call) :
    perform fate (await c) t = (.ok (answer t fate c).1, (answer t fate c).2) := by
  have hreply : reply t fate c = (.ok (answer t fate c).1, (answer t fate c).2) := by
    rw [reply, hfate]
    rfl
  have hask : perform fate (Proc.ask c : Handler (Reply c)) t =
      (.ok (.ok (answer t fate c).1), (answer t fate c).2) := by
    rw [perform, Proc.ask, Prog.exec, hreply]
    rfl
  rw [await]
  exact (perform_bind hask).trans rfl

theorem perform_when {c : Prop} [Decidable c] {m : Handler Unit}
    (h : c → perform fate m t = (.ok (), t')) (h' : ¬c → t' = t) :
    perform fate (Proc.when c m) t = (.ok (), t') := by
  rw [Proc.when]
  split_ifs with hc
  · exact h hc
  · rw [h' hc]
    rfl

theorem perform_tryCatch {m : Handler α} {h : Unit → Handler α} {a : α}
    (hm : perform fate m t = (.ok a, t')) : perform fate (Proc.tryCatch m h) t = (.ok a, t') := by
  simp only [perform, Prod.mk.injEq] at hm
  simp only [perform, Proc.tryCatch, Prog.exec_andThen, hm.1, hm.2]
  rfl

end Perform

/-! ## Patterns -/

theorem like_append_iff (r s t : Path) :
    like (r ++ s) t = true ↔ ∃ u v, t = u ++ v ∧ like r u = true ∧ like s v = true := by
  induction r generalizing t with
  | nil =>
    constructor
    · exact fun h => ⟨[], t, rfl, rfl, h⟩
    · rintro ⟨u, v, rfl, hu, hv⟩
      rw [like, List.isEmpty_iff] at hu
      rw [hu]
      exact hv
  | cons c r ih =>
    rw [cons_append]
    by_cases hc : c = '%'
    · simp only [like, if_pos hc, any_eq_true, mem_tails]
      constructor
      · rintro ⟨rest, ⟨w, rfl⟩, hlike⟩
        obtain ⟨u, v, rfl, hu, hv⟩ := (ih rest).mp hlike
        exact ⟨w ++ u, v, (append_assoc _ _ _).symm, ⟨u, suffix_append _ _, hu⟩, hv⟩
      · rintro ⟨u, v, rfl, ⟨u', ⟨w, rfl⟩, hu'⟩, hv⟩
        refine ⟨u' ++ v, ⟨w, (append_assoc _ _ _).symm⟩, (ih _).mpr ⟨u', v, rfl, hu', hv⟩⟩
    · cases t with
      | nil =>
        refine iff_of_false ?_ ?_
        · simp only [like, if_neg hc, Bool.false_eq_true, not_false_eq_true]
        · rintro ⟨u, v, heq, hu, -⟩
          obtain ⟨rfl, -⟩ := append_eq_nil_iff.mp heq.symm
          simp only [like, if_neg hc, Bool.false_eq_true] at hu
      | cons d t =>
        simp only [like, if_neg hc, Bool.and_eq_true]
        constructor
        · rintro ⟨hmatch, hlike⟩
          obtain ⟨u, v, rfl, hu, hv⟩ := (ih t).mp hlike
          refine ⟨d :: u, v, rfl, ?_, hv⟩
          simp only [Bool.and_eq_true]
          exact ⟨hmatch, hu⟩
        · rintro ⟨u, v, heq, hu, hv⟩
          cases u with
          | nil => exact absurd hu Bool.false_ne_true
          | cons d' u =>
            rw [cons_append, List.cons.injEq] at heq
            obtain ⟨rfl, rfl⟩ := heq
            rw [Bool.and_eq_true] at hu
            exact ⟨hu.1, (ih _).mpr ⟨u, v, rfl, hu.2, hv⟩⟩

theorem toNat_toLower (c : Char) :
    c.toLower.toNat = if 65 ≤ c.toNat ∧ c.toNat ≤ 90 then c.toNat + 32 else c.toNat := by
  have hupper : c.val ≥ 'A'.val ∧ c.val ≤ 'Z'.val ↔ 65 ≤ c.toNat ∧ c.toNat ≤ 90 := by
    rw [ge_iff_le, UInt32.le_iff_toNat_le, UInt32.le_iff_toNat_le]
    exact Iff.rfl
  by_cases h : 65 ≤ c.toNat ∧ c.toNat ≤ 90
  · have hlower : c.toLower = ⟨c.val + ('a'.val - 'A'.val), _⟩ := dif_pos (hupper.mpr h)
    rw [if_pos h, hlower]
    change (c.val.toNat + 32) % 2 ^ 32 = c.val.toNat + 32
    have hle : c.val.toNat ≤ 90 := h.2
    omega
  · have hlower : c.toLower = c := dif_neg fun h' => h (hupper.mp h')
    rw [if_neg h, hlower]

theorem isAlpha_iff (c : Char) :
    c.isAlpha = true ↔ (65 ≤ c.toNat ∧ c.toNat ≤ 90) ∨ (97 ≤ c.toNat ∧ c.toNat ≤ 122) := by
  have halpha : c.isAlpha = (decide (c.val ≥ 'A'.val ∧ c.val ≤ 'Z'.val) ||
      (decide (c.val ≥ 'a'.val) && decide (c.val ≤ 'z'.val))) := rfl
  rw [halpha]
  simp only [Bool.or_eq_true, Bool.and_eq_true, decide_eq_true_eq, ge_iff_le,
    UInt32.le_iff_toNat_le]
  exact Iff.rfl

theorem toLower_eq_iff {c d : Char} (h : ¬c.isAlpha = true) : c.toLower = d.toLower ↔ c = d := by
  refine ⟨fun heq => ?_, congrArg Char.toLower⟩
  have hnat := congrArg Char.toNat heq
  rw [isAlpha_iff, not_or] at h
  rw [toNat_toLower, toNat_toLower] at hnat
  refine Char.ext (UInt32.toNat_inj.mp ?_)
  change c.toNat = d.toNat
  split_ifs at hnat <;> omega

theorem like_slash_iff (t : Path) : like ['/', '%'] t = true ↔ ∃ name, t = '/' :: name := by
  have hany : ∀ s, like ['%'] s = true := by
    intro s
    simp only [like, if_true, any_eq_true, mem_tails]
    exact ⟨[], nil_suffix, rfl⟩
  cases t with
  | nil =>
    refine iff_of_false (by decide) ?_
    rintro ⟨name, h⟩
    exact cons_ne_nil _ _ h.symm
  | cons c t =>
    have hslash : ¬ ('/' : Char).isAlpha = true := by decide
    simp only [like, if_neg (by decide : ('/' : Char) ≠ '%'), Bool.and_eq_true, Bool.or_eq_true,
      decide_eq_true_eq, toLower_eq_iff hslash, (by decide : ('/' : Char) ≠ '_'), false_or]
    constructor
    · rintro ⟨rfl, -⟩
      exact ⟨t, rfl⟩
    · rintro ⟨name, h⟩
      rw [List.cons.injEq] at h
      exact ⟨h.1.symm, hany t⟩

theorem slashes_le_of_like {r t : Path} (h : like r t = true) : slashes r ≤ slashes t := by
  induction r generalizing t with
  | nil => exact Nat.zero_le _
  | cons c r ih =>
    by_cases hc : c = '%'
    · simp only [like, if_pos hc, any_eq_true, mem_tails] at h
      obtain ⟨u, hu, hlike⟩ := h
      have hne : ¬(c == '/') = true := by rw [hc]; decide
      rw [slashes, count_cons, if_neg hne]
      exact (ih hlike).trans (hu.sublist.count_le _)
    · cases t with
      | nil => simp only [like, if_neg hc, Bool.false_eq_true] at h
      | cons d t =>
        simp only [like, if_neg hc, Bool.and_eq_true, Bool.or_eq_true, decide_eq_true_eq] at h
        obtain ⟨hmatch, hlike⟩ := h
        have hle := ih hlike
        have hfirst : c = '/' → d = '/' := by
          rintro rfl
          rcases hmatch with hmatch | hmatch
          · exact absurd hmatch (by decide)
          · exact ((toLower_eq_iff (by decide)).mp hmatch).symm
        rw [slashes, slashes, count_cons, count_cons]
        split_ifs with h₁ h₂
        · exact Nat.add_le_add_right hle 1
        · exact absurd (beq_iff_eq.mpr (hfirst (beq_iff_eq.mp h₁))) h₂
        · exact hle.trans (Nat.le_succ _)
        · exact hle

theorem like_self (r : Path) : like r r = true := by
  induction r with
  | nil => rfl
  | cons c r ih =>
    by_cases hc : c = '%'
    · simp only [like, if_pos hc, any_eq_true, mem_tails]
      exact ⟨r, suffix_cons c r, ih⟩
    · simp only [like, if_neg hc, ih, decide_true, Bool.or_true, Bool.and_true]

/-! ## Folders of rows -/

theorem beforeLastSlash_append {folder name : Path} (h : '/' ∉ name) :
    beforeLastSlash (folder ++ '/' :: name) = folder := by
  have hdrop : (folder ++ '/' :: name).reverse.dropWhile (fun c => decide (c ≠ '/')) =
      '/' :: folder.reverse := by
    rw [reverse_append, reverse_cons, append_assoc,
      dropWhile_append_of_pos, singleton_append,
      dropWhile_cons_of_neg (by decide)]
    intro c hc
    rw [decide_eq_true_eq]
    exact fun heq => h (heq ▸ mem_reverse.mp hc)
  rw [beforeLastSlash, hdrop, tail_cons, reverse_reverse]

theorem eq_beforeLastSlash_append {row : Path} (h : '/' ∈ row) :
    ∃ name, '/' ∉ name ∧ row = beforeLastSlash row ++ '/' :: name := by
  obtain ⟨s, t, heq, hs⟩ := eq_append_cons_of_mem (mem_reverse.mpr h)
  have hname : '/' ∉ s.reverse := fun hmem => hs (mem_reverse.mp hmem)
  have hrow : row = t.reverse ++ '/' :: s.reverse := by
    rw [← reverse_reverse row, heq, reverse_append, reverse_cons, append_assoc, singleton_append]
  refine ⟨s.reverse, hname, ?_⟩
  conv_rhs => rw [hrow, beforeLastSlash_append hname]
  exact hrow

/-- The path of a folder as a row has it before the slash and the name. -/
def folderText (path : Path) : Path := if path = ['/'] then [] else path

/-- What `opListChildren` selects: a row whose folder matches the path as a pattern, at the depth of
the path. -/
theorem isChild_iff (mount path : Path) (key : Key) :
    isChild mount path key = true ↔ key.1 = mount ∧ '/' ∈ key.2 ∧
      like (folderText path) (beforeLastSlash key.2) = true ∧
      slashes (beforeLastSlash key.2) = slashes (folderText path) := by
  have hpattern : (if path = ['/'] then ['/', '%'] else path ++ ['/', '%']) =
      folderText path ++ ['/', '%'] := by
    rw [folderText]
    split_ifs <;> rfl
  have hdepth : (if path = ['/'] then 1 else slashes path + 1) = slashes (folderText path) + 1 := by
    rw [folderText]
    split_ifs <;> rfl
  have hcount : ∀ folder name : Path,
      slashes (folder ++ '/' :: name) = slashes folder + slashes name + 1 := by
    intro folder name
    rw [slashes, count_append, count_cons_self, ← Nat.add_assoc]
    rfl
  rw [isChild, hpattern, hdepth, Bool.and_eq_true, Bool.and_eq_true, decide_eq_true_eq,
    decide_eq_true_eq, and_assoc]
  refine and_congr_right fun _ => ?_
  constructor
  · rintro ⟨hlike, hslashes⟩
    obtain ⟨folder, v, heq, hfolder, hv⟩ := (like_append_iff _ _ _).mp hlike
    obtain ⟨name, rfl⟩ := (like_slash_iff v).mp hv
    have hle := slashes_le_of_like hfolder
    rw [heq, hcount] at hslashes
    have hzero : slashes name = 0 := by omega
    have hname : '/' ∉ name := count_eq_zero.mp hzero
    rw [heq, beforeLastSlash_append hname]
    exact ⟨mem_append_right _ mem_cons_self, hfolder, by omega⟩
  · rintro ⟨hmem, hlike, hslashes⟩
    obtain ⟨name, hname, heq⟩ := eq_beforeLastSlash_append hmem
    have hzero : slashes name = 0 := count_eq_zero.mpr hname
    have hrow : slashes key.2 = slashes (folderText path) + 1 := by
      rw [heq, hcount, hslashes, hzero]
    refine ⟨?_, hrow⟩
    rw [heq]
    exact (like_append_iff _ _ _).mpr ⟨_, _, rfl, hlike, (like_slash_iff _).mpr ⟨name, rfl⟩⟩

theorem beforeLastSlash_of_notMem {row : Path} (h : '/' ∉ row) : beforeLastSlash row = [] := by
  have hdrop : row.reverse.dropWhile (fun c => decide (c ≠ '/')) = [] := by
    refine dropWhile_eq_nil_iff.mpr fun c hc => ?_
    rw [decide_eq_true_eq]
    exact fun heq => h (heq ▸ mem_reverse.mp hc)
  rw [beforeLastSlash, hdrop]
  rfl

theorem head_normalizePath (raw : Path) : (normalizePath raw).head? = some '/' := by
  have hstart : ∀ s : Path, s.head? = some '/' → ∃ rest, collapseSlashes false s = '/' :: rest := by
    intro s hs
    cases s with
    | nil => exact absurd hs (by decide)
    | cons c s =>
      obtain rfl : c = '/' := Option.some.inj hs
      exact ⟨collapseSlashes true s, rfl⟩
  rw [normalizePath]
  obtain ⟨rest, hrest⟩ := hstart (if raw.head? = some '/' then raw else '/' :: raw) (by
    split_ifs with h
    · exact h
    · rfl)
  simp only [hrest]
  split_ifs with hroot hlast
  · rfl
  · cases rest with
    | nil => exact absurd rfl hroot
    | cons c rest => rfl
  · rfl

/-! ## Listings -/

/-- The rows whose parent path is a path, as `opListChildren` selects them. -/
def childRows (t : Tables) (mount path : Path) : List (Path × FileRow) × List Path :=
  let child := fun key : Key => decide (key.1 = mount ∧ parentPath key.2 = some path)
  ((t.files.entries.filter fun e => child e.1).map fun e => (e.1.2, e.2),
    (t.folders.keys.filter child).map Prod.snd)

/-- A listing that reads the database has exactly the rows whose parent path is the path listed. -/
def ListsChildren (t : Tables) (mount path : Path) : Prop :=
  ∀ fate : Fate, fate.fails = false → fate.listing = none →
    (perform fate (opListChildren mount path) t).1 =
      .ok (listingOf (childRows t mount (normalizePath path)))

/-- A row that a listing of a path takes for a child or misses: its folder resembles the path and is
another one.  At the root these are the root itself as a row, and rows that are not of the form of a
slash and a name. -/
def Misread (path row : Path) : Prop :=
  if path = ['/'] then row = ['/'] ∨ '/' ∉ row ∨ beforeLastSlash row = ['/']
  else beforeLastSlash row ≠ path ∧ slashes (beforeLastSlash row) = slashes path ∧
    like path (beforeLastSlash row) = true

/-- The rows that decide what a listing shows: files, and folders with a name. -/
def Shown (t : Tables) (mount row : Path) : Prop :=
  (mount, row) ∈ t.files.keys ∨ ((mount, row) ∈ t.folders.keys ∧ fileNameFromPath row ≠ [])

/-- No other case, and not a wildcard. -/
def Literal (path : Path) : Prop := ∀ c ∈ path, ¬c.isAlpha = true ∧ c ≠ '%' ∧ c ≠ '_'

theorem perform_opListChildren {fate : Fate} (hfate : fate.fails = false)
    (hlisting : fate.listing = none) (t : Tables) (mount path : Path) :
    perform fate (opListChildren mount path) t =
      (.ok (listingOf (answer t fate (.selectChildren mount (normalizePath path))).1), t) := by
  have hread : perform fate (readChildren mount (normalizePath path)) t =
      (.ok (listingOf (answer t fate (.selectChildren mount (normalizePath path))).1), t) := by
    rw [readChildren]
    refine (perform_bind (perform_await hfate _)).trans ?_
    refine (perform_bind (perform_when (fun _ => perform_await hfate _) fun _ => rfl)).trans ?_
    rfl
  rw [opListChildren]
  split_ifs
  · exact hread
  · have hcache : perform fate (await (.listingGet (mount, normalizePath path))) t =
        (.ok none, t) := by
      rw [perform_await hfate, answer, hlisting]
    rw [perform_bind hcache]
    exact hread

variable {path : Path}

theorem parentPath_eq_iff (hpath : path ≠ []) (hroot : path ≠ ['/']) (row : Path) :
    parentPath row = some path ↔ beforeLastSlash row = path := by
  rw [parentPath]
  split_ifs with hrow hempty
  · rw [hrow]
    exact iff_of_false (by simp) fun h => hpath h.symm
  · rw [hempty, Option.some.injEq]
    exact iff_of_false hroot.symm hpath.symm
  · rw [Option.some.injEq]

theorem parentPath_root_iff (row : Path) : parentPath row = some ['/'] ↔
    row ≠ ['/'] ∧ (beforeLastSlash row = [] ∨ beforeLastSlash row = ['/']) := by
  rw [parentPath]
  split_ifs with hrow hempty
  · exact iff_of_false (by simp) fun h => h.1 hrow
  · exact iff_of_true rfl ⟨hrow, .inl hempty⟩
  · rw [Option.some.injEq]
    exact ⟨fun h => ⟨hrow, .inr h⟩, fun h => h.2.resolve_left hempty⟩

theorem isChild_eq_iff (hhead : path.head? = some '/') (mount : Path) (key : Key) :
    isChild mount path key = decide (key.1 = mount ∧ parentPath key.2 = some path) ↔
      ¬(key.1 = mount ∧ Misread path key.2) := by
  rw [Bool.eq_iff_iff, isChild_iff, decide_eq_true_eq]
  by_cases hmount : key.1 = mount
  swap
  · simp only [hmount, false_and, not_false_eq_true]
  simp only [hmount, true_and]
  rw [Misread, folderText]
  by_cases hroot : path = ['/']
  · have hlike : ∀ folder, like [] folder = true ↔ folder = [] := fun folder => List.isEmpty_iff
    rw [if_pos hroot, if_pos hroot, hroot, parentPath_root_iff, hlike]
    by_cases hmem : '/' ∈ key.2
    · by_cases hrow : key.2 = ['/']
      · rw [hrow]
        decide
      · by_cases hempty : beforeLastSlash key.2 = []
        · simp [hmem, hrow, hempty]
        · simp [hmem, hrow, hempty]
    · have hempty := beforeLastSlash_of_notMem hmem
      have hrow : key.2 ≠ ['/'] := by
        rintro h
        exact hmem (h ▸ mem_cons_self)
      simp [hmem, hrow, hempty]
  · have hslash : '/' ∈ path := mem_of_mem_head? hhead
    rw [if_neg hroot, if_neg hroot, parentPath_eq_iff (ne_nil_of_mem hslash) hroot]
    by_cases hself : beforeLastSlash key.2 = path
    · have hmem : '/' ∈ key.2 := by
        by_contra hmem
        rw [beforeLastSlash_of_notMem hmem] at hself
        exact ne_nil_of_mem hslash hself.symm
      simp [hself, hmem, like_self]
    · have hmem : slashes (beforeLastSlash key.2) = slashes path → '/' ∈ key.2 := by
        intro hcount
        by_contra hmem
        rw [beforeLastSlash_of_notMem hmem] at hcount
        exact absurd hslash (count_eq_zero.mp hcount.symm)
      simp only [hself, iff_false, ne_eq, not_false_eq_true, true_and, not_and]
      tauto

theorem filter_map_eq_iff {α β : Type} {f : α → β} {p q : α → Bool} {l : List α}
    (h : ∀ x ∈ l, q x = true → p x = true) :
    (l.filter p).map f = (l.filter q).map f ↔ ∀ x ∈ l, p x = true → q x = true := by
  have hsub : (l.filter p).filter q = l.filter q := by
    rw [filter_filter]
    refine filter_congr fun x hx => ?_
    rw [Bool.and_eq_left_iff_imp]
    exact h x hx
  constructor
  · intro heq x hx hp
    have hlength := congrArg List.length heq
    rw [length_map, length_map, ← hsub] at hlength
    have hall := filter_eq_self.mp (filter_sublist.eq_of_length hlength.symm)
    exact hall x (mem_filter.mpr ⟨hx, hp⟩)
  · intro hall
    rw [filter_congr fun x hx => Bool.eq_iff_iff.mpr ⟨hall x hx, h x hx⟩]

/-- A world in which nothing fails and the caches have nothing. -/
def quiet : Fate := ⟨false, false, none, none, none, ⟨true, none, 0⟩, 0, []⟩

theorem listsChildren_iff (t : Tables) (mount path : Path) : ListsChildren t mount path ↔
    listingOf (answer t quiet (.selectChildren mount (normalizePath path))).1 =
      listingOf (childRows t mount (normalizePath path)) := by
  constructor
  · intro h
    have hquiet := h quiet rfl rfl
    rw [perform_opListChildren rfl rfl] at hquiet
    exact Except.ok.inj hquiet
  · intro h fate hfate hlisting
    rw [perform_opListChildren hfate hlisting]
    exact congrArg Except.ok h

/-- The entries of the files that a test selects. -/
def entriesOf (t : Tables) (p : Key → Bool) : List FileEntry :=
  ((t.files.entries.filter fun e => p e.1).map fun e => (e.1.2, e.2)).map
    fun r => ⟨fileNameFromPath r.1, r.1, r.2.size, r.2.modifiedTime, r.2.etag⟩

variable {p q : Key → Bool}

theorem imp_of_entriesOf_eq {t : Tables} {mount : Path} (hp : ∀ key, p key = true → key.1 = mount)
    (hq : ∀ key, q key = true → key.1 = mount) (h : entriesOf t p = entriesOf t q) {key : Key}
    (hkey : key ∈ t.files.keys) (hsel : p key = true) : q key = true := by
  obtain ⟨e, he, rfl⟩ := mem_map.mp hkey
  have hmem : (⟨fileNameFromPath e.1.2, e.1.2, e.2.size, e.2.modifiedTime, e.2.etag⟩ : FileEntry) ∈
      entriesOf t q := by
    rw [← h]
    exact mem_map_of_mem (mem_map_of_mem (mem_filter.mpr ⟨he, hsel⟩))
  obtain ⟨r, hr, heq⟩ := mem_map.mp hmem
  obtain ⟨e', he', rfl⟩ := mem_map.mp hr
  have hq' := (mem_filter.mp he').2
  have hpath : e'.1.2 = e.1.2 := congrArg FileEntry.path heq
  have hsame : e'.1 = e.1 := Prod.ext ((hq _ hq').trans (hp _ hsel).symm) hpath
  rw [← hsame]
  exact hq'

theorem entriesOf_eq_iff {t : Tables} (mount : Path) (hp : ∀ key, p key = true → key.1 = mount)
    (hq : ∀ key, q key = true → key.1 = mount) :
    entriesOf t p = entriesOf t q ↔ ∀ key ∈ t.files.keys, p key = q key := by
  constructor
  · intro h key hkey
    exact Bool.eq_iff_iff.mpr
      ⟨imp_of_entriesOf_eq hp hq h hkey, imp_of_entriesOf_eq hq hp h.symm hkey⟩
  · intro h
    rw [entriesOf, entriesOf, filter_congr fun e he => h e.1 (mem_map_of_mem he)]

/-- The names of the folders that a test selects. -/
def namesOf (t : Tables) (p : Key → Bool) : List Path :=
  (((t.folders.keys.filter p).map Prod.snd).map fileNameFromPath).filter fun name =>
    decide (name ≠ [])

theorem namesOf_eq (t : Tables) (p : Key → Bool) :
    namesOf t p = (t.folders.keys.filter fun key =>
      p key && decide (fileNameFromPath key.2 ≠ [])).map fun key => fileNameFromPath key.2 := by
  rw [namesOf, map_map, filter_map, filter_filter]
  refine congrArg (List.map _) (filter_congr fun key _ => ?_)
  rw [Bool.and_comm]
  rfl

/-- Where one test allows more, equal lists of names select the same rows, up to rows without a
name. -/
theorem namesOf_eq_iff {t : Tables}
    (h : ∀ key, fileNameFromPath key.2 ≠ [] → q key = true → p key = true) :
    namesOf t p = namesOf t q ↔
      ∀ key ∈ t.folders.keys, fileNameFromPath key.2 ≠ [] → p key = q key := by
  rw [namesOf_eq, namesOf_eq, filter_map_eq_iff]
  · simp only [Bool.and_eq_true, decide_eq_true_eq]
    constructor
    · intro hall key hkey hname
      exact Bool.eq_iff_iff.mpr ⟨fun hp => (hall key hkey ⟨hp, hname⟩).1, h key hname⟩
    · intro hall key hkey hp
      exact ⟨hall key hkey hp.2 ▸ hp.1, hp.2⟩
  · simp only [Bool.and_eq_true, decide_eq_true_eq]
    exact fun key _ hq => ⟨h key hq.2 hq.1, hq.2⟩

/-- At the root the pattern selects no more of the rows with a name than the children; elsewhere it
selects all children. -/
theorem child_or_isChild (hhead : path.head? = some '/') (mount : Path) :
    (∀ key : Key, fileNameFromPath key.2 ≠ [] → isChild mount path key = true →
        decide (key.1 = mount ∧ parentPath key.2 = some path) = true) ∨
      ∀ key : Key, fileNameFromPath key.2 ≠ [] →
        decide (key.1 = mount ∧ parentPath key.2 = some path) = true →
          isChild mount path key = true := by
  by_cases hroot : path = ['/']
  · refine .inl fun key hname hchild => ?_
    obtain ⟨hmount, hmem, hlike, -⟩ := (isChild_iff mount path key).mp hchild
    rw [folderText, if_pos hroot] at hlike
    have hempty : beforeLastSlash key.2 = [] := List.isEmpty_iff.mp hlike
    rw [decide_eq_true_eq, hroot, parentPath_root_iff]
    refine ⟨hmount, fun hrow => hname ?_, .inl hempty⟩
    rw [hrow]
    decide
  · refine .inr fun key _ hchild => ?_
    rw [decide_eq_true_eq] at hchild
    by_contra hnot
    have hmis : ¬(key.1 = mount ∧ Misread path key.2) := by
      rintro ⟨-, hmis⟩
      rw [Misread, if_neg hroot] at hmis
      have hslash := ne_nil_of_mem (mem_of_mem_head? hhead)
      exact hmis.1 ((parentPath_eq_iff hslash hroot _).mp hchild.2)
    rw [(isChild_eq_iff hhead mount key).mpr hmis, decide_eq_true_eq] at hnot
    exact hnot hchild

/-- **When a listing is exact.** -/
theorem listsChildren_iff_not_misread (t : Tables) (mount path : Path) :
    ListsChildren t mount path ↔
      ∀ row, Shown t mount row → ¬Misread (normalizePath path) row := by
  have hhead := head_normalizePath path
  rw [listsChildren_iff]
  generalize normalizePath path = p at hhead
  have hrow : ∀ row, isChild mount p (mount, row) =
      decide ((mount, row).1 = mount ∧ parentPath (mount, row).2 = some p) ↔ ¬Misread p row := by
    intro row
    rw [isChild_eq_iff hhead, not_and]
    exact ⟨fun h => h rfl, fun h _ => h⟩
  have hother : ∀ key : Key, key.1 ≠ mount →
      isChild mount p key = decide (key.1 = mount ∧ parentPath key.2 = some p) := by
    intro key hkey
    exact (isChild_eq_iff hhead mount key).mpr fun h => hkey h.1
  have hfiles : (listingOf (answer t quiet (.selectChildren mount p)).1).files =
      (listingOf (childRows t mount p)).files ↔
        ∀ row, (mount, row) ∈ t.files.keys → ¬Misread p row := by
    have hchild : ∀ key : Key,
        decide (key.1 = mount ∧ parentPath key.2 = some p) = true → key.1 = mount :=
      fun key h => (decide_eq_true_iff.mp h).1
    refine (entriesOf_eq_iff mount (fun key h => ((isChild_iff _ _ _).mp h).1) hchild).trans ?_
    constructor
    · exact fun h row hmem => (hrow row).mp (h _ hmem)
    · intro h key hmem
      by_cases hkey : key.1 = mount
      · obtain ⟨m, row⟩ := key
        obtain rfl : m = mount := hkey
        exact (hrow row).mpr (h row hmem)
      · exact hother key hkey
  have hfolders : (listingOf (answer t quiet (.selectChildren mount p)).1).folders =
      (listingOf (childRows t mount p)).folders ↔
        ∀ row, (mount, row) ∈ t.folders.keys → fileNameFromPath row ≠ [] → ¬Misread p row := by
    have hiff : namesOf t (isChild mount p) =
        namesOf t (fun key => decide (key.1 = mount ∧ parentPath key.2 = some p)) ↔
          ∀ key ∈ t.folders.keys, fileNameFromPath key.2 ≠ [] →
            isChild mount p key = decide (key.1 = mount ∧ parentPath key.2 = some p) := by
      rcases child_or_isChild hhead mount with h | h
      · rw [eq_comm, namesOf_eq_iff h]
        exact ⟨fun h key hk hn => (h key hk hn).symm, fun h key hk hn => (h key hk hn).symm⟩
      · exact namesOf_eq_iff h
    refine hiff.trans ?_
    constructor
    · exact fun h row hmem hname => (hrow row).mp (h _ hmem hname)
    · intro h key hmem hname
      by_cases hkey : key.1 = mount
      · obtain ⟨m, row⟩ := key
        obtain rfl : m = mount := hkey
        exact (hrow row).mpr (h row hmem hname)
      · exact hother key hkey
  have hboth : listingOf (answer t quiet (.selectChildren mount p)).1 =
      listingOf (childRows t mount p) ↔
        (listingOf (answer t quiet (.selectChildren mount p)).1).files =
            (listingOf (childRows t mount p)).files ∧
          (listingOf (answer t quiet (.selectChildren mount p)).1).folders =
            (listingOf (childRows t mount p)).folders := by
    rw [← Listing.mk.injEq]
  rw [hboth, hfiles, hfolders]
  constructor
  · rintro ⟨h, h'⟩ row (hrow | ⟨hrow, hname⟩)
    · exact h row hrow
    · exact h' row hrow hname
  · intro h
    exact ⟨fun row hrow => h row (.inl hrow), fun row hrow hname => h row (.inr ⟨hrow, hname⟩)⟩

/-! ## Paths whose listings are always exact -/

theorem like_replace {s r : Path} {c d : Char}
    (h : c = '%' ∨ c = '_' ∨ c.toLower = d.toLower) : like (s ++ c :: r) (s ++ d :: r) = true := by
  refine (like_append_iff _ _ _).mpr ⟨s, d :: r, rfl, like_self s, ?_⟩
  by_cases hc : c = '%'
  · simp only [like, if_pos hc, any_eq_true, mem_tails]
    exact ⟨r, suffix_cons d r, like_self r⟩
  · simp only [like, if_neg hc, Bool.and_eq_true, Bool.or_eq_true, decide_eq_true_eq]
    exact ⟨h.resolve_left hc, like_self r⟩

theorem Literal.eq_of_like {r t : Path} (h : Literal r) (hlike : like r t = true) : t = r := by
  induction r generalizing t with
  | nil => exact List.isEmpty_iff.mp hlike
  | cons c r ih =>
    obtain ⟨halpha, hpercent, hunder⟩ := h c mem_cons_self
    cases t with
    | nil => simp only [like, if_neg hpercent, Bool.false_eq_true] at hlike
    | cons d t =>
      simp only [like, if_neg hpercent, Bool.and_eq_true, Bool.or_eq_true, decide_eq_true_eq,
        hunder, false_or, toLower_eq_iff halpha] at hlike
      rw [← hlike.1, ih (fun c hc => h c (mem_cons_of_mem _ hc)) hlike.2]

theorem exists_resembling {c : Char} (h : ¬(¬c.isAlpha = true ∧ c ≠ '%' ∧ c ≠ '_')) :
    ∃ d, d ≠ c ∧ c ≠ '/' ∧ d ≠ '/' ∧ (c = '%' ∨ c = '_' ∨ c.toLower = d.toLower) := by
  by_cases hpercent : c = '%'
  · subst hpercent
    exact ⟨'x', by decide⟩
  by_cases hunder : c = '_'
  · subst hunder
    exact ⟨'x', by decide⟩
  have halpha : c.isAlpha = true := by
    by_contra halpha
    exact h ⟨halpha, hpercent, hunder⟩
  have hslash : ∀ e : Char, e.isAlpha = true → e ≠ '/' := by
    rintro e he rfl
    exact absurd he (by decide)
  have hnat := (isAlpha_iff c).mp halpha
  -- the other case of the letter
  have hother : ∀ n : ℕ, (65 ≤ n ∧ n ≤ 90) ∨ (97 ≤ n ∧ n ≤ 122) →
      (Char.ofNat n).toNat = n := by
    intro n hn
    have hvalid : n.isValidChar := .inl (by omega)
    rw [Char.ofNat, dif_pos hvalid]
    rfl
  rcases hnat with hnat | hnat
  · have hd := hother (c.toNat + 32) (by omega)
    refine ⟨Char.ofNat (c.toNat + 32), fun heq => ?_, hslash c halpha, hslash _ ?_, .inr (.inr ?_)⟩
    · rw [heq] at hd
      omega
    · rw [isAlpha_iff, hd]
      omega
    · refine Char.ext (UInt32.toNat_inj.mp ?_)
      change c.toLower.toNat = (Char.ofNat (c.toNat + 32)).toLower.toNat
      rw [toNat_toLower, toNat_toLower, hd, if_pos hnat, if_neg (by omega)]
  · have hd := hother (c.toNat - 32) (by omega)
    refine ⟨Char.ofNat (c.toNat - 32), fun heq => ?_, hslash c halpha, hslash _ ?_, .inr (.inr ?_)⟩
    · rw [heq] at hd
      omega
    · rw [isAlpha_iff, hd]
      omega
    · refine Char.ext (UInt32.toNat_inj.mp ?_)
      change c.toLower.toNat = (Char.ofNat (c.toNat - 32)).toLower.toNat
      rw [toNat_toLower, toNat_toLower, hd, if_neg (by omega), if_pos (by omega)]
      omega

/-- A database with one file. -/
def oneFile (mount row : Path) : Tables :=
  ⟨(∅ : Record Key FileRow).set (mount, row) ⟨[], 0, 0, []⟩, ∅, ∅, ∅⟩

theorem shown_oneFile (mount row : Path) : Shown (oneFile mount row) mount row :=
  .inl (Record.mem_keys_iff.mpr ⟨_, Record.get_set_self _ _ _⟩)

theorem always_listsChildren_iff (mount path : Path) :
    (∀ t, ListsChildren t mount path) ↔
      normalizePath path ≠ ['/'] ∧ Literal (normalizePath path) := by
  have hhead := head_normalizePath path
  simp only [listsChildren_iff_not_misread]
  generalize normalizePath path = p at hhead
  constructor
  · intro h
    have hall : ∀ row, ¬Misread p row := fun row => h _ row (shown_oneFile mount row)
    have hroot : p ≠ ['/'] := by
      intro hroot
      refine hall ['/'] ?_
      rw [Misread, if_pos hroot]
      exact .inl rfl
    refine ⟨hroot, fun c hc => ?_⟩
    by_contra hnot
    obtain ⟨d, hne, hc', hd', hlike⟩ := exists_resembling hnot
    obtain ⟨s, r, rfl⟩ := append_of_mem hc
    refine hall ((s ++ d :: r) ++ '/' :: ['f']) ?_
    rw [Misread, if_neg hroot, beforeLastSlash_append (by decide)]
    refine ⟨fun heq => hne ?_, ?_, like_replace hlike⟩
    · exact (List.cons.inj (append_cancel_left heq)).1
    · rw [slashes, slashes, count_append, count_append, count_cons_of_ne hd', count_cons_of_ne hc']
  · rintro ⟨hroot, hliteral⟩ t row - hmis
    rw [Misread, if_neg hroot] at hmis
    exact hmis.1 (hliteral.eq_of_like hmis.2.2)

/-- **Listings.**  A listing that reads the database is exact if and only if no row shown is
misread: one whose folder resembles the path as a pattern, or at the root a row that is no slash and
name.  It is exact for every database if and only if the path is not the root and has no letter of
ASCII, `%` or `_`. -/
theorem lists_children_iff (t : Tables) (mount path : Path) :
    (ListsChildren t mount path ↔
      ∀ row, Shown t mount row → ¬Misread (normalizePath path) row) ∧
    ((∀ t', ListsChildren t' mount path) ↔
      normalizePath path ≠ ['/'] ∧ Literal (normalizePath path)) :=
  ⟨listsChildren_iff_not_misread t mount path, always_listsChildren_iff mount path⟩

/-- `"/m_a/changes"` lists a change of `"/m-a"`. -/
theorem not_lists_children : ¬∀ (t : Tables) (mount path : Path), ListsChildren t mount path := by
  intro h
  have hchange := (listsChildren_iff_not_misread
    (oneFile ['x'] (['/', 'm', '-', 'a', '/'] ++ changesName ++ ['/', '1'])) ['x']
    (['/', 'm', '_', 'a', '/'] ++ changesName)).mp (h _ _ _) _ (shown_oneFile _ _)
  rw [Misread, if_neg (by decide)] at hchange
  exact hchange (by decide)

end Interocitor.Worker.Io
