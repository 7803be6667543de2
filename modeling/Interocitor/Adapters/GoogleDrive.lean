import Interocitor.Adapters.S3

/-!
# `google-drive.ts`: listing a folder

Drive knows folders by id.  `GoogleDriveAdapter.listFiles` walks down a path, one search for each
name that it has not seen before, and then searches for the files in the folder that it has come
to.  It remembers the ids of folders and of files.

A search is answered page by page, and the adapter reads the first page of each.  So a search can
lose results: those that are on later pages.  A search for a folder also loses its result if it is
answered with an error whose status is none of those that mean a denial of access: the body of such
a response has no files, and the adapter takes that for an answer.

What Drive answers is a parameter.  A `DriveTree` is what is stored, and answers are `Correct` for
it if what they name is a first page of what there is.

* `resolveFolderId`, `listFiles`: the adapter.
* `resolveFrom_spec`: the walk comes to the folder that a path names, unless a search fails or loses
  its result; the ids that are remembered are right.
* `listFiles_agrees`: the ids that are remembered stay right.
* `listFiles_failsOrExact_iff`: a listing is exact if and only if the folder has no files, or no
  search loses results, unless an earlier one makes the listing fail.
-/

namespace Interocitor.Drive

open CodeUnits OrderedRecord List

/-! ## The adapter -/

/-- A text of the source. -/
def ascii (s : String) : Text := s.toList.map fun c => Fin.ofNat 65536 c.toNat

/-- A file, as a response names it. -/
structure DriveFile where
  id : Text
  name : Text
  size : Option Text
  modifiedTime : Text

/-- A response.  `data` is what its body says, `none` if it is no object, and `data.files` is
what is in it. -/
structure Response where
  status : ℕ
  data : Option (Option (List DriveFile))

/-- `res.ok`. -/
def Response.ok (res : Response) : Bool := decide (200 ≤ res.status ∧ res.status ≤ 299)

/-- `data.files || []`. -/
def Response.files (res : Response) : List DriveFile := (res.data.getD none).getD []

/-- How a call fails. -/
inductive DriveFailure where
  | notAuthenticated
  | unreachable
  | accessDenied (status : ℕ)
  | httpFailure (status : ℕ)
  | noObject
  deriving DecidableEq

/-- The statuses with a kind in `kindForStatus`. -/
def accessStatuses : List ℕ := [401, 403, 429, 503]

/-- A request with the headers of the adapter; `answer` is what Drive says. -/
def request (accessToken : Option Text) (answer : Text → Option Response) (q : Text) :
    Except DriveFailure Response :=
  if accessToken.getD [] = [] then .error .notAuthenticated
  else
    match answer q with
    | none => .error .unreachable
    | some res => .ok res

/-- `res.json()`, and `data.files || []`. -/
def filesOf (res : Response) : Except DriveFailure (List DriveFile) :=
  if res.data.isSome then .ok res.files else .error .noObject

/-- A search for a folder: a response that is an error is read like any other, unless it is a
denial of access. -/
def searchFolders (accessToken : Option Text) (answer : Text → Option Response) (q : Text) :
    Except DriveFailure (List DriveFile) :=
  match request accessToken answer q with
  | .error e => .error e
  | .ok res =>
    if res.status ∈ accessStatuses then .error (.accessDenied res.status) else filesOf res

/-- A search for the files of a folder. -/
def searchFiles (accessToken : Option Text) (answer : Text → Option Response) (q : Text) :
    Except DriveFailure (List DriveFile) :=
  match request accessToken answer q with
  | .error e => .error e
  | .ok res =>
    if res.ok then filesOf res
    else if res.status ∈ accessStatuses then .error (.accessDenied res.status)
    else .error (.httpFailure res.status)

/-- The search for a folder of a name. -/
def folderQuery (name parentId : Text) : Text :=
  ascii "name='" ++ name ++ ascii "' and '" ++ parentId ++
    ascii "' in parents and trashed=false and mimeType='application/vnd.google-apps.folder'"

/-- The search for the files of a folder. -/
def filesQuery (folderId : Text) : Text :=
  ascii "'" ++ folderId ++
    ascii "' in parents and trashed=false and mimeType!='application/vnd.google-apps.folder'"

/-- `"root"`. -/
def rootId : Text := ascii "root"

/-- `path.split("/").filter(Boolean)`. -/
def pathParts (path : Text) : List Text :=
  (path.splitOn 47).filter fun part => decide (part ≠ [])

/-- `"/" + parts.join("/")`. -/
def cacheKey (parts : List Text) : Text := 47 :: List.intercalate [47] parts

/-- The token, and the ids that are remembered. -/
structure GoogleDriveAdapter where
  accessToken : Option Text
  fileIdCache : Record Text Text
  folderIdCache : Record Text Text

/-- The loop of `resolveFolderId`; `done` are the names behind it. -/
def resolveFrom (answer : Text → Option Response) :
    GoogleDriveAdapter → List Text → Text → List Text →
      Except DriveFailure (Option Text) × GoogleDriveAdapter
  | d, _, parentId, [] => (.ok (some parentId), d)
  | d, done, parentId, name :: rest =>
    match d.folderIdCache.get (cacheKey (done ++ [name])) with
    | some id => resolveFrom answer d (done ++ [name]) id rest
    | none =>
      match searchFolders d.accessToken answer (folderQuery name parentId) with
      | .error e => (.error e, d)
      | .ok [] => (.ok none, d)
      | .ok (f :: _) =>
        resolveFrom answer
          { d with folderIdCache := d.folderIdCache.set (cacheKey (done ++ [name])) f.id }
          (done ++ [name]) f.id rest

/-- `resolveFolderId`. -/
def resolveFolderId (d : GoogleDriveAdapter) (answer : Text → Option Response) (path : Text) :
    Except DriveFailure (Option Text) × GoogleDriveAdapter :=
  match d.folderIdCache.get path with
  | some id => (.ok (some id), d)
  | none => resolveFrom answer d [] rootId (pathParts path)

/-- The entry of a file. -/
def entryOf (folderPath : Text) (f : DriveFile) : FileEntry :=
  ⟨f.name, folderPath ++ 47 :: f.name, JsNumber.parseDecimal (f.size.getD [48]), f.modifiedTime, none⟩

/-- `listFiles`. -/
def listFiles (d : GoogleDriveAdapter) (answer : Text → Option Response) (folderPath : Text) :
    Except DriveFailure (List FileEntry) × GoogleDriveAdapter :=
  match resolveFolderId d answer folderPath with
  | (.error e, d') => (.error e, d')
  | (.ok none, d') => (.ok [], d')
  | (.ok (some folderId), d') =>
    if folderId = [] then (.ok [], d')
    else
      match searchFiles d'.accessToken answer (filesQuery folderId) with
      | .error e => (.error e, d')
      | .ok files =>
        (.ok (files.map (entryOf folderPath)),
          { d' with
            fileIdCache :=
              files.foldl (fun r f => r.set (folderPath ++ 47 :: f.name) f.id) d'.fileIdCache })

/-! ## What is stored, and what is answered -/

/-- The folders of each name in each folder, of which there is one at most, and the files. -/
structure DriveTree where
  folders : Text → Text → List DriveFile
  files : Text → List DriveFile
  unique : ∀ parent name, (folders parent name).length ≤ 1
  id_ne_nil : ∀ parent name, ∀ f ∈ folders parent name, f.id ≠ []

namespace DriveTree

variable (tree : DriveTree)

/-- The folder that is reached over some names. -/
def locate : Text → List Text → Option Text
  | parent, [] => some parent
  | parent, name :: rest => (tree.folders parent name).head?.bind fun f => locate f.id rest

/-- The files in the folder of a path; none if there is no such folder. -/
def children (path : Text) : List DriveFile :=
  ((tree.locate rootId (pathParts path)).map tree.files).getD []

theorem locate_append (parent : Text) (a b : List Text) :
    tree.locate parent (a ++ b) = (tree.locate parent a).bind fun id => tree.locate id b := by
  induction a generalizing parent with
  | nil => rfl
  | cons name a ih =>
    rw [cons_append, locate, locate]
    cases (tree.folders parent name).head? with
    | none => rfl
    | some f => exact ih f.id

theorem locate_ne_nil {parent : Text} (hparent : parent ≠ []) {parts : List Text} {id : Text}
    (h : tree.locate parent parts = some id) : id ≠ [] := by
  induction parts generalizing parent with
  | nil => exact Option.some.inj h ▸ hparent
  | cons name rest ih =>
    rw [locate] at h
    obtain ⟨f, hf, hrest⟩ := Option.bind_eq_some_iff.mp h
    exact ih (tree.id_ne_nil parent name f (mem_of_mem_head? hf)) hrest

end DriveTree

/-- The first page of a division of some results. -/
def FirstPage (page all : List DriveFile) : Prop :=
  ∃ rest : List (List DriveFile), (page ++ rest.flatten).Perm all

theorem FirstPage.perm_iff {page all : List DriveFile} (h : FirstPage page all) :
    ¬page.length < all.length ↔ page.Perm all := by
  obtain ⟨rest, hperm⟩ := h
  constructor
  · intro hlength
    have hrest : rest.flatten = [] := by
      have heq := hperm.length_eq
      rw [length_append] at heq
      exact length_eq_zero_iff.mp (by omega)
    rwa [hrest, append_nil] at hperm
  · intro hpage
    rw [hpage.length_eq]
    exact Nat.lt_irrefl _

/-- What Drive names in an answer is a first page of what is stored.  (A response that is an error
names nothing, and so does one to a search that is no text of the query language.) -/
structure Correct (tree : DriveTree) (answer : Text → Option Response) : Prop where
  folders : ∀ name parentId res, answer (folderQuery name parentId) = some res →
    FirstPage res.files (tree.folders parentId name)
  files : ∀ folderId res, answer (filesQuery folderId) = some res →
    FirstPage res.files (tree.files folderId)

/-- The ids that are remembered are those of the folders. -/
def Agrees (tree : DriveTree) (cache : Record Text Text) : Prop :=
  ∀ path id, cache.get path = some id → tree.locate rootId (pathParts path) = some id

theorem agrees_empty (tree : DriveTree) : Agrees tree ∅ :=
  fun path id h => absurd h (by simp)

/-! ## The searches of a listing -/

/-- A search that a listing makes. -/
inductive Search where
  | folder (name parentId : Text)
  | files (folderId : Text)

namespace Search

/-- What comes of a search. -/
def run (accessToken : Option Text) (answer : Text → Option Response) :
    Search → Except DriveFailure (List DriveFile)
  | folder name parentId => searchFolders accessToken answer (folderQuery name parentId)
  | files folderId => searchFiles accessToken answer (filesQuery folderId)

/-- What there is to be found. -/
def results (tree : DriveTree) : Search → List DriveFile
  | folder name parentId => tree.folders parentId name
  | files folderId => tree.files folderId

end Search

/-- The searches on the way to a folder. -/
def folderSearches (tree : DriveTree) :
    Record Text Text → List Text → Text → List Text → List Search
  | _, _, _, [] => []
  | cache, done, parentId, name :: rest =>
    match cache.get (cacheKey (done ++ [name])) with
    | some id => folderSearches tree cache (done ++ [name]) id rest
    | none =>
      .folder name parentId :: (tree.folders parentId name).head?.elim [] fun f =>
        folderSearches tree (cache.set (cacheKey (done ++ [name])) f.id) (done ++ [name]) f.id rest

/-- The searches of a listing: on the way to the folder, if it is not remembered, and for its
files. -/
def searches (tree : DriveTree) (cache : Record Text Text) (path : Text) : List Search :=
  (if (cache.get path).isSome then [] else folderSearches tree cache [] rootId (pathParts path)) ++
    (tree.locate rootId (pathParts path)).toList.map .files

/-- No search loses results, unless an earlier one fails. -/
def Kept (accessToken : Option Text) (answer : Text → Option Response) (tree : DriveTree) :
    List Search → Prop
  | [] => True
  | s :: l =>
    match s.run accessToken answer with
    | .error _ => True
    | .ok found => ¬found.length < (s.results tree).length ∧ Kept accessToken answer tree l

/-! ## Names and paths -/

/-- A name between two slashes. -/
def IsPart (part : Text) : Prop := part ≠ [] ∧ (47 : CodeUnit) ∉ part

theorem notMem_of_mem_splitOn {l p : Text} (h : p ∈ l.splitOn 47) : (47 : CodeUnit) ∉ p := by
  induction l generalizing p with
  | nil =>
    rw [splitOn_nil, mem_singleton] at h
    rw [h]
    exact not_mem_nil
  | cons u l ih =>
    rw [splitOn_cons_eq_if_modifyHead] at h
    split_ifs at h with hu
    · rcases mem_cons.mp h with rfl | h
      · exact not_mem_nil
      · exact ih h
    · obtain ⟨q, qs, hq⟩ := exists_cons_of_ne_nil (splitOn_ne_nil (47 : CodeUnit) l)
      rw [hq, modifyHead_cons] at h
      have hne : (47 : CodeUnit) ≠ u := fun heq => hu (by simp [heq])
      rcases mem_cons.mp h with rfl | h
      · have hmem := ih (p := q) (by rw [hq]; exact mem_cons_self)
        simp [hne, hmem]
      · exact ih (by rw [hq]; exact mem_cons_of_mem q h)

theorem isPart_of_mem {path part : Text} (h : part ∈ pathParts path) : IsPart part := by
  obtain ⟨hmem, hne⟩ := mem_filter.mp h
  exact ⟨of_decide_eq_true hne, notMem_of_mem_splitOn hmem⟩

theorem pathParts_cacheKey {parts : List Text} (hne : parts ≠ []) (h : ∀ p ∈ parts, IsPart p) :
    pathParts (cacheKey parts) = parts := by
  have hfirst : cacheKey parts = [] ++ 47 :: List.intercalate [47] parts := rfl
  have hsplit : (List.intercalate [47] parts).splitOn (47 : CodeUnit) = parts :=
    splitOn_intercalate 47 (fun p hp => (h p hp).2) hne
  rw [pathParts, hfirst, splitOn_append_cons_self_of_not_mem not_mem_nil, hsplit]
  refine (filter_cons_of_neg (by simp)).trans ?_
  exact filter_eq_self.mpr fun p hp => decide_eq_true (h p hp).1

/-! ## The walk -/

section Walk

variable {tree : DriveTree} {answer : Text → Option Response} {accessToken : Option Text}
  {found : List DriveFile}

theorem files_of_filesOf {res : Response} (h : filesOf res = .ok found) : found = res.files := by
  rw [filesOf] at h
  split_ifs at h
  exact (Except.ok.inj h).symm

theorem answer_of_request {q : Text} {res : Response}
    (h : request accessToken answer q = .ok res) : answer q = some res := by
  rw [request] at h
  split_ifs at h
  cases hanswer : answer q with
  | none =>
    rw [hanswer] at h
    exact absurd h (by simp)
  | some res' =>
    rw [hanswer] at h
    rw [Except.ok.inj h]

variable {s : Search}

theorem Search.firstPage (hcorrect : Correct tree answer)
    (h : s.run accessToken answer = .ok found) : FirstPage found (s.results tree) := by
  cases s with
  | folder name parentId =>
    rw [run, searchFolders] at h
    split at h
    · exact absurd h (by simp)
    · rename_i res hres
      split_ifs at h
      rw [files_of_filesOf h]
      exact hcorrect.folders name parentId res (answer_of_request hres)
  | files folderId =>
    rw [run, searchFiles] at h
    split at h
    · exact absurd h (by simp)
    · rename_i res hres
      split_ifs at h
      rw [files_of_filesOf h]
      exact hcorrect.files folderId res (answer_of_request hres)

theorem kept_cons_error {e : DriveFailure} (l : List Search)
    (h : s.run accessToken answer = .error e) : Kept accessToken answer tree (s :: l) := by
  rw [Kept, h]
  trivial

theorem kept_cons_ok (l : List Search) (h : s.run accessToken answer = .ok found) :
    Kept accessToken answer tree (s :: l) ↔
      ¬found.length < (s.results tree).length ∧ Kept accessToken answer tree l := by
  rw [Kept, h]

theorem head_of_firstPage {name parentId : Text} {f : DriveFile} {l : List DriveFile}
    (h : FirstPage (f :: l) (tree.folders parentId name)) : tree.folders parentId name = [f] := by
  obtain ⟨rest, hperm⟩ := h
  have hlength := hperm.length_eq
  have hunique := tree.unique parentId name
  simp only [cons_append, length_cons] at hlength
  have hnil : l ++ rest.flatten = [] := length_eq_zero_iff.mp (by omega)
  rw [cons_append, hnil] at hperm
  exact perm_singleton.mp hperm.symm

/-- What a walk with some searches comes to: it fails, and so no search before lost a result; or it
comes to nothing, since there is nothing or a search lost its result; or it comes to the folder. -/
def Walked (accessToken : Option Text) (answer : Text → Option Response) (tree : DriveTree)
    (l : List Search) (target : Option Text) : Except DriveFailure (Option Text) → Prop
  | .error _ => ∀ tail, Kept accessToken answer tree (l ++ tail)
  | .ok none => target = none ∨ ∀ tail, ¬Kept accessToken answer tree (l ++ tail)
  | .ok (some id) => target = some id ∧
      ∀ tail, Kept accessToken answer tree (l ++ tail) ↔ Kept accessToken answer tree tail

/-- A search that has found its folder changes nothing. -/
theorem Walked.cons {l : List Search} {target : Option Text}
    {out : Except DriveFailure (Option Text)} (hrun : s.run accessToken answer = .ok found)
    (hfound : ¬found.length < (s.results tree).length)
    (h : Walked accessToken answer tree l target out) :
    Walked accessToken answer tree (s :: l) target out := by
  have hiff : ∀ tail, Kept accessToken answer tree (s :: (l ++ tail)) ↔
      Kept accessToken answer tree (l ++ tail) := by
    intro tail
    rw [kept_cons_ok _ hrun]
    exact and_iff_right hfound
  rcases out with e | _ | id
  · exact fun tail => (hiff tail).mpr (h tail)
  · exact h.imp_right fun hlost tail hkept => hlost tail ((hiff tail).mp hkept)
  · exact ⟨h.1, fun tail => (hiff tail).trans (h.2 tail)⟩

theorem Agrees.set {cache : Record Text Text} (h : Agrees tree cache) {parts : List Text}
    (hne : parts ≠ []) (hparts : ∀ p ∈ parts, IsPart p) {id : Text}
    (hid : tree.locate rootId parts = some id) : Agrees tree (cache.set (cacheKey parts) id) := by
  intro path id' hget
  rw [Record.get_set] at hget
  split_ifs at hget with hpath
  · rw [← hpath, pathParts_cacheKey hne hparts, hid]
    exact hget
  · exact h path id' hget

variable {d : GoogleDriveAdapter}

/-- **The walk.**  From any folder on the way on, the walk comes to the folder that the path names,
unless a search fails or loses its result. -/
theorem resolveFrom_spec (hcorrect : Correct tree answer) {done : List Text} {parentId : Text}
    {rest : List Text} (hparent : tree.locate rootId done = some parentId)
    (hparts : ∀ p ∈ done ++ rest, IsPart p) (hagrees : Agrees tree d.folderIdCache) :
    Walked d.accessToken answer tree (folderSearches tree d.folderIdCache done parentId rest)
        (tree.locate parentId rest) (resolveFrom answer d done parentId rest).1 ∧
      Agrees tree (resolveFrom answer d done parentId rest).2.folderIdCache ∧
      (resolveFrom answer d done parentId rest).2.accessToken = d.accessToken := by
  induction rest generalizing d done parentId with
  | nil => exact ⟨⟨rfl, fun tail => Iff.rfl⟩, hagrees, rfl⟩
  | cons name rest ih =>
    have hparts' : ∀ p ∈ (done ++ [name]) ++ rest, IsPart p := by simpa using hparts
    have hkey : ∀ p ∈ done ++ [name], IsPart p := fun p hp => hparts' p (mem_append_left _ hp)
    have hne : done ++ [name] ≠ [] := by simp
    have hnext : tree.locate rootId (done ++ [name]) =
        (tree.folders parentId name).head?.map DriveFile.id := by
      rw [tree.locate_append, hparent, Option.bind_some, DriveTree.locate]
      cases (tree.folders parentId name).head? <;> rfl
    rw [resolveFrom, folderSearches, DriveTree.locate]
    cases hget : d.folderIdCache.get (cacheKey (done ++ [name])) with
    | some id =>
      -- the id is remembered, and so it is that of the folder
      have hid := hagrees _ id hget
      rw [pathParts_cacheKey hne hkey] at hid
      obtain ⟨f, hf, rfl⟩ := Option.map_eq_some_iff.mp (hnext.symm.trans hid)
      rw [hf]
      exact ih hid hparts' hagrees
    | none =>
      dsimp only
      cases hrun : searchFolders d.accessToken answer (folderQuery name parentId) with
      | error e => exact ⟨fun tail => kept_cons_error _ hrun, hagrees, rfl⟩
      | ok found =>
        have hsearch : (Search.folder name parentId).run d.accessToken answer = .ok found := hrun
        have hpage := Search.firstPage hcorrect hsearch
        cases found with
        | nil =>
          refine ⟨?_, hagrees, rfl⟩
          cases hfolders : tree.folders parentId name with
          | nil => exact .inl rfl
          | cons f l =>
            refine .inr fun tail hkept => ?_
            refine ((kept_cons_ok _ hsearch).mp hkept).1 ?_
            rw [Search.results, hfolders]
            exact Nat.succ_pos _
        | cons f l =>
          have hfolders := head_of_firstPage hpage
          rw [hfolders]
          have hid : tree.locate rootId (done ++ [name]) = some f.id := by
            rw [hnext, hfolders]
            rfl
          obtain ⟨hwalked, hagrees', htoken⟩ := ih
            (d := { d with folderIdCache := d.folderIdCache.set (cacheKey (done ++ [name])) f.id })
            hid hparts' (hagrees.set hne hkey hid)
          refine ⟨hwalked.cons hsearch ?_, hagrees', htoken⟩
          rw [Search.results, hfolders]
          simp

/-- The walk to a folder, from what is remembered of it or from the root. -/
theorem resolveFolderId_spec (hcorrect : Correct tree answer)
    (hagrees : Agrees tree d.folderIdCache) (path : Text) :
    ∃ l, searches tree d.folderIdCache path =
        l ++ (tree.locate rootId (pathParts path)).toList.map .files ∧
      Walked d.accessToken answer tree l (tree.locate rootId (pathParts path))
        (resolveFolderId d answer path).1 ∧
      Agrees tree (resolveFolderId d answer path).2.folderIdCache ∧
      (resolveFolderId d answer path).2.accessToken = d.accessToken := by
  refine ⟨_, rfl, ?_⟩
  rw [resolveFolderId]
  cases hget : d.folderIdCache.get path with
  | some id => exact ⟨⟨hagrees path id hget, fun tail => Iff.rfl⟩, hagrees, rfl⟩
  | none => exact resolveFrom_spec hcorrect rfl (fun p hp => isPart_of_mem hp) hagrees

/-- The listing fails, or it has every file of the folder once, by its name, and nothing else. -/
def FailsOrExact (tree : DriveTree) (folderPath : Text)
    (r : Except DriveFailure (List FileEntry)) : Prop :=
  ∀ entries, r = .ok entries →
    (entries.map FileEntry.name).Perm ((tree.children folderPath).map DriveFile.name)

theorem failsOrExact_error (tree : DriveTree) (folderPath : Text) (e : DriveFailure) :
    FailsOrExact tree folderPath (.error e) := fun entries h => absurd h (by simp)

theorem failsOrExact_nil_iff {folderPath : Text} :
    FailsOrExact tree folderPath (.ok []) ↔ tree.children folderPath = [] := by
  constructor
  · intro h
    exact map_eq_nil_iff.mp (nil_perm.mp (h [] rfl))
  · rintro hnil entries hentries
    rw [← Except.ok.inj hentries, hnil]
    exact List.Perm.refl []

theorem map_name_entryOf (folderPath : Text) (files : List DriveFile) :
    (files.map (entryOf folderPath)).map FileEntry.name = files.map DriveFile.name := by
  rw [map_map]
  rfl

theorem failsOrExact_files_iff {folderPath : Text} {files : List DriveFile}
    (h : FirstPage files (tree.children folderPath)) :
    FailsOrExact tree folderPath (.ok (files.map (entryOf folderPath))) ↔
      ¬files.length < (tree.children folderPath).length := by
  constructor
  · intro hexact
    have hlength := (hexact _ rfl).length_eq
    rw [map_name_entryOf, length_map, length_map] at hlength
    exact Nat.not_lt.mpr hlength.ge
  · intro hlength entries hentries
    rw [← Except.ok.inj hentries, map_name_entryOf]
    exact (h.perm_iff.mp hlength).map DriveFile.name

theorem rootId_ne_nil : rootId ≠ [] := by decide

/-- **What is listed.**  A listing is exact if and only if the folder has no files, or no search
that it makes loses results, unless an earlier one makes it fail. -/
theorem listFiles_failsOrExact_iff (hcorrect : Correct tree answer)
    (hagrees : Agrees tree d.folderIdCache) (folderPath : Text) :
    FailsOrExact tree folderPath (listFiles d answer folderPath).1 ↔
      tree.children folderPath = [] ∨
        Kept d.accessToken answer tree (searches tree d.folderIdCache folderPath) := by
  obtain ⟨l, hsearches, hwalked, -, htoken⟩ := resolveFolderId_spec hcorrect hagrees folderPath
  rw [listFiles, hsearches]
  rcases hresolve : resolveFolderId d answer folderPath with ⟨out, d'⟩
  rw [hresolve] at hwalked htoken
  rcases out with e | _ | folderId
  · exact iff_of_true (failsOrExact_error tree folderPath e) (.inr (hwalked _))
  · rw [failsOrExact_nil_iff, or_iff_left_of_imp]
    intro hkept
    rcases hwalked with hnone | hlost
    · rw [DriveTree.children, hnone]
      rfl
    · exact absurd hkept (hlost _)
  · obtain ⟨hlocate, hiff⟩ := hwalked
    have hne : folderId ≠ [] := tree.locate_ne_nil rootId_ne_nil hlocate
    have hchildren : tree.children folderPath = tree.files folderId := by
      rw [DriveTree.children, hlocate]
      rfl
    have htail : (tree.locate rootId (pathParts folderPath)).toList.map Search.files =
        [.files folderId] := by rw [hlocate]; rfl
    dsimp only at htoken ⊢
    rw [if_neg hne, htail, hiff, htoken]
    cases hrun : searchFiles d.accessToken answer (filesQuery folderId) with
    | error e =>
      exact iff_of_true (failsOrExact_error tree folderPath e) (.inr (kept_cons_error _ hrun))
    | ok files =>
      have hsearch : (Search.files folderId).run d.accessToken answer = .ok files := hrun
      have hpage : FirstPage files (tree.children folderPath) := by
        rw [hchildren]
        exact Search.firstPage hcorrect hsearch
      rw [failsOrExact_files_iff hpage, kept_cons_ok _ hsearch, Search.results, ← hchildren]
      constructor
      · exact fun h => .inr ⟨h, trivial⟩
      · rintro (hnil | ⟨h, -⟩)
        · rw [hnil]
          exact Nat.not_lt_zero _
        · exact h

theorem listFiles_agrees (hcorrect : Correct tree answer) (hagrees : Agrees tree d.folderIdCache)
    (folderPath : Text) : Agrees tree (listFiles d answer folderPath).2.folderIdCache := by
  obtain ⟨-, -, -, hagrees', -⟩ := resolveFolderId_spec hcorrect hagrees folderPath
  rw [listFiles]
  rcases hresolve : resolveFolderId d answer folderPath with ⟨out, d'⟩
  rw [hresolve] at hagrees'
  rcases out with e | _ | folderId
  · exact hagrees'
  · exact hagrees'
  · dsimp only
    split_ifs
    · exact hagrees'
    · split <;> exact hagrees'

end Walk

end Interocitor.Drive
