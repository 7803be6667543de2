import Interocitor.Adapters.GoogleDrive

/-!
# Listings of object stores

The engine takes a listing for the whole truth about a folder.  `adapter-contract.md` asks for the
direct children of the folder, and both adapters can give others without failing.

* S3: the text of a key is trimmed before it is decoded, so a key with a bare blank at an end is
  read as another one.
* Drive: only the first page of each search is read.

`listings_exact_iff` says that this is all that goes wrong, however the answers are cut into pages,
and `listings_not_exact` shows both on one folder.
-/

namespace Interocitor.Listings

open CodeUnits List

/-- **Listings.**  A listing of S3 fails or is exact if and only if a request fails, or no direct
child of the folder has a key with a bare blank at an end; one of Drive, if and only if the folder
has no files, or no search loses results unless an earlier one fails. -/
theorem listings_exact_iff (s3 : S3.S3Adapter) {pre s3Path : Text} {objects : Finset Text}
    (hpre : S3.folderPrefix s3 s3Path = .ok pre)
    {fetch : Option Text → Except S3.ListFailure Text} (answer : S3.Answer pre objects)
    (hserves : S3.Serves fetch none answer.pages) {n : ℕ} (hn : answer.pages.length ≤ n)
    {tree : Drive.DriveTree} {driveAnswer : Text → Option Drive.Response}
    (hcorrect : Drive.Correct tree driveAnswer) (d : Drive.GoogleDriveAdapter)
    (hagrees : Drive.Agrees tree d.folderIdCache) (drivePath : Text) :
    (∃ r, S3.listFiles s3 fetch s3Path n = some r ∧
      (S3.FailsOrExact pre objects r ↔
        ¬S3.Answers fetch none answer.pages ∨ answer.ChildrenUnpadded)) ∧
      (Drive.FailsOrExact tree drivePath (Drive.listFiles d driveAnswer drivePath).1 ↔
        tree.children drivePath = [] ∨
          Drive.Kept d.accessToken driveAnswer tree
            (Drive.searches tree d.folderIdCache drivePath)) :=
  ⟨S3.listFiles_failsOrExact_iff s3 hpre answer hserves hn,
    Drive.listFiles_failsOrExact_iff hcorrect hagrees drivePath⟩

/-! ## A store with two pages -/

namespace Stored

open S3

/-- `"t"`, the token of the second page. -/
def token : List Piece := [.plain 116]

/-- The first page, with one key. -/
def firstPage (key : List Piece) : Page where
  declaration := []
  attributes := []
  parts := [.node (.leaf isTruncatedName (trueText.map .plain)), .node (.leaf nextTokenName token),
    .entry ⟨[], key, []⟩]
  next := some token

/-- The last page, with one key. -/
def lastPage (key : List Piece) : Page where
  declaration := []
  attributes := []
  parts := [.node (.leaf isTruncatedName [.plain 102]), .entry ⟨[], key, []⟩]
  next := none

variable {key : List Piece}

theorem valid_entry (h : ∀ p ∈ key, p.Valid) :
    (⟨[], key, []⟩ : Entry).Valid where
  fields := by
    intro n hn
    rw [mem_singleton.mp hn]
    have hname : IsName keyName := isName_names _ (by decide)
    have hall : ∀ name ∈ pageNames, ¬SameName keyName name := by decide
    exact ⟨⟨hname, h⟩, fun name hmem => hall name hmem⟩
  front n hn := absurd hn not_mem_nil

theorem valid_plain {t : Text} (h : (t.all fun u => decide (u ≠ 60 ∧ u ≠ 38)) = true) :
    ∀ p ∈ t.map Piece.plain, p.Valid := by
  intro p hp
  obtain ⟨u, hu, rfl⟩ := mem_map.mp hp
  have hunit : u ≠ 60 ∧ u ≠ 38 := of_decide_eq_true (all_eq_true.mp h u hu)
  exact hunit

theorem valid_leaf {name : Text} (hname : name ∈ [isTruncatedName, nextTokenName])
    {ps : List Piece} (h : ∀ p ∈ ps, p.Valid) : (Part.node (.leaf name ps)).Valid := by
  have hall : ∀ name ∈ [isTruncatedName, nextTokenName],
      ¬SameName name contentsName ∧ ¬SameName name commonPrefixesName := by decide
  have hmem : name ∈ listBucketResult :: keyName :: pageNames := by
    rcases mem_cons.mp hname with rfl | hname
    · decide
    · rw [mem_singleton.mp hname]
      decide
  exact ⟨⟨isName_names name hmem, h⟩, hall name hname⟩

theorem valid_firstPage (h : ∀ p ∈ key, p.Valid) : (firstPage key).Valid where
  declaration := not_mem_nil
  attributes := ⟨not_mem_nil, .inl rfl⟩
  parts p hp := by
    simp only [firstPage, mem_cons, not_mem_nil, or_false] at hp
    rcases hp with rfl | rfl | rfl
    · exact valid_leaf (by decide) (valid_plain (by decide))
    · exact valid_leaf (by decide) (valid_plain (t := [116]) (by decide))
    · exact valid_entry h
  truncated := by
    have hleaf : (firstPage key).leaf isTruncatedName = some (trueText.map .plain) := rfl
    rw [hleaf]
    exact ⟨fun _ => rfl, fun _ => by decide⟩
  next ps hps := by
    rw [← Option.some.inj hps]
    exact ⟨rfl, by decide, by decide⟩

theorem valid_lastPage (h : ∀ p ∈ key, p.Valid) : (lastPage key).Valid where
  declaration := not_mem_nil
  attributes := ⟨not_mem_nil, .inl rfl⟩
  parts p hp := by
    simp only [lastPage, mem_cons, not_mem_nil, or_false] at hp
    rcases hp with rfl | rfl
    · exact valid_leaf (by decide) (valid_plain (t := [102]) (by decide))
    · exact valid_entry h
  truncated := by
    have hleaf : (lastPage key).leaf isTruncatedName = some [.plain 102] := rfl
    rw [hleaf]
    exact ⟨fun h => absurd h (by decide), fun h => absurd h (by simp [lastPage])⟩
  next ps hps := absurd hps (by simp [lastPage])

/-- Two keys without a slash, on two pages. -/
def twoPages (key key' : List Piece) (h : ∀ p ∈ key ++ key', p.Valid)
    (hne : meaning key ≠ meaning key')
    (hslash : ∀ k ∈ [meaning key, meaning key'], (47 : CodeUnit) ∉ k) :
    S3.Answer [] {meaning key, meaning key'} where
  pages := [firstPage key, lastPage key']
  valid p hp := by
    rcases mem_cons.mp hp with rfl | hp
    · exact valid_firstPage fun p hp => h p (mem_append_left _ hp)
    · rw [mem_singleton.mp hp]
      exact valid_lastPage fun p hp => h p (mem_append_right _ hp)
  linked front p back heq := by
    rcases front with _ | ⟨q, _ | ⟨r, front⟩⟩
    · obtain ⟨rfl, rfl⟩ := List.cons.inj heq
      exact ⟨fun _ => cons_ne_nil _ _, fun _ => rfl⟩
    · obtain ⟨rfl, rfl⟩ := List.cons.inj (List.cons.inj heq).2
      simp [lastPage]
    · exact absurd (congrArg List.length heq) (by simp)
  ne_nil := cons_ne_nil _ _
  tokens := nodup_singleton _
  nodup := by
    change [meaning key, meaning key'].Nodup
    simpa using hne
  mem_keys k := by
    change k ∈ [meaning key, meaning key'] ↔ _
    constructor
    · intro hk
      exact ⟨by simpa using hk, nil_prefix, hslash k hk⟩
    · rintro ⟨hk, -⟩
      simpa using hk

/-- The store answers with these pages. -/
def fetch (key key' : List Piece) : Option Text → Except ListFailure Text
  | none => .ok (firstPage key).text
  | some _ => .ok (lastPage key').text

theorem serves (key key' : List Piece) :
    Serves (fetch key key') none [firstPage key, lastPage key'] :=
  ⟨fun _ h => (Except.ok.inj h).symm, fun _ h => (Except.ok.inj h).symm, trivial⟩

theorem answers (key key' : List Piece) :
    Answers (fetch key key') none [firstPage key, lastPage key'] :=
  ⟨⟨_, rfl⟩, ⟨_, rfl⟩, trivial⟩

/-- `"a"`. -/
def keyA : List Piece := [.plain 97]

/-- `"b"`. -/
def keyB : List Piece := [.plain 98]

/-- `"b "`, with a blank at its end that is spelled by itself. -/
def paddedKeyB : List Piece := [.plain 98, .plain 32]

/-- A folder without padded keys. -/
def unpadded : S3.Answer [] {meaning keyA, meaning keyB} :=
  twoPages keyA keyB (valid_plain (t := [97, 98]) (by decide)) (by decide) (by decide)

/-- A folder with a padded key. -/
def padded : S3.Answer [] {meaning keyA, meaning paddedKeyB} :=
  twoPages keyA paddedKeyB (valid_plain (t := [97, 98, 32]) (by decide)) (by decide) (by decide)

/-- The adapter of a bucket, without a prefix. -/
def bucket : S3Adapter := ⟨[], fun _ => []⟩

/-- `"/"`. -/
def rootPath : Text := [47]

theorem folderPrefix_rootPath : folderPrefix bucket rootPath = .ok [] := by decide

end Stored

namespace Stored

open Drive

/-- A file with a number as its name. -/
def file (k : ℕ) : DriveFile := ⟨numeral 10 k, numeral 10 k, none, []⟩

/-- A drive with some files in its root. -/
def drive (files : List DriveFile) : DriveTree where
  folders _ _ := []
  files folderId := if folderId = rootId then files else []
  unique _ _ := Nat.zero_le 1
  id_ne_nil _ _ _ hf := absurd hf not_mem_nil

/-- The drive answers with some files at its root, and with none elsewhere. -/
def answerFirst (page : List DriveFile) (q : Text) : Option Response :=
  some ⟨200, some (some (if q = filesQuery rootId then page else []))⟩

theorem folderQuery_ne (name parentId : Text) : folderQuery name parentId ≠ filesQuery rootId := by
  intro h
  have hhead := congrArg List.head? h
  exact absurd (Option.some.inj hhead) (by decide)

theorem filesQuery_inj {folderId : Text} (h : filesQuery folderId = filesQuery rootId) :
    folderId = rootId :=
  append_cancel_left (append_cancel_right h)

theorem files_drive (files : List DriveFile) (folderId : Text) :
    (drive files).files folderId = if folderId = rootId then files else [] := rfl

theorem correct_answerFirst (page : List DriveFile) (rest : List (List DriveFile)) :
    Correct (drive (page ++ rest.flatten)) (answerFirst page) where
  folders name parentId res h := by
    rw [← Option.some.inj h]
    refine ⟨[], ?_⟩
    rw [if_neg (folderQuery_ne name parentId)]
    exact List.Perm.refl []
  files folderId res h := by
    rw [← Option.some.inj h]
    by_cases hq : filesQuery folderId = filesQuery rootId
    · obtain rfl := filesQuery_inj hq
      refine ⟨rest, ?_⟩
      rw [if_pos rfl]
      exact List.Perm.refl _
    · have hroot : folderId ≠ rootId := fun heq => hq (congrArg filesQuery heq)
      refine ⟨[], ?_⟩
      rw [if_neg hq, files_drive, if_neg hroot]
      exact List.Perm.refl []

/-- An adapter with a token, and nothing remembered. -/
def adapter : GoogleDriveAdapter := ⟨some [116], ∅, ∅⟩

end Stored

open Stored

/-- The pages of a folder with the keys `a` and `b`, and a drive with two files on one page. -/
theorem listings_exact_iff_unpadded :
    (∃ r, S3.listFiles bucket (fetch keyA keyB) rootPath 2 = some r ∧
      (S3.FailsOrExact [] {S3.meaning keyA, S3.meaning keyB} r ↔
        ¬S3.Answers (fetch keyA keyB) none unpadded.pages ∨ unpadded.ChildrenUnpadded)) ∧
      (Drive.FailsOrExact (drive [file 0, file 1]) rootPath
          (Drive.listFiles adapter (answerFirst [file 0, file 1]) rootPath).1 ↔
        (drive [file 0, file 1]).children rootPath = [] ∨
          Drive.Kept adapter.accessToken (answerFirst [file 0, file 1]) (drive [file 0, file 1])
            (Drive.searches (drive [file 0, file 1]) adapter.folderIdCache rootPath)) :=
  listings_exact_iff bucket folderPrefix_rootPath unpadded (serves keyA keyB) (by decide)
    (correct_answerFirst [file 0, file 1] []) adapter (Drive.agrees_empty _) rootPath

/-- The 101st file of a folder is not listed if Drive answers with pages of 100 files, and a key
with a blank at its end is listed under another name. -/
theorem listings_not_exact :
    (∃ r, S3.listFiles bucket (fetch keyA paddedKeyB) rootPath 2 = some r ∧
      ¬S3.FailsOrExact [] {S3.meaning keyA, S3.meaning paddedKeyB} r) ∧
      ¬Drive.FailsOrExact (drive ((List.range 101).map file)) rootPath
        (Drive.listFiles adapter (answerFirst ((List.range 100).map file)) rootPath).1 := by
  constructor
  · obtain ⟨r, hrun, hiff⟩ := S3.listFiles_failsOrExact_iff bucket folderPrefix_rootPath padded
      (serves keyA paddedKeyB) (n := 2) (by decide)
    refine ⟨r, hrun, fun hexact => ?_⟩
    rcases hiff.mp hexact with hfails | hunpadded
    · exact hfails (answers keyA paddedKeyB)
    · have hchild : S3.IsChild [] {S3.meaning keyA, S3.meaning paddedKeyB} [98, 32] := by
        exact ⟨by decide, by decide, by decide⟩
      have hentry : (⟨[], paddedKeyB, []⟩ : S3.Entry) ∈ padded.entries :=
        mem_cons_of_mem _ mem_cons_self
      exact absurd (hunpadded _ hentry [98, 32] hchild rfl) (by decide)
  · have hsplit : (List.range 101).map file =
        (List.range 100).map file ++ [[file 100]].flatten := by
      rw [range_succ, map_append]
      rfl
    have hcorrect : Drive.Correct (drive ((List.range 101).map file))
        (answerFirst ((List.range 100).map file)) := by
      rw [hsplit]
      exact correct_answerFirst _ _
    have hchildren : (drive ((List.range 101).map file)).children rootPath =
        (List.range 101).map file := rfl
    have hrun : (Drive.Search.files Drive.rootId).run adapter.accessToken
        (answerFirst ((List.range 100).map file)) = .ok ((List.range 100).map file) := rfl
    rw [Drive.listFiles_failsOrExact_iff hcorrect (Drive.agrees_empty _), hchildren]
    rintro (hnil | hkept)
    · exact absurd (congrArg List.length hnil) (by simp)
    · have hsearches : Drive.searches (drive ((List.range 101).map file)) adapter.folderIdCache
          rootPath = [.files Drive.rootId] := rfl
      rw [hsearches, Drive.kept_cons_ok _ hrun] at hkept
      refine hkept.1 ?_
      have hall : ((List.range 101).map file).length = 101 := by simp
      have hpage : ((List.range 100).map file).length = 100 := by simp
      rw [hpage, Drive.Search.results, files_drive, if_pos rfl, hall]
      decide

end Interocitor.Listings
