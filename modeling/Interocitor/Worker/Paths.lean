import Mathlib.Data.Char
import Mathlib.Data.List.Lex
import Mathlib.Data.List.TakeWhile

/-!
# `paths.ts` of the worker: what a path is for

The mailbox host keeps the objects of a mesh as rows of a database, by path.  The path of
an object decides how the host treats a write to it: some objects are written once, some are
overwritten, and two of them only ever move forward.

Paths are texts in the database, which stores and compares them by code point; so a path is
a list of characters here.

* `normalizePath`: one slash at the front, none at the end, none doubled.
* `classifyPath`: the role of an object, by its name and the name of its folder.
* `meshRootForPath`: the folder that the mesh of an object lives in.
-/

namespace Interocitor.Worker

/-- A path, or a part of one. -/
abbrev Path := List Char

/-! ## Shape of a path -/

/-- Replace runs of slashes by one; the flag says that a slash came before. -/
def collapseSlashes : Bool → Path → Path
  | _, [] => []
  | after, c :: rest =>
    if c = '/' then
      if after then collapseSlashes true rest else '/' :: collapseSlashes true rest
    else c :: collapseSlashes false rest

/-- `normalizePath`. -/
def normalizePath (raw : Path) : Path :=
  let s := if raw.head? = some '/' then raw else '/' :: raw
  let c := collapseSlashes false s
  if c = ['/'] then ['/'] else if c.getLast? = some '/' then c.dropLast else c

/-- What follows the last slash. -/
def fileName (path : Path) : Path := (path.reverse.takeWhile fun c => decide (c ≠ '/')).reverse

/-- What comes before the last slash. -/
def beforeLastSlash (path : Path) : Path :=
  ((path.reverse.dropWhile fun c => decide (c ≠ '/')).tail).reverse

/-- `parentPath`: `null` at the root. -/
def parentPath (path : Path) : Option Path :=
  if path = ['/'] then none
  else if beforeLastSlash path = [] then some ['/'] else some (beforeLastSlash path)

/-- The segments of a path that are not empty, the first of them. -/
def firstSegment (path : Path) : Path :=
  (path.dropWhile fun c => decide (c = '/')).takeWhile fun c => decide (c ≠ '/')

/-! ## Roles -/

/-- `PathType`. -/
inductive PathType where
  | evictionRecord
  | manifestPointer
  | manifestSnapshot
  | head
  | changeFile
  | mainlineSnapshot
  | deviceHeartbeat
  | other
  deriving DecidableEq

/-- `"manifest-"`. -/
def manifestDash : Path := ['m', 'a', 'n', 'i', 'f', 'e', 's', 't', '-']

/-- `".json"`. -/
def dotJson : Path := ['.', 'j', 's', 'o', 'n']

/-- `"-chg_"`. -/
def changeMark : Path := ['-', 'c', 'h', 'g', '_']

/-- `"changes"`. -/
def changesName : Path := ['c', 'h', 'a', 'n', 'g', 'e', 's']

/-- `"mainline"`. -/
def mainlineName : Path := ['m', 'a', 'i', 'n', 'l', 'i', 'n', 'e']

/-- `"devices"`. -/
def devicesName : Path := ['d', 'e', 'v', 'i', 'c', 'e', 's']

/-- `/^manifest-\d+\.json$/`. -/
def isManifestSnapshotName (name : Path) : Bool :=
  manifestDash.isPrefixOf name && dotJson.isSuffixOf name &&
    (let digits := (name.drop manifestDash.length).take
      (name.length - manifestDash.length - dotJson.length)
    !digits.isEmpty && digits.all Char.isDigit &&
      decide (manifestDash.length + digits.length + dotJson.length = name.length))

/-- The characters that `.` matches in a pattern: no line ends. -/
def isDot (c : Char) : Bool :=
  decide (c ≠ '\n' ∧ c ≠ '\r' ∧ c ≠ Char.ofNat 0x2028 ∧ c ≠ Char.ofNat 0x2029)

/-- `/.+\.json$/`, from the front. -/
def isDotsJson (s : Path) : Bool :=
  dotJson.isSuffixOf s && (let dots := s.take (s.length - dotJson.length)
    !dots.isEmpty && dots.all isDot)

/-- `/^.+-chg_.+\.json$/`. -/
def isChangeFileName (name : Path) : Bool :=
  (List.range name.length).any fun i =>
    decide (0 < i) && (name.take i).all isDot && changeMark.isPrefixOf (name.drop i) &&
      isDotsJson (name.drop (i + changeMark.length))

/-- `classifyPath`, of a path that starts with a slash. -/
def classifyPath (path : Path) : PathType :=
  let name := fileName path
  let parentName := fileName (beforeLastSlash path)
  if name = ['e', 'v', 'i', 'c', 't', 'e', 'd'] ++ dotJson then .evictionRecord
  else if name = ['m', 'a', 'n', 'i', 'f', 'e', 's', 't'] ++ dotJson then .manifestPointer
  else if isManifestSnapshotName name then .manifestSnapshot
  else if name = ['h', 'e', 'a', 'd'] ++ dotJson ∧ parentName = changesName then .head
  else if isChangeFileName name ∧ parentName = changesName then .changeFile
  else if parentName = mainlineName then .mainlineSnapshot
  else if parentName = devicesName then .deviceHeartbeat
  else .other

/-- `meshRootForPath`, of a path that starts with a slash. -/
def meshRootForPath (path : Path) : Option Path :=
  if path = ['/'] then none
  else
    match classifyPath path with
    | .evictionRecord => parentPath path
    | .manifestPointer => parentPath path
    | .manifestSnapshot => parentPath path
    | .other =>
      if firstSegment path = [] then none else some ('/' :: firstSegment path)
    | _ => (parentPath path).bind parentPath

/-- `"/mesh/manifest-3.json"` and `"/mesh/changes/1-chg_2.json"`. -/
example : classifyPath (['/', 'm', '/'] ++ manifestDash ++ ['3'] ++ dotJson) = .manifestSnapshot ∧
    classifyPath (['/', 'm', '/'] ++ changesName ++ ['/', '1'] ++ changeMark ++ ['2'] ++ dotJson) =
      .changeFile ∧
    meshRootForPath (['/', 'm', '/'] ++ changesName ++ ['/', '1'] ++ changeMark ++ ['2'] ++ dotJson) =
      some ['/', 'm'] := by decide

end Interocitor.Worker
