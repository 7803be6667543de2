import Interocitor.Core.Hlc
import Interocitor.Core.Types
import Interocitor.Foundation.Interaction

/-!
# The mailbox: objects, paths, requests and failures

A mesh lives in a folder of an object store (`paths()` in `internals.ts`): a pointer
that names the current manifest, the manifests, snapshots under `mainline/`, change
files under `changes/`, and one record per device.  An engine reaches it through a
`StorageAdapter`, whose requests are the questions of `Foundation.Interaction`; the
wall clock and the source of random identifiers are questions too, since the engine
does not control their answers either.

Objects are JSON text.  `Content` is what parsing an object yields: one of the shapes
that the engine writes, a JSON `null`, one of the other values that a condition takes
for false (`false`, `0`, an empty text), or text that does not parse or decrypt.
Digests are symbolic: `Digest.of` is injective, which is what the engine relies on
`SHA-256` for.
-/

namespace Interocitor

open CodeUnits OrderedRecord

/-! ## Paths -/

/-- The name of a file directly under the mesh root: `manifest-<generation>.json`, or
another name. -/
inductive RootFile where
  | manifest (generation : ℕ)
  | other (name : Text)
  deriving DecidableEq

/-- The objects of a mesh, by their place in the layout of `paths()`. -/
inductive ObjectPath where
  | manifestPointer
  | rootFile (file : RootFile)
  | deviceFile (deviceId : Text)
  | snapshot (epoch : ℕ) (serverId : Text)
  | change (name : Text)
  | evicted
  deriving DecidableEq

/-- `"head.json"`. -/
def headName : Text := [104, 101, 97, 100, 46, 106, 115, 111, 110]

/-- `p.changesHead`. -/
def changesHead : ObjectPath := .change headName

/-- The folders that `connect()` ensures. -/
inductive Folder where
  | root
  | devices
  | mainline
  | changes
  deriving DecidableEq

/-! ## Objects -/

/-- `RetentionPolicyInput`, in milliseconds. -/
structure RetentionPolicyInput where
  compactAfterMs : Option ℤ
  maxOfflineDurationMs : Option ℤ
  deriving DecidableEq

/-- `RetentionPolicy`. -/
structure RetentionPolicy where
  compactAfterMs : ℤ
  maxOfflineDurationMs : ℤ
  deriving DecidableEq

/-- `ServerConfig`, without the `relayUrl` that is always `null`. -/
structure ServerConfig where
  managed : Bool
  serverId : Text
  deriving DecidableEq

/-- What a manifest says, apart from its own hash; `deltaPath` is always `null`. -/
structure ManifestPayload where
  generation : ℕ
  parentGeneration : ℕ
  writtenBy : Text
  writtenAt : ℕ
  version : ℕ
  meshId : Text
  schema : ℕ
  encrypted : Bool
  server : ServerConfig
  createdAt : ℕ
  epoch : ℕ
  watermarkHlc : Text
  snapshotPath : Option ObjectPath
  retention : Option RetentionPolicyInput
  lineage : Option ℤ
  deriving DecidableEq

/-- A content hash: of a payload, or some other text. -/
inductive Digest where
  | of (payload : ManifestPayload)
  | other (text : Text)
  deriving DecidableEq

/-- `Manifest`. -/
structure Manifest extends ManifestPayload where
  contentHash : Digest
  deriving DecidableEq

/-- `ManifestPointer`. -/
structure ManifestPointer where
  currentGeneration : ℕ
  file : RootFile
  deriving DecidableEq

/-- `Snapshot`. -/
structure Snapshot where
  snapshotId : Text
  timestamp : ℕ
  hlc : Text
  epoch : ℕ
  schemaVersion : ℕ
  coveredChangeFiles : Option (List Text)
  tables : Tables

/-- `DeviceMetadata`. -/
structure DeviceMetadata where
  deviceId : Text
  registeredAt : ℕ
  lastSeenAt : ℕ
  userId : Option Text
  name : Option Text
  displayName : Option Text
  deviceType : Option Text
  retired : Option Bool
  observedManifestGeneration : Option ℕ
  observedEpoch : Option ℕ
  observedWatermarkHlc : Option Text
  observedAt : Option ℕ
  cutOffAt : Option ℕ
  cutOffReason : Option Text
  deriving DecidableEq

/-- What parsing an object yields. -/
inductive Content where
  | pointer (p : ManifestPointer)
  | manifest (m : Manifest)
  | device (d : DeviceMetadata)
  | head (latestHlc : Option Text)
  | change (meshId : Text) (entry : ChangeEntry)
  | snapshot (meshId : Text) (s : Snapshot)
  | null
  | falsy
  | malformed

/-! ## Failures -/

/-- `RemoteAccessKind`. -/
inductive RemoteAccessKind where
  | unauthenticated
  | forbidden
  | notFound
  | rateLimited
  | policyUnavailable
  deriving DecidableEq

/-- `RemoteAccessError.denied`. -/
def RemoteAccessKind.denied : RemoteAccessKind → Bool
  | unauthenticated => true
  | forbidden => true
  | notFound => true
  | rateLimited => false
  | policyUnavailable => false

/-- How a request fails: an access decision, a missing object, or anything else. -/
inductive RemoteError where
  | access (kind : RemoteAccessKind)
  | missing
  | network
  deriving DecidableEq

/-- A request that got no answer at all is `stalled`. -/
inductive NoAnswer where
  | failed (e : RemoteError)
  | stalled
  deriving DecidableEq

/-! ## Requests -/

/-- What an engine asks the outside world. -/
inductive Call where
  | now
  | uuid
  | isAuthenticated
  | authenticate
  | readFile (path : ObjectPath)
  | writeFile (path : ObjectPath) (content : Content)
  | deleteFile (path : ObjectPath)
  | listChanges
  | listMainline
  | ensureFolder (folder : Folder)

/-- The answers.  A listing is the names of the files in the folder. -/
@[reducible] def Reply : Call → Type
  | .now => ℕ
  | .uuid => Text
  | .isAuthenticated => Bool
  | .authenticate => Except NoAnswer Unit
  | .readFile _ => Except NoAnswer Content
  | .writeFile _ _ => Except NoAnswer Unit
  | .deleteFile _ => Except NoAnswer Unit
  | .listChanges => Except NoAnswer (List Text)
  | .listMainline => Except NoAnswer (List ObjectPath)
  | .ensureFolder _ => Except NoAnswer Unit

/-! ## The objects of an honest store -/

/-- The objects of a store, in the order of their first write. -/
abbrev Objects := Record ObjectPath Content

/-- The name of a file in `changes/`. -/
def ObjectPath.changeName : ObjectPath → Option Text
  | change name => some name
  | _ => none

/-- The names in `changes/`. -/
def changeNames (objects : Objects) : List Text := objects.keys.filterMap ObjectPath.changeName

/-- The path lies in `mainline/`. -/
def ObjectPath.isSnapshot : ObjectPath → Bool
  | snapshot _ _ => true
  | _ => false

theorem mem_changeNames {objects : Objects} {name : Text} :
    name ∈ changeNames objects ↔ ∃ c, objects.get (.change name) = some c := by
  rw [changeNames, List.mem_filterMap]
  constructor
  · rintro ⟨path, hpath, hname⟩
    cases path with
    | change n =>
      obtain rfl : n = name := Option.some.inj hname
      exact Record.mem_keys_iff.mp hpath
    | _ => exact absurd hname (by simp [ObjectPath.changeName])
  · intro h
    exact ⟨.change name, Record.mem_keys_iff.mpr h, rfl⟩

end Interocitor
