import Interocitor.Files.Objects
import Interocitor.Foundation.Refinement

/-!
# The file methods answer as the vault does

Whatever the devices of a mesh ask of one remote, in whatever order, they are answered as the vault
answers; on an encrypted mesh and on another one.  Each request is followed through the method that
makes it: the path is found, the guard is looked at, the object is written, read or deleted, and
what the method returns is what the vault says.

* `openFile_holds`, `openWith_eq`: a file is opened, with its key, with another one or without.
* `step_put`, `step_delete`, `step_read`, `step_get`, `step_metadata`: one request.
* `files_are_a_vault`: all of them.
-/

namespace Interocitor

open CodeUnits OrderedRecord List

namespace Files

open Envelopes (sealedInput open_framed isFormat_sealedInput tagLength)
open StoredFrames (HeaderValue version headerText jsDigits taintName)
open JsonText (quote)
open Handshake (property)

variable {crypto : FileCrypto} {mesh : FilesMesh} {P : Set Text} {K : Set Key}
  {m m' : MemoryAdapter} {v : Vault}

/-! ## One request -/

variable {f : VaultFile} {deviceId : Text}

/-- **A file is opened**: it is described as it is, and its body can be unsealed. -/
theorem openFile_holds (hsound : Sound crypto mesh P K) {path clean : Text}
    (hpath : storedFilePath crypto (mesh.engine deviceId) path = .ok (objectPath crypto mesh clean))
    (hat : Holds crypto mesh K clean f (m.view (objectPath crypto mesh clean))) (now : Text)
    (expectedDigest : Option Text) :
    ∃ m' file nonces,
      openFile crypto (mesh.engine deviceId) now m path expectedDigest = (m', .ok file) ∧
      Holds crypto mesh K clean f (m'.view (objectPath crypto mesh clean)) ∧
      (∀ q, q ≠ objectPath crypto mesh clean → m'.view q = m.view q) ∧
      file.described.about = f.about crypto ∧
      file.taint = optionalText (f.fileSeal.map FileSeal.taint) ∧
      file.body = bodyOf crypto f nonces ∧ file.expectedDigest = expectedDigest ∧
      SealedFrom crypto K f nonces := by
  obtain ⟨nonces, written, hfile, hsealed⟩ := hat.stored
  obtain ⟨m', hget, hfile', hguard', hmetadata', hother⟩ :=
    MemoryAdapter.getStoredFile_view hfile now
  have hdecode := decodeStoredFile_storedOf crypto hsound.decrypts mesh deviceId hat.fits nonces
  have hholds : Holds crypto mesh K clean f (m'.view (objectPath crypto mesh clean)) :=
    { fits := hat.fits
      keys := hat.keys
      stored := ⟨nonces, written, hfile'.trans hfile, hsealed⟩
      described := hmetadata' hat.described
      guard := hguard'.trans hat.guard }
  have hopen : openFile crypto (mesh.engine deviceId) now m path expectedDigest =
      (m', .ok
        { described := describeStoredFile
            ((m.getStoredFileMetadata (objectPath crypto mesh clean)).getD
              (fallbackMetadata now (objectPath crypto mesh clean)
                (storedOf crypto mesh.meshKey f nonces)))
            (headerValue (headerOf crypto f))
          taint := property taintName (headerValue (headerOf crypto f))
          body := bodyOf crypto f nonces
          expectedDigest := expectedDigest }) := by
    unfold openFile
    rw [hpath]
    dsimp only
    rw [hget]
    dsimp only
    rw [hdecode]
    rfl
  exact ⟨m', _, nonces, hopen, hholds, hother, about_described crypto _ f,
    taint_headerValue crypto f, rfl, rfl, hsealed⟩

theorem openFile_absent {path clean : Text}
    (hpath : storedFilePath crypto (mesh.engine deviceId) path = .ok (objectPath crypto mesh clean))
    (hat : m.view (objectPath crypto mesh clean) = ⟨none, none, none⟩) (now : Text)
    (expectedDigest : Option Text) :
    openFile crypto (mesh.engine deviceId) now m path expectedDigest =
      (m, .error (.notFound (objectPath crypto mesh clean))) := by
  have hfile : m.files.get (objectPath crypto mesh clean) = none :=
    congrArg MemoryAdapter.View.file hat
  unfold openFile
  rw [hpath]
  dsimp only
  rw [MemoryAdapter.getStoredFile, hfile]

/-- The end of `open`, where the bytes are checked against the digest. -/
theorem verify_eq (f : VaultFile) (expectedDigest : Option Text) :
    Except.mapError refusal (Except.map Reply.bytes
      (match expectedDigest.filter fun t => !t.isEmpty with
      | none => .ok f.data
      | some expected =>
        if crypto.sha256Hex f.data = expected then .ok f.data
        else .error (.integrity expected (crypto.sha256Hex f.data)))) =
      f.verified crypto expectedDigest := by
  rw [VaultFile.verified]
  cases expectedDigest.filter fun t => !t.isEmpty with
  | none => rfl
  | some expected =>
    dsimp only
    split_ifs
    · rfl
    · rfl

theorem truthy_taint (h : ∀ s ∈ f.fileSeal, isBlank s.taint = false) :
    truthy (optionalText (f.fileSeal.map FileSeal.taint)) = f.fileSeal.isSome := by
  cases hseal : f.fileSeal with
  | none => rfl
  | some s =>
    have hblank := h s hseal
    cases htaint : s.taint with
    | nil =>
      rw [htaint] at hblank
      exact absurd hblank (by decide)
    | cons u t =>
      rw [Option.map_some, htaint]
      rfl

variable {e : FileError}

theorem refusal_of_decryptBytes {key : Key} {bytes : Bytes}
    (h : decryptBytes crypto key bytes = .error e) : refusal e = .unreadable := by
  unfold decryptBytes at h
  cases hopen : Envelopes.openBytes crypto.lib .typescript key bytes with
  | ok plaintext =>
    rw [hopen] at h
    cases h
  | error e' =>
    rw [hopen] at h
    obtain rfl := Except.error.inj h
    rfl

/-- **Opening with a key**, at the remote and in the vault. -/
theorem openWith_eq (hsound : Sound crypto mesh P K) {file : SealedFile} {nonces : Nonces}
    {expectedDigest : Option Text} (hkeys : ∀ s ∈ f.fileSeal, isBlank s.taint = false ∧ s.key ∈ K)
    (htaint : file.taint = optionalText (f.fileSeal.map FileSeal.taint))
    (hbody : file.body = bodyOf crypto f nonces) (hdigest : file.expectedDigest = expectedDigest)
    (hsealed : SealedFrom crypto K f nonces) {key : Option Key} (hkey : ∀ k ∈ key, k ∈ K) :
    Except.mapError refusal (Except.map Reply.bytes (file.openWith crypto key)) =
      f.read crypto expectedDigest key := by
  have htruthy : truthy file.taint = f.fileSeal.isSome := by
    rw [htaint]
    exact truthy_taint fun s hs => (hkeys s hs).1
  unfold SealedFile.openWith
  rw [htruthy, hbody, hdigest]
  unfold bodyOf VaultFile.read
  cases hseal : f.fileSeal with
  | none => exact verify_eq f expectedDigest
  | some s =>
    cases key with
    | none => rfl
    | some k =>
      dsimp only [Option.isSome_some]
      by_cases hsame : k = s.key
      · rw [if_pos hsame, hsame, decryptBytes_sealedBytes crypto hsound.decrypts]
        exact verify_eq f expectedDigest
      · obtain ⟨e, he⟩ := hsealed s hseal k (hkey k rfl) hsame
        rw [if_neg hsame, he, ← refusal_of_decryptBytes he]
        rfl

/-- The key of a request. -/
def FileRequest.key : FileRequest → Option Key
  | .put _ _ _ fileSeal => fileSeal.map FileSeal.key
  | .get _ _ => none
  | .read _ _ key => key
  | .delete _ key => key
  | .metadata _ => none

/-- The file of a request. -/
def FileRequest.file : FileRequest → Option VaultFile
  | .put _ data contentType fileSeal => some ⟨data, contentType, fileSeal⟩
  | _ => none

/-- **A call within a run.**  Its path and its key are among those of the run, and what it puts has
room in a frame and is sealed from the other keys. -/
structure Call.Within (crypto : FileCrypto) (P : Set Text) (K : Set Key) (c : Call) : Prop where
  path : ∀ clean, cleanFilePath c.request.path = .ok clean → clean ∈ P
  key : ∀ k ∈ c.request.key, k ∈ K
  file : ∀ f ∈ c.request.file, Fits crypto f ∧ SealedFrom crypto K f c.nonces

/-- What there is to show of a request. -/
def Agrees (crypto : FileCrypto) (mesh : FilesMesh) (P : Set Text) (K : Set Key)
    (r : MemoryAdapter × Except FileError Reply) (r' : Vault × Except Refusal Reply) : Prop :=
  Represents crypto mesh P K r.1 r'.1 ∧ r.2.mapError refusal = r'.2

theorem putFile_untainted {fileSeal : Option FileSeal}
    (h : (fileSeal.any fun s => isBlank s.taint) = true) (engine : FilesEngine) (now : Text)
    (m : MemoryAdapter) (path : Text) (data : Bytes) (contentType : Option Text) (nonces : Nonces) :
    putFile crypto engine now m path data contentType fileSeal nonces = .error .emptyTaint := by
  unfold putFile
  rw [if_pos h]
  rfl

/-- **A file is put**: the adapter stores it, under the guard of its seal. -/
theorem putFile_eq {path clean : Text} (now : Text)
    (hpath : storedFilePath crypto (mesh.engine deviceId) path = .ok (objectPath crypto mesh clean))
    (htaint : (f.fileSeal.any fun s => isBlank s.taint) = false) (nonces : Nonces) :
    putFile crypto (mesh.engine deviceId) now m path f.data f.contentType f.fileSeal nonces =
      (m.putStoredFile now (objectPath crypto mesh clean) (storedOf crypto mesh.meshKey f nonces)
        deviceId ((f.fileSeal.map FileSeal.key).map fun k =>
          fileGuard crypto k (objectPath crypto mesh clean))).map fun r =>
        (r.1, describeStoredFile r.2 (headerValue (headerOf crypto f))) := by
  unfold putFile
  rw [if_neg (Bool.eq_false_iff.mp htaint)]
  dsimp only [bind, Except.bind]
  rw [hpath]
  dsimp only
  rw [encodeStoredFile_eq]
  dsimp only
  have hdevice : (mesh.engine deviceId).deviceId = deviceId := rfl
  have hguards : ((fun k => fileGuard crypto k (objectPath crypto mesh clean)) ∘ FileSeal.key) =
      fun s : FileSeal => fileGuard crypto s.key (objectPath crypto mesh clean) := rfl
  rw [Option.map_map, hguards, hdevice]
  cases m.putStoredFile now (objectPath crypto mesh clean) (storedOf crypto mesh.meshKey f nonces)
    deviceId (f.fileSeal.map fun s => fileGuard crypto s.key (objectPath crypto mesh clean)) with
  | error e => rfl
  | ok r => rfl

theorem openFile_error {path : Text}
    (hpath : storedFilePath crypto (mesh.engine deviceId) path = .error e) (now : Text)
    (expectedDigest : Option Text) :
    openFile crypto (mesh.engine deviceId) now m path expectedDigest = (m, .error e) := by
  unfold openFile
  rw [hpath]

/-- **A bad path** fails every method. -/
theorem perform_error {c : Call}
    (hpath : storedFilePath crypto (mesh.engine c.deviceId) c.request.path = .error e)
    (htaint : c.request.isUntainted = false) : perform crypto mesh m c = (m, .error e) := by
  rw [perform]
  cases hrequest : c.request with
  | put path data contentType fileSeal =>
    rw [hrequest] at hpath htaint
    dsimp only [FileRequest.path] at hpath
    have hblank : ¬(fileSeal.any fun s => isBlank s.taint) = true := Bool.eq_false_iff.mp htaint
    have hput : putFile crypto (mesh.engine c.deviceId) c.now m path data contentType fileSeal
        c.nonces = .error e := by
      unfold putFile
      rw [if_neg hblank]
      dsimp only [bind, Except.bind]
      rw [hpath]
    dsimp only
    rw [hput]
  | get path expectedDigest =>
    rw [hrequest] at hpath
    dsimp only [FileRequest.path] at hpath ⊢
    unfold getFile
    rw [openFile_error hpath]
    rfl
  | read path expectedDigest key =>
    rw [hrequest] at hpath
    dsimp only [FileRequest.path] at hpath ⊢
    rw [openFile_error hpath]
    rfl
  | delete path key =>
    rw [hrequest] at hpath
    dsimp only [FileRequest.path] at hpath
    have hdelete : deleteFile crypto (mesh.engine c.deviceId) m path key = .error e := by
      rw [deleteFile, hpath]
      rfl
    dsimp only
    rw [hdelete]
  | metadata path =>
    rw [hrequest] at hpath
    dsimp only [FileRequest.path] at hpath
    dsimp only
    rw [getFileMetadata, hpath]
    rfl

section OneRequest

variable (hsound : Sound crypto mesh P K) (h : Represents crypto mesh P K m v) {c : Call}
  (hc : c.Within crypto P K) {clean : Text}
  (hclean : cleanFilePath c.request.path = .ok clean)
  (hpath : storedFilePath crypto (mesh.engine c.deviceId) c.request.path =
    .ok (objectPath crypto mesh clean))
include hsound h hc hclean hpath

variable {path : Text}

theorem step_put {data : Bytes} {contentType : Option Text} {fileSeal : Option FileSeal}
    (hrequest : c.request = .put path data contentType fileSeal)
    (htaint : c.request.isUntainted = false) :
    Agrees crypto mesh P K (perform crypto mesh m c) (v.handle crypto clean c.request) := by
  have hmem := hc.path clean hclean
  obtain ⟨hfits, hsealed⟩ := hc.file ⟨data, contentType, fileSeal⟩ (by rw [hrequest]; rfl)
  have hkey : ∀ k ∈ fileSeal.map FileSeal.key, k ∈ K := by
    have hkey := hc.key
    rwa [hrequest] at hkey
  rw [hrequest] at hpath htaint ⊢
  dsimp only [FileRequest.path] at hpath
  have hguard := requireSealGuard_eq hsound hmem (h clean hmem) hkey
  have hput := putFile_eq (m := m) c.now hpath (f := ⟨data, contentType, fileSeal⟩) htaint c.nonces
  dsimp only at hput
  by_cases hyields : ∀ f ∈ v clean, f.Yields (fileSeal.map FileSeal.key)
  · rw [if_pos hyields] at hguard
    obtain ⟨m', metadata, hstored, hview, hother⟩ :=
      MemoryAdapter.putStoredFile_view hguard c.now
        (storedOf crypto mesh.meshKey ⟨data, contentType, fileSeal⟩ c.nonces) c.deviceId
    have hfilter : ((fileSeal.map FileSeal.key).map fun k =>
        fileGuard crypto k (objectPath crypto mesh clean)).filter (fun g => !g.isEmpty) =
          fileSeal.map fun s => fileGuard crypto s.key (objectPath crypto mesh clean) := by
      rw [Option.map_map]
      cases fileSeal with
      | none => rfl
      | some s =>
        have hnonempty : (fileGuard crypto s.key (objectPath crypto mesh clean)).isEmpty = false :=
          isEmpty_eq_false_iff.mpr (hsound.hex _ _)
        exact Option.filter_some_pos (by dsimp only [Function.comp]; rw [hnonempty]; rfl)
    have hperform : perform crypto mesh m c = (m', .ok (.described (describeStoredFile metadata
        (headerValue (headerOf crypto ⟨data, contentType, fileSeal⟩))).about)) := by
      rw [perform, hrequest]
      dsimp only
      rw [hput, hstored]
      rfl
    have hhandle : v.handle crypto clean (.put path data contentType fileSeal) =
        (Function.update v clean (some ⟨data, contentType, fileSeal⟩),
          .ok (.described (VaultFile.about crypto ⟨data, contentType, fileSeal⟩))) :=
      if_pos hyields
    rw [hperform, hhandle, about_described]
    refine ⟨h.update hsound hmem ?_ hother, rfl⟩
    rw [hview]
    exact
      { fits := hfits
        keys := fun s hs => by
          obtain rfl : fileSeal = some s := hs
          exact ⟨htaint, hkey s.key rfl⟩
        stored := ⟨c.nonces, c.now, rfl, hsealed⟩
        described := rfl
        guard := hfilter }
  · rw [if_neg hyields] at hguard
    have hstored : ∀ stored deviceId, m.putStoredFile c.now (objectPath crypto mesh clean) stored
        deviceId ((fileSeal.map FileSeal.key).map fun k =>
          fileGuard crypto k (objectPath crypto mesh clean)) =
            .error (.sealed (objectPath crypto mesh clean)) := by
      intro stored deviceId
      rw [MemoryAdapter.putStoredFile, hguard]
      rfl
    have hperform : perform crypto mesh m c =
        (m, .error (.sealed (objectPath crypto mesh clean))) := by
      rw [perform, hrequest]
      dsimp only
      rw [hput, hstored]
      rfl
    have hhandle : v.handle crypto clean (.put path data contentType fileSeal) =
        (v, .error .guarded) := if_neg hyields
    rw [hperform, hhandle]
    exact ⟨h, rfl⟩

theorem step_delete {key : Option Key} (hrequest : c.request = .delete path key) :
    Agrees crypto mesh P K (perform crypto mesh m c) (v.handle crypto clean c.request) := by
  have hmem := hc.path clean hclean
  have hkey : ∀ k ∈ key, k ∈ K := by
    have hkey := hc.key
    rwa [hrequest] at hkey
  rw [hrequest] at hpath ⊢
  dsimp only [FileRequest.path] at hpath
  have hguard := requireSealGuard_eq hsound hmem (h clean hmem) hkey
  have hdelete : deleteFile crypto (mesh.engine c.deviceId) m path key =
      m.deleteStoredFile (objectPath crypto mesh clean) (key.map fun k =>
        fileGuard crypto k (objectPath crypto mesh clean)) := by
    rw [deleteFile, hpath]
    rfl
  by_cases hyields : ∀ f ∈ v clean, f.Yields key
  · rw [if_pos hyields] at hguard
    obtain ⟨m', hdeleted, hview, hother⟩ := MemoryAdapter.deleteStoredFile_view hguard
    have hperform : perform crypto mesh m c = (m', .ok .done) := by
      rw [perform, hrequest]
      dsimp only
      rw [hdelete, hdeleted]
    have hhandle : v.handle crypto clean (.delete path key) =
        (Function.update v clean none, .ok .done) := if_pos hyields
    rw [hperform, hhandle]
    exact ⟨h.update hsound hmem hview hother, rfl⟩
  · rw [if_neg hyields] at hguard
    have hdeleted : m.deleteStoredFile (objectPath crypto mesh clean) (key.map fun k =>
        fileGuard crypto k (objectPath crypto mesh clean)) =
          .error (.sealed (objectPath crypto mesh clean)) := by
      rw [MemoryAdapter.deleteStoredFile, hguard]
      rfl
    have hperform : perform crypto mesh m c =
        (m, .error (.sealed (objectPath crypto mesh clean))) := by
      rw [perform, hrequest]
      dsimp only
      rw [hdelete, hdeleted]
    have hhandle : v.handle crypto clean (.delete path key) = (v, .error .guarded) :=
      if_neg hyields
    rw [hperform, hhandle]
    exact ⟨h, rfl⟩

theorem step_read {expectedDigest : Option Text} {key : Option Key}
    (hrequest : c.request = .read path expectedDigest key) :
    Agrees crypto mesh P K (perform crypto mesh m c) (v.handle crypto clean c.request) := by
  have hmem := hc.path clean hclean
  have hkey : ∀ k ∈ key, k ∈ K := by
    have hkey := hc.key
    rwa [hrequest] at hkey
  have hat := h clean hmem
  rw [hrequest] at hpath ⊢
  dsimp only [FileRequest.path] at hpath
  have hperform : perform crypto mesh m c =
      ((openFile crypto (mesh.engine c.deviceId) c.now m path expectedDigest).1,
        (openFile crypto (mesh.engine c.deviceId) c.now m path expectedDigest).2.bind fun file =>
          (file.openWith crypto key).map .bytes) := by
    rw [perform, hrequest]
  have hhandle : v.handle crypto clean (.read path expectedDigest key) =
      (v, (v clean).elim (.error .notFound) fun f => f.read crypto expectedDigest key) := rfl
  rw [hperform, hhandle]
  cases hv : v clean with
  | none =>
    rw [hv] at hat
    rw [openFile_absent hpath hat]
    exact ⟨h, rfl⟩
  | some f =>
    rw [hv] at hat
    obtain ⟨m', file, nonces, hopen, hholds, hother, -, htaint, hbody, hdigest, hsealed⟩ :=
      openFile_holds hsound hpath hat c.now expectedDigest
    have hrepresents : Represents crypto mesh P K m' v :=
      h.read hsound hmem (by rw [hv]; exact hholds) hother
    rw [hopen]
    exact ⟨hrepresents, openWith_eq hsound hat.keys htaint hbody hdigest hsealed hkey⟩

theorem step_get {expectedDigest : Option Text} (hrequest : c.request = .get path expectedDigest) :
    Agrees crypto mesh P K (perform crypto mesh m c) (v.handle crypto clean c.request) := by
  have hmem := hc.path clean hclean
  have hat := h clean hmem
  rw [hrequest] at hpath ⊢
  dsimp only [FileRequest.path] at hpath
  have hperform : perform crypto mesh m c =
      ((getFile crypto (mesh.engine c.deviceId) c.now m path expectedDigest).1,
        (getFile crypto (mesh.engine c.deviceId) c.now m path expectedDigest).2.map .bytes) := by
    rw [perform, hrequest]
  have hhandle : v.handle crypto clean (.get path expectedDigest) =
      (v, (v clean).elim (.error .notFound) fun f => f.get crypto expectedDigest) := rfl
  rw [hperform, hhandle]
  unfold getFile
  cases hv : v clean with
  | none =>
    rw [hv] at hat
    rw [openFile_absent hpath hat]
    exact ⟨h, rfl⟩
  | some f =>
    rw [hv] at hat
    obtain ⟨m', file, nonces, hopen, hholds, hother, -, htaint, hbody, hdigest, hsealed⟩ :=
      openFile_holds hsound hpath hat c.now expectedDigest
    have htruthy : truthy file.taint = f.fileSeal.isSome := by
      rw [htaint]
      exact truthy_taint fun s hs => (hat.keys s hs).1
    have hopenWith : Except.mapError refusal ((file.openWith crypto none).map Reply.bytes) =
        f.read crypto expectedDigest none :=
      openWith_eq hsound hat.keys htaint hbody hdigest hsealed (fun _ hk => absurd hk (by simp))
    have hrepresents : Represents crypto mesh P K m' v :=
      h.read hsound hmem (by rw [hv]; exact hholds) hother
    rw [hopen]
    refine ⟨hrepresents, ?_⟩
    show Except.mapError refusal (Except.map Reply.bytes
      (if truthy file.taint = true then .error .tainted else file.openWith crypto none)) =
        f.get crypto expectedDigest
    rw [htruthy, VaultFile.get]
    cases hseal : f.fileSeal with
    | none =>
      unfold VaultFile.read at hopenWith
      rw [hseal] at hopenWith
      exact hopenWith
    | some s => rfl

theorem step_metadata (hrequest : c.request = .metadata path) :
    Agrees crypto mesh P K (perform crypto mesh m c) (v.handle crypto clean c.request) := by
  have hmem := hc.path clean hclean
  have hat := h clean hmem
  rw [hrequest] at hpath ⊢
  dsimp only [FileRequest.path] at hpath
  have hperform : perform crypto mesh m c =
      ((getFileMetadata crypto (mesh.engine c.deviceId) c.now m path).1,
        (getFileMetadata crypto (mesh.engine c.deviceId) c.now m path).2.map metadataReply) := by
    rw [perform, hrequest]
  have hhandle : v.handle crypto clean (.metadata path) =
      (v, (v clean).elim (.ok .absent) fun f => .ok (.described (f.about crypto))) := rfl
  rw [hperform, hhandle, getFileMetadata, hpath]
  dsimp only
  cases hv : v clean with
  | none =>
    rw [hv] at hat
    have hmetadata : m.getStoredFileMetadata (objectPath crypto mesh clean) = none := by
      have hdescribed : m.storedFileMetadata.get (objectPath crypto mesh clean) = none :=
        congrArg MemoryAdapter.View.metadata hat
      have hfile : m.files.get (objectPath crypto mesh clean) = none :=
        congrArg MemoryAdapter.View.file hat
      rw [MemoryAdapter.getStoredFileMetadata, hdescribed, hfile]
      rfl
    rw [hmetadata]
    exact ⟨h, rfl⟩
  | some f =>
    rw [hv] at hat
    obtain ⟨metadata, hdescribed⟩ := Option.isSome_iff_exists.mp hat.described
    have hmetadata : m.getStoredFileMetadata (objectPath crypto mesh clean) = some metadata := by
      have hget : m.storedFileMetadata.get (objectPath crypto mesh clean) = some metadata :=
        hdescribed
      rw [MemoryAdapter.getStoredFileMetadata, hget]
    obtain ⟨m', file, nonces, hopen, hholds, hother, habout, -⟩ :=
      openFile_holds hsound hpath hat c.now none
    have hrepresents : Represents crypto mesh P K m' v :=
      h.read hsound hmem (by rw [hv]; exact hholds) hother
    rw [hmetadata]
    dsimp only
    rw [hopen]
    refine ⟨hrepresents, ?_⟩
    show Except.ok (Reply.described file.described.about) = .ok (.described (f.about crypto))
    rw [habout]

end OneRequest

/-- **One request**, at the remote and in the vault. -/
theorem simulates (hsound : Sound crypto mesh P K) :
    AnsweringMachines.Simulates (perform crypto mesh) (vaultStep crypto mesh.remotePath)
      (Represents crypto mesh P K) Call.request (Except.mapError refusal)
      (Call.Within crypto P K) := by
  intro m v c hc h
  show Agrees crypto mesh P K (perform crypto mesh m c)
    (vaultStep crypto mesh.remotePath v c.request)
  rw [vaultStep]
  by_cases huntainted : c.request.isUntainted = true
  · rw [if_pos huntainted]
    cases hrequest : c.request with
    | put path data contentType fileSeal =>
      rw [hrequest] at huntainted
      rw [perform, hrequest]
      dsimp only
      rw [putFile_untainted huntainted]
      exact ⟨h, rfl⟩
    | get path expectedDigest =>
      rw [hrequest] at huntainted
      cases huntainted
    | read path expectedDigest key =>
      rw [hrequest] at huntainted
      cases huntainted
    | delete path key =>
      rw [hrequest] at huntainted
      cases huntainted
    | metadata path =>
      rw [hrequest] at huntainted
      cases huntainted
  · rw [if_neg huntainted]
    have htaint := Bool.eq_false_iff.mpr huntainted
    rcases locate_cases crypto mesh c.deviceId c.request.path with
      ⟨e, hpath, hlocate⟩ | ⟨clean, hclean, hlocate, hpath⟩
    · rw [hlocate, perform_error hpath htaint]
      exact ⟨h, rfl⟩
    · rw [hlocate]
      dsimp only
      cases hrequest : c.request with
      | put path data contentType fileSeal =>
        rw [← hrequest]
        exact step_put hsound h hc hclean hpath hrequest htaint
      | get path expectedDigest =>
        rw [← hrequest]
        exact step_get hsound h hc hclean hpath hrequest
      | read path expectedDigest key =>
        rw [← hrequest]
        exact step_read hsound h hc hclean hpath hrequest
      | delete path key =>
        rw [← hrequest]
        exact step_delete hsound h hc hclean hpath hrequest
      | metadata path =>
        rw [← hrequest]
        exact step_metadata hsound h hc hclean hpath hrequest

/-- The remote before anything is stored. -/
def MemoryAdapter.empty : MemoryAdapter := ⟨∅, ∅, ∅⟩

/-- **Durable files are a vault.**  Whatever the devices of a mesh put, get, open, delete and ask
about, at one remote and in whatever order, they are answered as the vault answers: what was put
last at a path is what is read from it, byte by byte and by every device; a file that is sealed is
read, replaced and deleted with its key and not without. -/
theorem files_are_a_vault (mesh : FilesMesh) (P : Set Text) (K : Set Key)
    (hsound : Sound crypto mesh P K) (calls : List Call)
    (hcalls : ∀ c ∈ calls, c.Within crypto P K) :
    (AnsweringMachines.answers (perform crypto mesh) MemoryAdapter.empty calls).map
        (Except.mapError refusal) =
      AnsweringMachines.answers (vaultStep crypto mesh.remotePath) (fun _ => none)
        (calls.map Call.request) := by
  have hempty : Represents crypto mesh P K MemoryAdapter.empty fun _ => none := fun _ _ => rfl
  exact (simulates hsound).answers_eq hempty hcalls

/-! ### Two devices and a sealed file -/

/-- Sixteen bytes of a key. -/
def tagOf (key : Bytes) : Bytes := (key ++ List.replicate 16 0).take 16

theorem length_tagOf (key : Bytes) : (tagOf key).length = 16 := by
  rw [tagOf, length_take, length_append, length_replicate]
  omega

/-- Platforms with codecs that only store, and a cipher whose tag names the key. -/
def tagging : Envelopes.Runtimes :=
  { Envelopes.storing [] with
    encrypt := fun key _ _ p => p ++ tagOf key
    decrypt := fun key _ _ c =>
      if c.drop (c.length - 16) = tagOf key then some (c.take (c.length - 16)) else none
    length_encrypt := fun key _ _ p => by rw [length_append, length_tagOf] }

/-- Hashes that are as long as what is hashed. -/
def spelledOut : FileCrypto where
  lib := tagging
  sha256Hex _ := [97]
  deriveHmacKey secret info := secret ++ info
  hmacHex key text := 49 :: key.map (fun b => Fin.ofNat 65536 b.toNat) ++ text

theorem decrypts_spelledOut : Decrypts spelledOut := by
  intro key iv additional p
  have hlength : (p ++ tagOf key).length - 16 = p.length := by
    rw [length_append, length_tagOf, Nat.add_sub_cancel]
  show (if (p ++ tagOf key).drop ((p ++ tagOf key).length - 16) = tagOf key then
    some ((p ++ tagOf key).take ((p ++ tagOf key).length - 16)) else none) = some p
  rw [hlength, drop_left' rfl, if_pos rfl, take_left' rfl]

theorem error_of_tagOf_ne {k k' : Key} (h : tagOf k ≠ tagOf k') (iv : Envelopes.Iv) (data : Bytes) :
    ∃ e, decryptBytes spelledOut k (sealedBytes spelledOut k' iv data) = .error e := by
  have htag : tagLength ≤ (spelledOut.lib.encrypt k' iv
      [(sealedInput spelledOut.lib .typescript data).1]
      (sealedInput spelledOut.lib .typescript data).2).length := by
    rw [spelledOut.lib.length_encrypt]
    exact Nat.le_add_left 16 _
  have hfails : ∀ additional p, spelledOut.lib.decrypt k iv additional
      (spelledOut.lib.encrypt k' iv additional p) = none := by
    intro additional p
    have hlength : (p ++ tagOf k').length - 16 = p.length := by
      rw [length_append, length_tagOf, Nat.add_sub_cancel]
    show (if (p ++ tagOf k').drop ((p ++ tagOf k').length - 16) = tagOf k then
      some ((p ++ tagOf k').take ((p ++ tagOf k').length - 16)) else none) = none
    rw [hlength, drop_left' rfl, if_neg h.symm]
  refine ⟨.envelope .authentication, ?_⟩
  rw [decryptBytes, sealedBytes, open_framed spelledOut.lib .typescript k
    (isFormat_sealedInput spelledOut.lib .typescript data) iv htag, hfails]
  rfl

theorem hmacHex_spelledOut_inj {key key' : Bytes} {text text' : Text}
    (hlength : key.length = key'.length)
    (h : spelledOut.hmacHex key text = spelledOut.hmacHex key' text') :
    key = key' ∧ text = text' := by
  have hmaps := (List.cons.inj h).2
  have hlengths : (key.map fun b => (Fin.ofNat 65536 b.toNat : CodeUnit)).length =
      (key'.map fun b => (Fin.ofNat 65536 b.toNat : CodeUnit)).length := by
    rw [length_map, length_map, hlength]
  obtain ⟨hkeys, htexts⟩ := append_inj hmaps hlengths
  refine ⟨map_injective_iff.mpr ?_ hkeys, htexts⟩
  intro b b' hb
  have hval : b.toNat % 65536 = b'.toNat % 65536 := congrArg Fin.val hb
  have hlt := b.toNat_lt
  have hlt' := b'.toNat_lt
  exact UInt8.toNat_inj.mp (by omega)

theorem sound_spelledOut (mesh : FilesMesh) (P : Set Text) (K : Set Key) :
    Sound spelledOut mesh P K where
  decrypts := decrypts_spelledOut
  names _ _ _ _ _ _ h := (hmacHex_spelledOut_inj rfl h).2
  guards _ _ k _ k' _ h := by
    have hlength : (k.1 ++ guardInfo).length = (k'.1 ++ guardInfo).length := by
      rw [length_append, length_append, k.2, k'.2]
    exact Subtype.ext (append_cancel_right (hmacHex_spelledOut_inj hlength h).1)
  hex _ _ := cons_ne_nil _ _

/-- A key of 32 equal bytes. -/
def keyOf (b : UInt8) : Key := ⟨List.replicate 32 b, length_replicate⟩

/-- A mesh that is encrypted. -/
def documents : FilesMesh := ⟨[47, 68], some (keyOf 1)⟩

/-- A seal. -/
def payroll : FileSeal := ⟨[112], keyOf 2⟩

theorem length_zeros : (List.replicate 12 (0 : UInt8)).length = 12 := length_replicate

/-- Nonces. -/
def zeros : Nonces :=
  ⟨⟨List.replicate 12 0, length_zeros⟩, ⟨List.replicate 12 0, length_zeros⟩⟩

/-- What a laptop and a phone ask: a file is put, and then it is to be replaced, read and deleted,
with its key, with another one and without one. -/
def twoDevices : List Call :=
  [⟨.put [47, 97, 47, 47, 98] [7, 8, 9] none (some payroll), [76], [48], zeros⟩,
    ⟨.put [97, 47, 98] [] none none, [80], [49], zeros⟩,
    ⟨.read [97, 47, 98, 47] none (some (keyOf 2)), [80], [50], zeros⟩,
    ⟨.read [97, 47, 98] none (some (keyOf 3)), [80], [51], zeros⟩,
    ⟨.get [97, 47, 98] none, [76], [52], zeros⟩,
    ⟨.delete [97, 47, 98] (some (keyOf 3)), [80], [53], zeros⟩,
    ⟨.delete [97, 47, 98] (some (keyOf 2)), [80], [54], zeros⟩,
    ⟨.metadata [97, 47, 98], [76], [55], zeros⟩]

theorem fits_of_small (hsize : f.data.length < 2 ^ 53)
    (hheader : (Utf8Text.encode (headerText quote (numeral 10)
      (version :: (headerOf spelledOut f).members))).length < 2 ^ 32) :
    Fits spelledOut f := by
  refine ⟨hsize, ?_⟩
  have hmember : ∀ p ∈ version :: (headerOf spelledOut f).members,
      StoredFrames.memberText quote jsDigits p =
        StoredFrames.memberText quote (numeral 10) p := by
    intro p hp
    obtain ⟨name, value⟩ := p
    cases value with
    | number n =>
      have hlt := StoredFrames.lt_of_number (h := headerOf spelledOut f) hsize (List.Perm.refl _)
        hp rfl
      simp only [StoredFrames.memberText, StoredFrames.jsDigits_eq hlt]
    | text t => rfl
  have htext : headerText quote jsDigits (version :: (headerOf spelledOut f).members) =
      headerText quote (numeral 10) (version :: (headerOf spelledOut f).members) := by
    rw [headerText, headerText, map_congr_left hmember]
  rw [htext]
  exact hheader

theorem twoDevices_are_answered :
    (AnsweringMachines.answers (perform spelledOut documents) MemoryAdapter.empty twoDevices).map
        (Except.mapError refusal) =
      [.ok (.described ⟨.number (.finite 3), .undefined, .string [112], .string [97]⟩),
        .error .guarded, .ok (.bytes [7, 8, 9]), .error .unreadable, .error .tainted,
        .error .guarded, .ok .done, .ok .absent] := by
  have hkeys : ∀ c ∈ twoDevices, ∀ k ∈ c.request.key, k ∈ ({keyOf 2, keyOf 3} : Set Key) := by
    have hall : ∀ c ∈ twoDevices, ∀ k ∈ c.request.key, k = keyOf 2 ∨ k = keyOf 3 := by decide
    exact fun c hc k hk => hall c hc k hk
  have hfiles : ∀ c ∈ twoDevices, ∀ f ∈ c.request.file,
      Fits spelledOut f ∧ SealedFrom spelledOut {keyOf 2, keyOf 3} f c.nonces := by
    intro c hc f hf
    simp only [twoDevices, mem_cons, not_mem_nil, or_false] at hc
    rcases hc with rfl | rfl | rfl | rfl | rfl | rfl | rfl | rfl
    · obtain rfl := Option.some.inj hf
      refine ⟨fits_of_small (by decide) (by decide), fun s hs k hk hne => ?_⟩
      obtain rfl := Option.some.inj hs
      rcases hk with rfl | rfl
      · exact absurd rfl hne
      · exact error_of_tagOf_ne (by decide) _ _
    · obtain rfl := Option.some.inj hf
      exact ⟨fits_of_small (by decide) (by decide), fun s hs => absurd hs (by simp)⟩
    · cases hf
    · cases hf
    · cases hf
    · cases hf
    · cases hf
    · cases hf
  refine (files_are_a_vault documents Set.univ {keyOf 2, keyOf 3} (sound_spelledOut _ _ _)
    twoDevices fun c hc => ⟨fun _ _ => Set.mem_univ _, hkeys c hc, hfiles c hc⟩).trans ?_
  rfl

end Files

end Interocitor
