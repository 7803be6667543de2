import Interocitor.Files.Vault
import Interocitor.Adapters.GoogleDrive

/-!
# What the remote has of a vault

A file of the vault is an object of the remote.  `objectPath` says where it is, `storedOf` what it
is, and `Represents` that the remote has the files of a vault and nothing else, at the paths of a
run.

Three things are asked of the cryptography, and only for what occurs in the run: distinct paths have
distinct names, distinct keys have distinct guards, since a hash has no collisions there; and the
cipher is authenticated, so that a key does not open what another one has sealed.

* `decodeStoredFile_storedOf`: what is stored is read back, sealed or not.
* `objectPath_inj`: files at distinct paths do not meet.
* `requireSealGuard_eq`: who may replace or delete a file.
-/

namespace Interocitor

open CodeUnits OrderedRecord

namespace Files

open Envelopes (sealedInput sealBytes_eq open_framed sealedInput_cases isFormat_sealedInput
  inflate_deflated tagLength orError)
open StoredFrames (StoredFileHeader HeaderValue version definedMembers headerText jsDigits
  sizeName digestName contentTypeName taintName valueOf)
open JsonText (quote)
open Handshake (property)

variable (crypto : FileCrypto)

/-! ## Paths -/

theorem pathParts_intercalate {parts : List Text} (hne : parts ≠ [])
    (h : ∀ p ∈ parts, p ≠ [] ∧ (47 : CodeUnit) ∉ p) :
    pathParts (List.intercalate [47] parts) = parts := by
  rw [pathParts, List.splitOn_intercalate 47 (fun p hp => (h p hp).2) hne, List.filter_eq_self]
  intro p hp
  rw [Bool.not_eq_true', List.isEmpty_eq_false_iff]
  exact (h p hp).1

theorem cleanFilePath_clean {path clean : Text} (h : cleanFilePath path = .ok clean) :
    cleanFilePath clean = .ok clean := by
  have hparts : ∀ p ∈ pathParts path, p ≠ [] ∧ (47 : CodeUnit) ∉ p := by
    intro p hp
    obtain ⟨hmem, hne⟩ := List.mem_filter.mp hp
    rw [Bool.not_eq_true', List.isEmpty_eq_false_iff] at hne
    exact ⟨hne, Drive.notMem_of_mem_splitOn hmem⟩
  unfold cleanFilePath at h ⊢
  dsimp only at h ⊢
  split_ifs at h with hempty
  obtain rfl := Except.ok.inj h
  have hne : pathParts path ≠ [] := by
    intro hnil
    rw [hnil] at hempty
    exact hempty rfl
  rw [pathParts_intercalate hne hparts, if_neg hempty]

/-- The name at the remote of a clean path. -/
def objectName (meshKey : Option Key) (clean : Text) : Text :=
  match meshKey with
  | some k => crypto.hmacHex (deriveFilePathKey crypto k) clean
  | none => clean

/-- The path at the remote of a clean path. -/
def objectPath (mesh : FilesMesh) (clean : Text) : Text :=
  dropSlash mesh.remotePath ++ filesPart ++ objectName crypto mesh.meshKey clean

/-- **Where a file is stored.** -/
theorem storedFilePath_eq (mesh : FilesMesh) (deviceId path : Text) :
    storedFilePath crypto (mesh.engine deviceId) path =
      if mesh.remotePath.isEmpty then .error .noRemotePath
      else (cleanFilePath path).map (objectPath crypto mesh) := by
  have hroot : (mesh.engine deviceId).remotePath = mesh.remotePath := rfl
  have hkey : (mesh.engine deviceId).meshKey = mesh.meshKey := rfl
  rw [storedFilePath, hroot, hkey]
  by_cases hempty : mesh.remotePath.isEmpty = true
  · rw [if_pos hempty, if_pos hempty]
    rfl
  · rw [if_neg hempty, if_neg hempty]
    cases hclean : cleanFilePath path with
    | error e => rfl
    | ok clean =>
      have hobject : Except.map (objectPath crypto mesh) (.ok clean : Except FileError Text) =
          .ok (dropSlash mesh.remotePath ++ filesPart ++ objectName crypto mesh.meshKey clean) :=
        rfl
      rw [hobject]
      cases mesh.meshKey with
      | none => rfl
      | some k =>
        have hname : hideFilePath crypto (deriveFilePathKey crypto k) clean =
            .ok (objectName crypto (some k) clean) := by
          rw [hideFilePath, cleanFilePath_clean hclean]
          rfl
        show (do
          let name ← hideFilePath crypto (deriveFilePathKey crypto k) clean
          Except.ok (dropSlash mesh.remotePath ++ filesPart ++ name)) = _
        rw [hname]
        rfl

/-- A path is bad for the engine and for the vault, or it is a path of both. -/
theorem locate_cases (mesh : FilesMesh) (deviceId path : Text) :
    (∃ e, storedFilePath crypto (mesh.engine deviceId) path = .error e ∧
      Vault.locate mesh.remotePath path = .error (refusal e)) ∨
    ∃ clean, cleanFilePath path = .ok clean ∧ Vault.locate mesh.remotePath path = .ok clean ∧
      storedFilePath crypto (mesh.engine deviceId) path = .ok (objectPath crypto mesh clean) := by
  rw [storedFilePath_eq, Vault.locate]
  split_ifs with hempty
  · exact .inl ⟨.noRemotePath, rfl, rfl⟩
  · cases hclean : cleanFilePath path with
    | error e => exact .inl ⟨e, rfl, rfl⟩
    | ok clean => exact .inr ⟨clean, rfl, rfl, rfl⟩

/-! ## What is stored is read back -/

/-- Decryption inverts encryption. -/
def Decrypts : Prop :=
  ∀ key iv additional p, crypto.lib.decrypt key iv additional
    (crypto.lib.encrypt key iv additional p) = some p

/-- The envelope of some bytes. -/
def sealedBytes (key : Key) (iv : Envelopes.Iv) (data : Bytes) : Bytes :=
  Envelopes.frame (sealedInput crypto.lib .typescript data).1 iv
    (crypto.lib.encrypt key iv [(sealedInput crypto.lib .typescript data).1]
      (sealedInput crypto.lib .typescript data).2)

theorem encryptBytes_eq (key : Key) (iv : Envelopes.Iv) (data : Bytes) :
    encryptBytes crypto key iv data = .ok (sealedBytes crypto key iv data) := by
  rw [encryptBytes, sealBytes_eq]
  rfl

theorem decryptBytes_sealedBytes (h : Decrypts crypto) (key : Key) (iv : Envelopes.Iv)
    (data : Bytes) : decryptBytes crypto key (sealedBytes crypto key iv data) = .ok data := by
  have htag : tagLength ≤ (crypto.lib.encrypt key iv
      [(sealedInput crypto.lib .typescript data).1]
      (sealedInput crypto.lib .typescript data).2).length := by
    rw [crypto.lib.length_encrypt]
    exact Nat.le_add_left 16 _
  rw [decryptBytes, sealedBytes, open_framed crypto.lib .typescript key
    (isFormat_sealedInput crypto.lib .typescript data) iv htag, h]
  rcases sealedInput_cases crypto.lib .typescript data with hplain | ⟨c, hc, hdeflated, hsize⟩
  · rw [hplain]
    rfl
  · rw [hc]
    show Except.mapError _ (orError .malformedPayload
      (Envelopes.inflateRaw crypto.lib c .typescript)) = _
    rw [inflate_deflated crypto.lib hdeflated hsize .typescript]
    rfl

/-- The body of a frame. -/
def bodyOf (f : VaultFile) (nonces : Nonces) : Bytes :=
  match f.fileSeal with
  | some s => sealedBytes crypto s.key nonces.sealed f.data
  | none => f.data

/-- The header of a file. -/
def headerOf (f : VaultFile) : StoredFileHeader := fileHeader crypto f.data f.contentType f.fileSeal

/-- A frame, with its body. -/
def frameOf (f : VaultFile) (nonces : Nonces) : Bytes :=
  StoredFrames.encodeStoredFrame (headerObject (headerOf crypto f)) (bodyOf crypto f nonces)

/-- What is stored for a file. -/
def storedOf (meshKey : Option Key) (f : VaultFile) (nonces : Nonces) : Bytes :=
  match meshKey with
  | some k => sealedBytes crypto k nonces.mesh (frameOf crypto f nonces)
  | none => frameOf crypto f nonces

theorem encodeStoredFile_eq (mesh : FilesMesh) (deviceId : Text) (f : VaultFile) (nonces : Nonces) :
    encodeStoredFile crypto (mesh.engine deviceId) f.data f.contentType f.fileSeal nonces =
      .ok (storedOf crypto mesh.meshKey f nonces, headerOf crypto f) := by
  obtain ⟨root, meshKey⟩ := mesh
  obtain ⟨data, contentType, fileSeal⟩ := f
  unfold encodeStoredFile
  dsimp only [FilesMesh.engine]
  simp only [encryptBytes_eq]
  cases fileSeal with
  | none =>
    cases meshKey with
    | none => rfl
    | some k => rfl
  | some s =>
    cases meshKey with
    | none => rfl
    | some k => rfl

/-- A file whose header has room in a frame. -/
structure Fits (f : VaultFile) : Prop where
  size : f.data.length < 2 ^ 53
  header : (Utf8Text.encode (headerText quote jsDigits
    (version :: (headerOf crypto f).members))).length < 2 ^ 32

theorem definedMembers_headerObject (header : StoredFileHeader) :
    definedMembers (headerObject header) = header.members := by
  rw [definedMembers, headerObject, List.filterMap_map]
  exact List.filterMap_some

/-- **A stored file is read back**: its header, and the body of its frame. -/
theorem decodeStoredFile_storedOf (h : Decrypts crypto) (mesh : FilesMesh) (deviceId : Text)
    {f : VaultFile} (hfits : Fits crypto f) (nonces : Nonces) :
    decodeStoredFile crypto (mesh.engine deviceId) (storedOf crypto mesh.meshKey f nonces) =
      .ok (headerValue (headerOf crypto f), bodyOf crypto f nonces) := by
  have hsize : (headerOf crypto f).size < 2 ^ 53 := hfits.size
  have hmembers := definedMembers_headerObject (headerOf crypto f)
  have hdescribes : StoredFrames.Describes (headerObject (headerOf crypto f)) (headerOf crypto f) :=
    StoredFrames.describes_ordered (headerOf crypto f)
  have hlength : (Utf8Text.encode (headerText quote jsDigits
      (version :: definedMembers (headerObject (headerOf crypto f))))).length < 2 ^ 32 := by
    rw [hmembers]
    exact hfits.header
  have hvalue : (definedMembers (headerObject (headerOf crypto f))).map StoredFrames.jsProperty =
      (headerOf crypto f).members.map fun p =>
        (p.1, valueOf (fun n => JsValue.number (.finite n)) .string p.2) := by
    rw [hmembers]
    refine List.map_congr_left fun p hp => ?_
    obtain ⟨name, value⟩ := p
    cases value with
    | number n =>
      have hlt := StoredFrames.lt_of_number hsize (List.Perm.refl _)
        (List.mem_cons_of_mem version hp) rfl
      rw [StoredFrames.jsProperty, valueOf, StoredFrames.jsNumber_ofNat hlt, valueOf]
    | text t => rfl
  have hframe : StoredFrames.decodeStoredFrame (frameOf crypto f nonces) =
      .ok ((headerOf crypto f).members.map fun p =>
          (p.1, valueOf (fun n => JsValue.number (.finite n)) .string p.2),
        bodyOf crypto f nonces) := by
    rw [← hvalue]
    exact StoredFrames.decodeStoredFrame_frame hdescribes.members StoredFrames.quotes_quote
      Utf8Text.isWellFormed_quote
      (fun p hp n hn =>
        StoredFrames.jsDigits_eq (StoredFrames.lt_of_number hsize hdescribes.members hp hn))
      (bodyOf crypto f nonces) hlength
  have hkey : (mesh.engine deviceId).meshKey = mesh.meshKey := rfl
  rw [decodeStoredFile, hkey]
  cases mesh.meshKey with
  | none =>
    dsimp only [bind, Except.bind, storedOf]
    rw [hframe]
    rfl
  | some k =>
    have hopen := decryptBytes_sealedBytes crypto h k nonces.mesh (frameOf crypto f nonces)
    dsimp only [bind, Except.bind, storedOf]
    rw [hopen]
    dsimp only
    rw [hframe]
    rfl

theorem about_described (metadata : StoredFileMetadata) (f : VaultFile) :
    (describeStoredFile metadata (headerValue (headerOf crypto f))).about = f.about crypto := by
  obtain ⟨data, contentType, fileSeal⟩ := f
  rw [headerOf]
  unfold fileHeader VaultFile.about
  dsimp only
  cases contentType.filter fun t => !t.isEmpty with
  | none =>
    cases fileSeal with
    | none => rfl
    | some s => rfl
  | some t =>
    cases fileSeal with
    | none => rfl
    | some s => rfl

theorem taint_headerValue (f : VaultFile) :
    property taintName (headerValue (headerOf crypto f)) =
      optionalText (f.fileSeal.map FileSeal.taint) :=
  congrArg About.taint (about_described crypto (fallbackMetadata [] [] []) f)

/-! ## What the adapter does at a path, and elsewhere -/

namespace MemoryAdapter

/-- What an adapter has at a path. -/
@[ext] structure View where
  file : Option (Bytes × Text)
  metadata : Option StoredFileMetadata
  guard : Option Text

/-- What this adapter has at a path. -/
def view (m : MemoryAdapter) (path : Text) : View :=
  ⟨m.files.get path, m.storedFileMetadata.get path, m.sealGuards.get path⟩

variable {m : MemoryAdapter} {path : Text}

theorem putStoredFile_view {presented : Option Text}
    (h : m.requireSealGuard path presented = .ok ()) (now : Text) (data : Bytes) (deviceId : Text) :
    ∃ m' metadata, m.putStoredFile now path data deviceId presented = .ok (m', metadata) ∧
      m'.view path = ⟨some (data, now), some metadata, presented.filter fun g => !g.isEmpty⟩ ∧
      ∀ q, q ≠ path → m'.view q = m.view q := by
  unfold putStoredFile
  rw [h]
  refine ⟨_, _, rfl, ?_, fun q hq => ?_⟩
  · unfold view
    dsimp only
    rw [Record.get_set_self, Record.get_set_self]
    cases presented.filter fun g => !g.isEmpty with
    | none =>
      dsimp only
      rw [Record.get_erase, if_pos rfl]
    | some g =>
      dsimp only
      rw [Record.get_set_self]
  · unfold view
    dsimp only
    rw [Record.get_set_ne _ _ hq.symm, Record.get_set_ne _ _ hq.symm]
    cases presented.filter fun g => !g.isEmpty with
    | none =>
      dsimp only
      rw [Record.get_erase, if_neg hq.symm]
    | some g =>
      dsimp only
      rw [Record.get_set_ne _ _ hq.symm]

theorem getStoredFile_view {data : Bytes} {written : Text}
    (h : (m.view path).file = some (data, written)) (now : Text) :
    ∃ m', m.getStoredFile now path = .ok (m', data) ∧ (m'.view path).file = (m.view path).file ∧
      (m'.view path).guard = (m.view path).guard ∧
      ((m.view path).metadata.isSome → (m'.view path).metadata.isSome) ∧
      ∀ q, q ≠ path → m'.view q = m.view q := by
  have hfile : m.files.get path = some (data, written) := h
  unfold getStoredFile
  rw [hfile]
  dsimp only
  cases hmetadata : m.storedFileMetadata.get path with
  | none => exact ⟨m, rfl, rfl, rfl, id, fun q _ => rfl⟩
  | some metadata =>
    refine ⟨_, rfl, rfl, rfl, fun _ => ?_, fun q hq => ?_⟩
    · unfold view
      dsimp only
      rw [Record.get_set_self]
      rfl
    · unfold view
      dsimp only
      rw [Record.get_set_ne _ _ hq.symm]

theorem deleteStoredFile_view {presented : Option Text}
    (h : m.requireSealGuard path presented = .ok ()) :
    ∃ m', m.deleteStoredFile path presented = .ok m' ∧ m'.view path = ⟨none, none, none⟩ ∧
      ∀ q, q ≠ path → m'.view q = m.view q := by
  unfold deleteStoredFile
  rw [h]
  refine ⟨_, rfl, ?_, fun q hq => ?_⟩
  · unfold view
    dsimp only
    rw [Record.get_erase, Record.get_erase, Record.get_erase, if_pos rfl, if_pos rfl, if_pos rfl]
  · unfold view
    dsimp only
    rw [Record.get_erase, Record.get_erase, Record.get_erase, if_neg hq.symm, if_neg hq.symm,
      if_neg hq.symm]

end MemoryAdapter

/-! ## The remote represents a vault -/

/-- **What is asked of the cryptography**, for the paths `P` and the keys `K` of a run. -/
structure Sound (mesh : FilesMesh) (P : Set Text) (K : Set Key) : Prop where
  decrypts : Decrypts crypto
  names : ∀ k ∈ mesh.meshKey, Set.InjOn (crypto.hmacHex (deriveFilePathKey crypto k)) P
  guards : ∀ path ∈ P, Set.InjOn (fun k => fileGuard crypto k (objectPath crypto mesh path)) K
  hex : ∀ key text, crypto.hmacHex key text ≠ []

/-- None of the keys opens what another one has sealed in a file. -/
def SealedFrom (K : Set Key) (f : VaultFile) (nonces : Nonces) : Prop :=
  ∀ s ∈ f.fileSeal, ∀ k ∈ K, k ≠ s.key →
    ∃ e, decryptBytes crypto k (sealedBytes crypto s.key nonces.sealed f.data) = .error e

/-- What the remote has at the path of a file. -/
structure Holds (mesh : FilesMesh) (K : Set Key) (clean : Text) (f : VaultFile)
    (view : MemoryAdapter.View) : Prop where
  fits : Fits crypto f
  keys : ∀ s ∈ f.fileSeal, isBlank s.taint = false ∧ s.key ∈ K
  stored : ∃ nonces now, view.file = some (storedOf crypto mesh.meshKey f nonces, now) ∧
    SealedFrom crypto K f nonces
  described : view.metadata.isSome
  guard : view.guard = f.fileSeal.map fun s => fileGuard crypto s.key (objectPath crypto mesh clean)

/-- What the remote has where there may be a file. -/
def At (mesh : FilesMesh) (K : Set Key) (clean : Text) (o : Option VaultFile)
    (view : MemoryAdapter.View) : Prop :=
  match o with
  | some f => Holds crypto mesh K clean f view
  | none => view = ⟨none, none, none⟩

/-- **The remote represents a vault**, at the paths of a run. -/
def Represents (mesh : FilesMesh) (P : Set Text) (K : Set Key) (m : MemoryAdapter) (v : Vault) :
    Prop :=
  ∀ clean ∈ P, At crypto mesh K clean (v clean) (m.view (objectPath crypto mesh clean))

variable {crypto} {mesh : FilesMesh} {P : Set Text} {K : Set Key} {m m' : MemoryAdapter} {v : Vault}

/-- **Files do not meet**: distinct paths of a run have distinct paths at the remote. -/
theorem objectPath_inj (h : Sound crypto mesh P K) : Set.InjOn (objectPath crypto mesh) P := by
  intro p hp q hq heq
  have hname : objectName crypto mesh.meshKey p = objectName crypto mesh.meshKey q :=
    List.append_cancel_left heq
  cases hmesh : mesh.meshKey with
  | none =>
    rw [hmesh] at hname
    exact hname
  | some k =>
    rw [hmesh] at hname
    exact h.names k hmesh hp hq hname

variable {clean : Text}

theorem Represents.update (hsound : Sound crypto mesh P K) (h : Represents crypto mesh P K m v)
    (hclean : clean ∈ P) {o : Option VaultFile}
    (hat : At crypto mesh K clean o (m'.view (objectPath crypto mesh clean)))
    (hother : ∀ q, q ≠ objectPath crypto mesh clean → m'.view q = m.view q) :
    Represents crypto mesh P K m' (Function.update v clean o) := by
  intro q hq
  by_cases heq : q = clean
  · subst heq
    rw [Function.update_self]
    exact hat
  · have hpath : objectPath crypto mesh q ≠ objectPath crypto mesh clean :=
      fun hpath => heq (objectPath_inj hsound hq hclean hpath)
    rw [Function.update_of_ne heq, hother _ hpath]
    exact h q hq

/-- A path of the remote is read, and no path of the vault changes. -/
theorem Represents.read (hsound : Sound crypto mesh P K) (h : Represents crypto mesh P K m v)
    (hclean : clean ∈ P)
    (hat : At crypto mesh K clean (v clean) (m'.view (objectPath crypto mesh clean)))
    (hother : ∀ q, q ≠ objectPath crypto mesh clean → m'.view q = m.view q) :
    Represents crypto mesh P K m' v := by
  have hupdate := h.update hsound hclean hat hother
  rwa [Function.update_eq_self] at hupdate

/-- **Who may replace or delete a file**, at the remote and in the vault. -/
theorem requireSealGuard_eq (hsound : Sound crypto mesh P K) (hclean : clean ∈ P)
    {o : Option VaultFile} (hat : At crypto mesh K clean o (m.view (objectPath crypto mesh clean)))
    {key : Option Key} (hkey : ∀ k ∈ key, k ∈ K) :
    m.requireSealGuard (objectPath crypto mesh clean)
        (key.map fun k => fileGuard crypto k (objectPath crypto mesh clean)) =
      if ∀ f ∈ o, f.Yields key then .ok ()
      else .error (.sealed (objectPath crypto mesh clean)) := by
  have hunguarded : ∀ {g : Option Text}, (m.view (objectPath crypto mesh clean)).guard = none →
      m.requireSealGuard (objectPath crypto mesh clean) g = .ok () := by
    intro g hnone
    have hget : m.sealGuards.get (objectPath crypto mesh clean) = none := hnone
    rw [MemoryAdapter.requireSealGuard, hget]
  cases o with
  | none =>
    rw [if_pos (by simp)]
    exact hunguarded (congrArg MemoryAdapter.View.guard hat)
  | some f =>
    have hguard := hat.guard
    cases hseal : f.fileSeal with
    | none =>
      rw [hseal] at hguard
      rw [if_pos (by simp [VaultFile.Yields, hseal])]
      exact hunguarded hguard
    | some s =>
      rw [hseal] at hguard
      have hget : m.sealGuards.get (objectPath crypto mesh clean) =
          some (fileGuard crypto s.key (objectPath crypto mesh clean)) := hguard
      have hnonempty : (fileGuard crypto s.key (objectPath crypto mesh clean)).isEmpty = false :=
        List.isEmpty_eq_false_iff.mpr (hsound.hex _ _)
      have hyields : (∀ f' ∈ some f, f'.Yields key) ↔
          key.map (fun k => fileGuard crypto k (objectPath crypto mesh clean)) =
            some (fileGuard crypto s.key (objectPath crypto mesh clean)) := by
        constructor
        · intro hall
          rw [hall f rfl s hseal]
          rfl
        · intro hsame f' hf s' hs
          obtain rfl := Option.some.inj hf
          obtain rfl := Option.some.inj (hseal.symm.trans hs)
          obtain ⟨k, hk, hguards⟩ := Option.map_eq_some_iff.mp hsame
          rw [hk, hsound.guards clean hclean (hkey k hk) (hat.keys s hseal).2 hguards]
      rw [MemoryAdapter.requireSealGuard, hget]
      dsimp only
      rw [hnonempty]
      by_cases hsame : key.map (fun k => fileGuard crypto k (objectPath crypto mesh clean)) =
          some (fileGuard crypto s.key (objectPath crypto mesh clean))
      · rw [if_pos (hyields.mpr hsame), if_neg (by simp [hsame])]
      · rw [if_neg (hyields.not.mpr hsame), if_pos (by simp [hsame])]

end Files

end Interocitor
