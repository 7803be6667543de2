import Interocitor.Core.Types

/-!
# `handshake/capabilities.ts`: what two devices can do

A device that pairs has a profile: the features it supports and those it requires.  Features are
texts, so that one side may require what the other has never heard of.  Profiles come from the
application, from an adapter, from an invitation and from the relay, and are checked wherever they
come from: `snapshotPairingCapabilities` takes any value and returns two lists of a bounded number
of texts of bounded length, and `normalizePairingCapabilities` sorts them and drops what is there
twice.

A list that has been checked says so, and so does one that has been normalized: `SnapshotIds` and
`CapabilityIds` have it as fields.

* `assertCompatible_ok_iff`: a profile is accepted beside another one if and only if whatever one of
  them requires is supported by both.
* `normalize_forWire`: what a device writes of its profile is read back as it is.
* `resolve_own`: a device does not require what it does not support itself.
-/

namespace Interocitor

open CodeUnits OrderedRecord List

namespace Handshake

/-- The two lists of a profile. -/
inductive ProfileField where
  | supported
  | required
  deriving DecidableEq

/-- The name of the property. -/
def ProfileField.key : ProfileField → Text
  | .supported => [115, 117, 112, 112, 111, 114, 116, 101, 100]
  | .required => [114, 101, 113, 117, 105, 114, 101, 100]

/-- What is wrong with a profile: it is no object; one of its lists is no array, has too many ids,
or an invalid one; or there are ids that are required and not supported. -/
inductive CapabilityError where
  | invalid
  | notAnArray (field : ProfileField)
  | tooMany (field : ProfileField)
  | invalidId (field : ProfileField)
  | unsupported (missing : List Text)
  deriving DecidableEq

/-- `MAX_CAPABILITIES`. -/
def maxCapabilities : ℕ := 32

/-- `MAX_CAPABILITY_ID_LENGTH`. -/
def maxCapabilityIdLength : ℕ := 128

/-- An id is not empty, and not too long. -/
def ValidId (id : Text) : Prop := id.length ≠ 0 ∧ id.length ≤ maxCapabilityIdLength

instance : DecidablePred ValidId := fun id =>
  inferInstanceAs (Decidable (id.length ≠ 0 ∧ id.length ≤ maxCapabilityIdLength))

/-- `sortedStrings`. -/
def sortedStrings (values : List Text) : List Text := values.insertionSort (· ≤ ·)

/-! ## Checked lists -/

/-- What `snapshotCapabilityIds` returns. -/
structure SnapshotIds where
  ids : List Text
  few : ids.length ≤ maxCapabilities
  valid : ∀ id ∈ ids, ValidId id
  deriving DecidableEq

/-- The loop of `snapshotCapabilityIds`. -/
def snapshotItems (field : ProfileField) : (items : List JsValue) →
    Except CapabilityError
      { ids : List Text // ids.length = items.length ∧ ∀ id ∈ ids, ValidId id }
  | [] => .ok ⟨[], rfl, fun _ h => absurd h not_mem_nil⟩
  | item :: items =>
    match item with
    | .string id =>
      if h : ValidId id then
        (snapshotItems field items).map fun ids =>
          ⟨id :: ids.1, congrArg (· + 1) ids.2.1, forall_mem_cons.mpr ⟨h, ids.2.2⟩⟩
      else .error (.invalidId field)
    | _ => .error (.invalidId field)

/-- `snapshotCapabilityIds`. -/
def snapshotCapabilityIds (field : ProfileField) : JsValue → Except CapabilityError SnapshotIds
  | .array items =>
    if h : items.length ≤ maxCapabilities then
      (snapshotItems field items).map fun ids => ⟨ids.1, ids.2.1.trans_le h, ids.2.2⟩
    else .error (.tooMany field)
  | _ => .error (.notAnArray field)

/-- `PairingCapabilities`, checked. -/
structure PairingCapabilities where
  supported : SnapshotIds
  required : Option SnapshotIds
  deriving DecidableEq

/-- A property of a value. -/
def property (key : Text) : JsValue → JsValue
  | .object fields => (fields.lookup key).getD .undefined
  | _ => .undefined

/-- `typeof value === "object"`, and not `null`. -/
def isObject : JsValue → Bool
  | .object _ => true
  | .array _ => true
  | .date _ => true
  | _ => false

/-- `Array.isArray`. -/
def isArray : JsValue → Bool
  | .array _ => true
  | _ => false

/-- `value === undefined`. -/
def isUndefined : JsValue → Bool
  | .undefined => true
  | _ => false

/-- `snapshotPairingCapabilities`. -/
def snapshotPairingCapabilities (value : JsValue) : Except CapabilityError PairingCapabilities :=
  if !isObject value || isArray value then .error .invalid
  else do
    let required := property ProfileField.required.key value
    let supported ← snapshotCapabilityIds .supported (property ProfileField.supported.key value)
    if isUndefined required then return ⟨supported, none⟩
    else return ⟨supported, some (← snapshotCapabilityIds .required required)⟩

/-! ## Normalized lists -/

/-- A list of ids as it is compared: in order, and nothing twice. -/
structure CapabilityIds extends SnapshotIds where
  sorted : ids.Pairwise (· < ·)
  deriving DecidableEq

/-- `sortedStrings(new Set(...))`. -/
def canonical (ids : List Text) : List Text := sortedStrings ids.dedup

variable {ids : List Text}

@[simp] theorem mem_canonical {id : Text} : id ∈ canonical ids ↔ id ∈ ids := by
  unfold canonical sortedStrings
  rw [mem_insertionSort, mem_dedup]

theorem length_canonical_le (ids : List Text) : (canonical ids).length ≤ ids.length := by
  unfold canonical sortedStrings
  rw [length_insertionSort]
  exact (dedup_sublist ids).length_le

theorem canonical_sorted (ids : List Text) : (canonical ids).Pairwise (· < ·) := by
  have hle : (canonical ids).Pairwise (· ≤ ·) := pairwise_insertionSort _ _
  have hne : (canonical ids).Nodup :=
    (perm_insertionSort (· ≤ ·) ids.dedup).nodup_iff.mpr (nodup_dedup ids)
  exact hle.imp₂ (fun _ _ => lt_of_le_of_ne) hne

theorem canonical_eq_self (h : ids.Pairwise (· < ·)) : canonical ids = ids := by
  unfold canonical sortedStrings
  rw [dedup_eq_self.mpr (h.imp ne_of_lt)]
  exact List.Pairwise.insertionSort_eq (h.imp le_of_lt)

/-- A checked list, normalized. -/
def SnapshotIds.normalize (s : SnapshotIds) : CapabilityIds where
  ids := canonical s.ids
  few := (length_canonical_le s.ids).trans s.few
  valid id h := s.valid id (mem_canonical.mp h)
  sorted := canonical_sorted s.ids

/-- No ids. -/
def CapabilityIds.none : CapabilityIds where
  ids := []
  few := Nat.zero_le _
  valid _ h := absurd h not_mem_nil
  sorted := List.Pairwise.nil

@[ext] theorem CapabilityIds.ext {a b : CapabilityIds} (h : a.ids = b.ids) : a = b := by
  cases a with
  | mk a ha =>
    cases b with
    | mk b hb =>
      cases a
      cases b
      obtain rfl := h
      rfl

/-- `NormalizedPairingCapabilities`. -/
structure NormalizedPairingCapabilities where
  supported : CapabilityIds
  required : CapabilityIds
  deriving DecidableEq

/-- `normalizePairingCapabilities`. -/
def normalizePairingCapabilities (value : JsValue) :
    Except CapabilityError NormalizedPairingCapabilities :=
  match value with
  | .undefined => .ok ⟨.none, .none⟩
  | .null => .ok ⟨.none, .none⟩
  | value => (snapshotPairingCapabilities value).map fun snapshot =>
    ⟨snapshot.supported.normalize, (snapshot.required.map SnapshotIds.normalize).getD .none⟩

/-- `isPairingCapabilities`. -/
def isPairingCapabilities (value : JsValue) : Bool :=
  match normalizePairingCapabilities value with
  | .ok _ => isObject value
  | .error _ => false

/-! ## Two profiles -/

/-- Whatever one of them requires is supported by both. -/
def Compatible (a b : NormalizedPairingCapabilities) : Prop :=
  ∀ id, id ∈ a.required.ids ∨ id ∈ b.required.ids → id ∈ a.supported.ids ∧ id ∈ b.supported.ids

theorem Compatible.symm {a b : NormalizedPairingCapabilities} (h : Compatible a b) :
    Compatible b a := fun id hid => (h id hid.symm).symm

/-- What one profile requires and the other does not support. -/
def missingFrom (required supported : CapabilityIds) : List Text :=
  required.ids.filter fun id => id ∉ supported.ids

/-- `assertPairingCapabilitiesCompatible`. -/
def assertPairingCapabilitiesCompatible (own peer : NormalizedPairingCapabilities) :
    Except CapabilityError Unit :=
  let missing := missingFrom own.required own.supported ++
    missingFrom peer.required own.supported ++
    missingFrom own.required peer.supported ++
    missingFrom peer.required peer.supported
  if missing.length > 0 then .error (.unsupported (canonical missing)) else .ok ()

theorem missingFrom_eq_nil_iff {required supported : CapabilityIds} :
    missingFrom required supported = [] ↔ ∀ id ∈ required.ids, id ∈ supported.ids := by
  unfold missingFrom
  rw [filter_eq_nil_iff]
  simp only [decide_eq_true_eq, not_not]

/-- **What is accepted.** -/
theorem assertCompatible_ok_iff {own peer : NormalizedPairingCapabilities} :
    assertPairingCapabilitiesCompatible own peer = .ok () ↔ Compatible own peer := by
  unfold assertPairingCapabilitiesCompatible
  dsimp only
  split_ifs with hmissing
  · refine ⟨fun h => absurd h (by simp), fun h => ?_⟩
    have hnil : ∀ {required supported : CapabilityIds},
        (∀ id ∈ required.ids, id ∈ supported.ids) → (missingFrom required supported).length = 0 :=
      fun hall => length_eq_zero_iff.mpr (missingFrom_eq_nil_iff.mpr hall)
    rw [length_append, length_append, length_append,
      hnil fun id hid => (h id (.inl hid)).1, hnil fun id hid => (h id (.inr hid)).1,
      hnil fun id hid => (h id (.inl hid)).2, hnil fun id hid => (h id (.inr hid)).2] at hmissing
    exact absurd hmissing (Nat.lt_irrefl 0)
  · refine ⟨fun _ id hid => ?_, fun _ => rfl⟩
    have hnil := length_eq_zero_iff.mp (Nat.eq_zero_of_not_pos hmissing)
    rw [append_eq_nil_iff, append_eq_nil_iff, append_eq_nil_iff,
      missingFrom_eq_nil_iff, missingFrom_eq_nil_iff, missingFrom_eq_nil_iff,
      missingFrom_eq_nil_iff] at hnil
    obtain ⟨⟨⟨hown, hpeer⟩, hown'⟩, hpeer'⟩ := hnil
    rcases hid with hid | hid
    · exact ⟨hown id hid, hown' id hid⟩
    · exact ⟨hpeer id hid, hpeer' id hid⟩

/-! ## Profiles in the open -/

/-- A list of ids as it is written. -/
def idsValue (ids : List Text) : JsValue := .array (ids.map .string)

/-- `pairingCapabilitiesForWire`. -/
def pairingCapabilitiesForWire (value : NormalizedPairingCapabilities) : JsValue :=
  if value.supported.ids = [] ∧ value.required.ids = [] then .undefined
  else .object ((ProfileField.supported.key, idsValue value.supported.ids) ::
    if value.required.ids = [] then []
    else [(ProfileField.required.key, idsValue value.required.ids)])

theorem snapshotItems_strings (field : ProfileField) (h : ∀ id ∈ ids, ValidId id) :
    ∃ h', snapshotItems field (ids.map .string) = .ok ⟨ids, h'⟩ := by
  induction ids with
  | nil => exact ⟨_, rfl⟩
  | cons id ids ih =>
    obtain ⟨hid, hids⟩ := forall_mem_cons.mp h
    obtain ⟨h', heq⟩ := ih hids
    refine ⟨⟨congrArg (· + 1) h'.1, h⟩, ?_⟩
    show snapshotItems field (JsValue.string id :: ids.map JsValue.string) = _
    unfold snapshotItems
    dsimp only
    rw [dif_pos hid, heq]
    rfl

theorem snapshotIds_idsValue (field : ProfileField) (ids : SnapshotIds) :
    snapshotCapabilityIds field (idsValue ids.ids) = .ok ids := by
  obtain ⟨h', heq⟩ := snapshotItems_strings field ids.valid
  have hfew : (ids.ids.map JsValue.string).length ≤ maxCapabilities := by
    rw [length_map]
    exact ids.few
  rw [idsValue, snapshotCapabilityIds, dif_pos hfew, heq]
  rfl

theorem snapshotCapabilityIds_idsValue (field : ProfileField) (ids : CapabilityIds) :
    snapshotCapabilityIds field (idsValue ids.ids) = .ok ids.toSnapshotIds :=
  snapshotIds_idsValue field ids.toSnapshotIds

theorem CapabilityIds.normalize_self (ids : CapabilityIds) : ids.toSnapshotIds.normalize = ids :=
  CapabilityIds.ext (canonical_eq_self ids.sorted)

/-- An object whose lists pass the check. -/
theorem normalize_object {fields : List (Text × JsValue)} {supported : SnapshotIds}
    {required : CapabilityIds}
    (hsupported : snapshotCapabilityIds .supported
      (property ProfileField.supported.key (.object fields)) = .ok supported)
    (hrequired : isUndefined (property ProfileField.required.key (.object fields)) = true ∧
        required = .none ∨
      isUndefined (property ProfileField.required.key (.object fields)) = false ∧
        snapshotCapabilityIds .required (property ProfileField.required.key (.object fields)) =
          .ok required.toSnapshotIds) :
    normalizePairingCapabilities (.object fields) = .ok ⟨supported.normalize, required⟩ := by
  have hsnapshot : ∃ o, snapshotPairingCapabilities (.object fields) = .ok ⟨supported, o⟩ ∧
      (o.map SnapshotIds.normalize).getD .none = required := by
    unfold snapshotPairingCapabilities
    rw [if_neg (by simp [isObject, isArray]), hsupported]
    rcases hrequired with ⟨hundefined, rfl⟩ | ⟨hdefined, hids⟩
    · refine ⟨none, ?_, rfl⟩
      dsimp only [bind, Except.bind, pure, Except.pure]
      rw [if_pos hundefined]
    · refine ⟨some required.toSnapshotIds, ?_, required.normalize_self⟩
      dsimp only [bind, Except.bind, pure, Except.pure]
      rw [if_neg (by simp [hdefined]), hids]
  obtain ⟨o, hok, hnormal⟩ := hsnapshot
  show (snapshotPairingCapabilities (.object fields)).map _ = _
  rw [hok, ← hnormal]
  rfl

/-- **What is written is read back.** -/
theorem normalize_forWire (n : NormalizedPairingCapabilities) :
    normalizePairingCapabilities (pairingCapabilitiesForWire n) = .ok n := by
  have hnone : ∀ {ids : CapabilityIds}, ids.ids = [] → ids = CapabilityIds.none :=
    fun h => CapabilityIds.ext h
  have hsupported := snapshotCapabilityIds_idsValue .supported n.supported
  unfold pairingCapabilitiesForWire
  split_ifs with hboth hrequired
  · obtain ⟨supported, required⟩ := n
    obtain rfl : supported = _ := hnone hboth.1
    obtain rfl : required = _ := hnone hboth.2
    rfl
  · refine Eq.trans (b := .ok ⟨n.supported.toSnapshotIds.normalize, n.required⟩) ?_ ?_
    · exact normalize_object hsupported (.inl ⟨rfl, hnone hrequired⟩)
    · rw [n.supported.normalize_self]
  · refine Eq.trans (b := .ok ⟨n.supported.toSnapshotIds.normalize, n.required⟩) ?_ ?_
    · have hids := snapshotCapabilityIds_idsValue .required n.required
      exact normalize_object hsupported (.inr ⟨rfl, hids⟩)
    · rw [n.supported.normalize_self]

/-! ## The profile of a device -/

/-- `mergePairingCapabilities`. -/
def mergePairingCapabilities (values : List JsValue) :
    Except CapabilityError NormalizedPairingCapabilities := do
  let normalized ← values.mapM normalizePairingCapabilities
  normalizePairingCapabilities (.object [
    (ProfileField.supported.key, idsValue (canonical (normalized.flatMap (·.supported.ids)))),
    (ProfileField.required.key, idsValue (canonical (normalized.flatMap (·.required.ids))))])

/-- A value that is there has to be a profile. -/
def snapshotIfGiven (absent : Bool) (value : JsValue) : Except CapabilityError Unit :=
  if absent then .ok () else (snapshotPairingCapabilities value).map fun _ => ()

/-- `value === undefined || value === null`. -/
def isNullish : JsValue → Bool
  | .undefined => true
  | .null => true
  | _ => false

/-- `resolvePairingCapabilities`: what the application says and what the adapter reports,
together. -/
def resolvePairingCapabilities (reported explicit : JsValue) :
    Except CapabilityError JsValue := do
  snapshotIfGiven (isUndefined explicit) explicit
  snapshotIfGiven (isNullish reported) reported
  let capabilities ← mergePairingCapabilities [reported, explicit]
  assertPairingCapabilitiesCompatible capabilities capabilities
  return pairingCapabilitiesForWire capabilities

theorem of_bind_eq_ok {ε α β : Type} {x : Except ε α} {f : α → Except ε β} {b : β}
    (h : (x >>= f) = .ok b) : ∃ a, x = .ok a ∧ f a = .ok b := by
  cases x with
  | error e => exact absurd h (by simp [bind, Except.bind])
  | ok a => exact ⟨a, rfl, h⟩

/-- **No device requires what it cannot do.** -/
theorem resolve_own {reported explicit value : JsValue}
    (h : resolvePairingCapabilities reported explicit = .ok value) :
    ∃ n, normalizePairingCapabilities value = .ok n ∧ Compatible n n := by
  obtain ⟨_, -, h⟩ := of_bind_eq_ok h
  obtain ⟨_, -, h⟩ := of_bind_eq_ok h
  obtain ⟨n, -, h⟩ := of_bind_eq_ok h
  obtain ⟨_, hown, h⟩ := of_bind_eq_ok h
  obtain rfl := Except.ok.inj h
  exact ⟨n, normalize_forWire n, assertCompatible_ok_iff.mp hown⟩

end Handshake

end Interocitor
