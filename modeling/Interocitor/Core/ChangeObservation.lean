import Interocitor.Core.Hlc
import Interocitor.Core.Types

/-!
# `change-observation.ts`: which change files a device has seen

A device remembers the names of the change files whose effects it holds.  These
*receipts* decide what a pull still has to read and what a compaction may fold into
a snapshot; the stamps kept beside them are diagnostics.

The durable record is `StoredObservationState`; a `ChangeObservationLedger` is the
in-memory view of it that one pull or one flush works on, and `persist` merges the
view back.  A generation number makes a view that was loaded before a snapshot
restore fall flat: its `persist` is refused.
-/

namespace Interocitor

open CodeUnits OrderedRecord Option

/-! ## Change file names -/

/-- `"-chg_"`. -/
def changeMarker : Text := [45, 99, 104, 103, 95]

/-- `".json"`. -/
def jsonSuffix : Text := [46, 106, 115, 111, 110]

/-- `s.lastIndexOf(pat)`. -/
def lastIndexOf (pat : Text) : Text → Option ℕ
  | [] => if pat.isPrefixOf [] then some 0 else none
  | c :: s =>
    match lastIndexOf pat s with
    | some i => some (i + 1)
    | none => if pat.isPrefixOf (c :: s) then some 0 else none

/-- `changeFileName`. -/
def changeFileName (entry : ChangeEntry) : Text := entry.hlc ++ dash :: (entry.id ++ jsonSuffix)

/-- `changeFileHlc`. -/
def changeFileHlc (name : Text) : Option Text :=
  (lastIndexOf changeMarker name).map fun marker => name.take marker

/-- `compareChangeFiles`: by stamp, then by name. -/
def compareChangeFiles (left right : Text) : ℤ :=
  let byName : ℤ := if left < right then -1 else if right < left then 1 else 0
  match truthy (changeFileHlc left), truthy (changeFileHlc right) with
  | some leftHlc, some rightHlc =>
    match hlcCompareStr leftHlc rightHlc with
    | some compared => if compared ≠ 0 then compared else byName
    | none => byName
  | _, _ => byName

/-- The name of a change file that can be recorded: it has the marker, and the writer id in its
stamp is no name that a plain object inherits. -/
def isRecordable (fileName : Text) : Bool :=
  (changeFileHlc fileName).any fun fileHlc => decide ((hlcParse fileHlc).nodeId ∉ inheritedNames)

/-! ## Writer frontiers -/

/-- The later of a stamp and a stamp kept so far, if there is one. -/
def laterStamp (kept : Option Text) (stamp : Text) : Text :=
  match truthy kept with
  | none => stamp
  | some k => if isPos (hlcCompareStr stamp k) then stamp else k

/-- `WriterFrontiers`: for each writer the latest stamp.  No writer id in it is a name that a plain
object inherits, because to record such a writer is an error. -/
structure WriterFrontiers where
  stamps : Record Text Text
  ordinary : ∀ writerId ∈ stamps.keys, writerId ∉ inheritedNames

namespace WriterFrontiers

/-- `{}`. -/
instance : EmptyCollection WriterFrontiers := ⟨⟨∅, fun _ h => absurd h List.not_mem_nil⟩⟩

/-- `frontiers[writerId]`, for a writer whose id is no inherited name. -/
def get (frontiers : WriterFrontiers) (writerId : Text) : Option Text :=
  frontiers.stamps.get writerId

/-- Move the frontier of a writer up to a stamp. -/
def raise (frontiers : WriterFrontiers) (writerId stamp : Text) (h : writerId ∉ inheritedNames) :
    WriterFrontiers where
  stamps := frontiers.stamps.set writerId (laterStamp (frontiers.get writerId) stamp)
  ordinary w hw := (mem_map_fst_put.mp hw).elim (fun he => he ▸ h) (frontiers.ordinary w)

/-- The stamps of the one, raised to those of the other. -/
def absorbStamps (stamps : Record Text Text) (durable : List (Text × Text)) : Record Text Text :=
  durable.foldl (fun stamps p => stamps.set p.1 (laterStamp (stamps.get p.1) p.2)) stamps

theorem mem_keys_absorbStamps {stamps : Record Text Text} {durable : List (Text × Text)}
    {writerId : Text} (h : writerId ∈ (absorbStamps stamps durable).keys) :
    writerId ∈ stamps.keys ∨ writerId ∈ durable.map Prod.fst := by
  induction durable generalizing stamps with
  | nil => exact .inl h
  | cons p durable ih =>
    rw [List.map_cons, List.mem_cons]
    rcases ih h with hset | hmem
    · exact (mem_map_fst_put.mp hset).elim (fun he => .inr (.inl he)) .inl
    · exact .inr (.inr hmem)

/-- The loop of `persist` over the frontiers of the stored record. -/
def absorb (frontiers durable : WriterFrontiers) : WriterFrontiers where
  stamps := absorbStamps frontiers.stamps durable.stamps.entries
  ordinary w hw := (mem_keys_absorbStamps hw).elim (frontiers.ordinary w) (durable.ordinary w)

@[simp] theorem get_empty (writerId : Text) : (∅ : WriterFrontiers).get writerId = none :=
  Record.get_empty _

end WriterFrontiers

/-! ## The ledger -/

/-- `StoredObservationState`. -/
structure StoredObservationState where
  generation : ℕ
  globalHighWaterHlc : Text
  seenChangeFiles : List Text
  writerFrontiers : WriterFrontiers

/-- `observationGeneration`. -/
def observationGeneration (stored : Option StoredObservationState) : ℕ :=
  (stored.map StoredObservationState.generation).getD 0

/-- The receipts of a device. -/
def receipts (stored : Option StoredObservationState) : List Text :=
  (stored.map StoredObservationState.seenChangeFiles).getD []

/-- The record that `reset` and `clearAll` leave. -/
def StoredObservationState.cleared (generation : ℕ) : StoredObservationState :=
  ⟨generation, [], [], ∅⟩

/-- `ChangeObservationLedger`. -/
structure ChangeObservationLedger where
  globalHighWaterHlc : Text
  seenChangeFiles : List Text
  writerFrontiers : WriterFrontiers
  hasExactObservationHistory : Bool
  generation : ℕ

namespace ChangeObservationLedger

/-- `load`. -/
def load (stored : Option StoredObservationState) : ChangeObservationLedger where
  globalHighWaterHlc := (stored.map StoredObservationState.globalHighWaterHlc).getD []
  seenChangeFiles := receipts stored
  writerFrontiers := (stored.map StoredObservationState.writerFrontiers).getD ∅
  hasExactObservationHistory := stored.isSome
  generation := observationGeneration stored

/-- `isUnseenChange`. -/
def isUnseenChange (ledger : ChangeObservationLedger) (fileName : Text) : Bool :=
  (changeFileHlc fileName).isSome && decide (fileName ∉ ledger.seenChangeFiles)

/-- `hasUnseenChange`. -/
def hasUnseenChange (ledger : ChangeObservationLedger) (files : List Text) : Bool :=
  files.any ledger.isUnseenChange

/-- `capturedChangeFileNames`. -/
def capturedChangeFileNames (ledger : ChangeObservationLedger) : List Text :=
  ledger.seenChangeFiles.insertionSort (· ≤ ·)

/-- `Set.add`. -/
def addName (name : Text) (names : List Text) : List Text :=
  if name ∈ names then names else names ++ [name]

/-- `observe`, without the event it returns for a late change; `none` is an error.  The frontiers
are a plain object: under an inherited name it has something that is no text, and to compare the
stamp with that is a `TypeError`. -/
def observe (ledger : ChangeObservationLedger) (fileName changeHlc : Text) :
    Option ChangeObservationLedger :=
  (changeFileHlc fileName).bind fun fileHlc =>
    if h : (hlcParse fileHlc).nodeId ∈ inheritedNames then none
    else
      some { ledger with
        writerFrontiers := ledger.writerFrontiers.raise (hlcParse fileHlc).nodeId fileHlc h
        globalHighWaterHlc := laterStamp (some ledger.globalHighWaterHlc) changeHlc
        seenChangeFiles := addName fileName ledger.seenChangeFiles }

/-- `persist`: the new record, or `none` when a reset superseded the ledger. -/
def persist (ledger : ChangeObservationLedger) (stored : Option StoredObservationState) :
    Option StoredObservationState :=
  if ledger.generation ≠ observationGeneration stored then none
  else
    let durable := load stored
    let merged : ChangeObservationLedger :=
      { ledger with
        seenChangeFiles := durable.seenChangeFiles.foldl (fun names n => addName n names)
          ledger.seenChangeFiles
        writerFrontiers := ledger.writerFrontiers.absorb durable.writerFrontiers
        globalHighWaterHlc :=
          match truthy (some durable.globalHighWaterHlc) with
          | none => ledger.globalHighWaterHlc
          | some h => laterStamp (some ledger.globalHighWaterHlc) h }
    some ⟨ledger.generation, merged.globalHighWaterHlc, merged.capturedChangeFileNames,
      merged.writerFrontiers⟩

/-- The loop of `restoreSnapshot` over the covered files. -/
def observeCovered : List Text → ChangeObservationLedger → Option ChangeObservationLedger
  | [], ledger => some ledger
  | fileName :: rest, ledger =>
    match (changeFileHlc fileName).bind fun fileHlc => ledger.observe fileName fileHlc with
    | none => none
    | some ledger => observeCovered rest ledger

/-- The record that `restoreSnapshot` writes; `none` is an error: `Invalid snapshot change
filename`, or that of `observe`. -/
def restored (generation : ℕ) (snapshotHlc : Text) (coveredChangeFiles : List Text) :
    Option StoredObservationState :=
  (observeCovered coveredChangeFiles ⟨snapshotHlc, [], ∅, true, generation⟩).map fun ledger =>
    let globalHighWaterHlc :=
      if decide (snapshotHlc ≠ []) && isPos (hlcCompareStr snapshotHlc ledger.globalHighWaterHlc)
      then snapshotHlc else ledger.globalHighWaterHlc
    ⟨generation, globalHighWaterHlc, ledger.capturedChangeFileNames, ledger.writerFrontiers⟩

/-! ## What the operations do to the receipts -/

variable {names : List Text}

@[simp] theorem mem_addName {name n : Text} : n ∈ addName name names ↔ n = name ∨ n ∈ names := by
  rw [addName]
  split_ifs with h
  · exact ⟨.inr, fun hn => hn.elim (fun he => he ▸ h) id⟩
  · rw [List.mem_append, List.mem_singleton, or_comm]

variable {ledger : ChangeObservationLedger} {n : Text}

@[simp] theorem mem_capturedChangeFileNames :
    n ∈ ledger.capturedChangeFileNames ↔ n ∈ ledger.seenChangeFiles :=
  List.mem_insertionSort _

theorem mem_foldl_addName {extra : List Text} :
    n ∈ extra.foldl (fun names n => addName n names) names ↔ n ∈ extra ∨ n ∈ names := by
  induction extra generalizing names with
  | nil => simp
  | cons m extra ih =>
    rw [List.foldl_cons, ih, mem_addName, List.mem_cons]
    tauto

@[simp] theorem seenChangeFiles_load (stored : Option StoredObservationState) :
    (load stored).seenChangeFiles = receipts stored := rfl

variable {ledger ledger' : ChangeObservationLedger} {fileName changeHlc : Text}

theorem observe_eq_some_iff :
    ledger.observe fileName changeHlc = some ledger' ↔
      ∃ fileHlc, ∃ h : (hlcParse fileHlc).nodeId ∉ inheritedNames,
        changeFileHlc fileName = some fileHlc ∧
        { ledger with
          writerFrontiers := ledger.writerFrontiers.raise (hlcParse fileHlc).nodeId fileHlc h
          globalHighWaterHlc := laterStamp (some ledger.globalHighWaterHlc) changeHlc
          seenChangeFiles := addName fileName ledger.seenChangeFiles } = ledger' := by
  rw [observe, bind_eq_some_iff]
  constructor
  · rintro ⟨fileHlc, hfile, h⟩
    split at h
    · exact absurd h (by simp)
    · rename_i hwriter
      exact ⟨fileHlc, hwriter, hfile, some.inj h⟩
  · rintro ⟨fileHlc, hwriter, hfile, rfl⟩
    exact ⟨fileHlc, hfile, dif_neg hwriter⟩

theorem isSome_observe (ledger : ChangeObservationLedger) (fileName changeHlc : Text) :
    (ledger.observe fileName changeHlc).isSome = isRecordable fileName := by
  rw [observe, isRecordable]
  cases changeFileHlc fileName with
  | none => rfl
  | some fileHlc => by_cases h : (hlcParse fileHlc).nodeId ∈ inheritedNames <;> simp [h]

theorem mem_observe (h : ledger.observe fileName changeHlc = some ledger') :
    n ∈ ledger'.seenChangeFiles ↔ n = fileName ∨ n ∈ ledger.seenChangeFiles := by
  obtain ⟨fileHlc, hwriter, -, rfl⟩ := observe_eq_some_iff.mp h
  exact mem_addName

theorem generation_observe (h : ledger.observe fileName changeHlc = some ledger') :
    ledger'.generation = ledger.generation := by
  obtain ⟨fileHlc, hwriter, -, rfl⟩ := observe_eq_some_iff.mp h
  rfl

theorem exists_observe (ledger : ChangeObservationLedger) (changeHlc : Text)
    (h : isRecordable fileName = true) :
    ∃ ledger', ledger.observe fileName changeHlc = some ledger' :=
  isSome_iff_exists.mp (h ▸ isSome_observe ledger fileName changeHlc)

/-- A `persist` that is not refused leaves the union of the two receipt sets. -/
theorem mem_persist {stored : Option StoredObservationState} {stored' : StoredObservationState}
    (h : ledger.persist stored = some stored') :
    n ∈ receipts (some stored') ↔ n ∈ receipts stored ∨ n ∈ ledger.seenChangeFiles := by
  rw [persist] at h
  split_ifs at h with hgen
  obtain rfl := some.inj h
  simp only [receipts, map_some, getD_some, mem_capturedChangeFileNames, mem_foldl_addName, load]

theorem exists_persist {stored : Option StoredObservationState}
    (h : ledger.generation = observationGeneration stored) :
    ∃ stored', ledger.persist stored = some stored' := by
  rw [persist, if_neg (not_not.mpr h)]
  exact ⟨_, rfl⟩

theorem mem_observeCovered (h : observeCovered names ledger = some ledger') :
    n ∈ ledger'.seenChangeFiles ↔ n ∈ names ∨ n ∈ ledger.seenChangeFiles := by
  induction names generalizing ledger with
  | nil =>
    obtain rfl := some.inj h
    simp
  | cons name names ih =>
    rw [observeCovered] at h
    cases ho : (changeFileHlc name).bind fun fileHlc => ledger.observe name fileHlc with
    | none =>
      rw [ho] at h
      exact absurd h (by simp)
    | some ledger₁ =>
      rw [ho] at h
      obtain ⟨fileHlc, -, hobs⟩ := bind_eq_some_iff.mp ho
      rw [ih h, mem_observe hobs, List.mem_cons]
      tauto

variable {covered : List Text}

theorem mem_restored {generation : ℕ} {snapshotHlc : Text} {stored : StoredObservationState}
    (h : restored generation snapshotHlc covered = some stored) :
    n ∈ receipts (some stored) ↔ n ∈ covered := by
  rw [restored, map_eq_some_iff] at h
  obtain ⟨ledger, hl, rfl⟩ := h
  simp only [receipts, map_some, getD_some, mem_capturedChangeFileNames,
    mem_observeCovered hl, List.not_mem_nil, or_false]

theorem isSome_observeCovered_iff :
    (observeCovered names ledger).isSome = true ↔ ∀ n ∈ names, isRecordable n = true := by
  induction names generalizing ledger with
  | nil => simp [observeCovered]
  | cons n names ih =>
    have hhead : ((changeFileHlc n).bind fun fileHlc => ledger.observe n fileHlc).isSome =
        isRecordable n := by
      cases hf : changeFileHlc n with
      | none => simp [isRecordable, hf]
      | some fileHlc => exact isSome_observe ledger n fileHlc
    rw [observeCovered, List.forall_mem_cons, ← hhead]
    cases (changeFileHlc n).bind fun fileHlc => ledger.observe n fileHlc with
    | none => simp
    | some ledger₁ => simpa using ih

theorem isSome_restored_iff {generation : ℕ} {snapshotHlc : Text} :
    (restored generation snapshotHlc covered).isSome = true ↔
      ∀ n ∈ covered, isRecordable n = true := by
  rw [restored, isSome_map, isSome_observeCovered_iff]

theorem exists_restored (generation : ℕ) (snapshotHlc : Text)
    (h : ∀ n ∈ covered, isRecordable n = true) :
    ∃ stored, restored generation snapshotHlc covered = some stored :=
  isSome_iff_exists.mp (isSome_restored_iff.mpr h)

end ChangeObservationLedger

end Interocitor
