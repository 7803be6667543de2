import Interocitor.Core.ChangeObservation
import Interocitor.Core.Crdt

/-!
# Ledgers that share one record

Pull and flush each load a ledger, observe change files through it for as long as they
run, and persist it at the end; several of them can be alive at once over one store.
What keeps them from erasing each other's receipts is that `persist` merges the record
as it is then, and what keeps them from writing into a state that was replaced in the
meantime is the generation number.

The locked sections of `change-observation.ts` are the steps here, taken in any order by
any number of ledgers; the write of the record, with which all but `load` end, may fail.
Beside the record, the state remembers what nobody reads: the
names observed through each ledger, and how many resets, clears and restores there were
when it was loaded.

* `ledger_safe`: in every run whose restores name change files that can be recorded and
  whose clears and restores are completed, a `persist` leaves the union of what was stored
  and what its ledger observed; within a generation no receipt is lost and no mark goes
  back; and a ledger loaded before a reset, a clear or a restore changes nothing any more.
* `failed_restore_revives_an_old_ledger`: a restore that meets a name without the marker
  of change files throws *after* the local state, the record included, was cleared.  The
  generation starts again at zero, and an old ledger persists into the new state.
-/

namespace Interocitor

open CodeUnits OrderedRecord HybridClock List Option

/-! ## Comparing marks -/

theorem hlcCompare_swap (a b : Hlc) : hlcCompare b a = (hlcCompare a b).map (- ·) := by
  have hsub : ∀ x y : Num, numSub y x = (numSub x y).map (- ·) := by
    intro x y
    cases x <;> cases y <;> simp [numSub]
  have heq : ∀ x y : Num, numEq y x = numEq x y := by
    intro x y
    cases x <;> cases y <;> simp [numEq, eq_comm]
  simp only [hlcCompare, heq a.ts b.ts, heq a.counter b.counter]
  split_ifs with h₁ h₂ h₃ h₄ h₅
  · exact hsub _ _
  · exact hsub _ _
  · exact absurd h₄ (lt_asymm h₃)
  · rfl
  · rfl
  · rfl

theorem hlcCompareStr_swap (a b : Text) : hlcCompareStr b a = (hlcCompareStr a b).map (- ·) := by
  rw [hlcCompareStr, hlcCompareStr, Bool.and_comm (canonicalShape b)]
  split_ifs with h₁ h₂ h₃ h₄
  · exact absurd h₃ (lt_asymm h₂)
  · rfl
  · rfl
  · rfl
  · exact hlcCompare_swap _ _

theorem isNeg_hlcCompareStr_swap (a b : Text) :
    isNeg (hlcCompareStr b a) = isPos (hlcCompareStr a b) := by
  rw [hlcCompareStr_swap]
  cases hlcCompareStr a b <;> simp [isNeg, isPos]

theorem isNeg_hlcCompareStr_self (a : Text) : isNeg (hlcCompareStr a a) = false := by
  have hswap := hlcCompareStr_swap a a
  cases h : hlcCompareStr a a with
  | none => rfl
  | some z =>
    rw [h, map_some, some.injEq] at hswap
    have hz : z = 0 := by omega
    simp [isNeg, hz]

/-- The mark does not go back from `old` to `new`. -/
def NotBack (old new : Text) : Prop := isNeg (hlcCompareStr new old) = false

theorem notBack_laterStamp (kept : Option Text) (stamp : Text) :
    NotBack stamp (laterStamp kept stamp) := by
  rw [laterStamp]
  cases truthy kept with
  | none => exact isNeg_hlcCompareStr_self stamp
  | some k =>
    dsimp only
    split_ifs with h
    · exact isNeg_hlcCompareStr_self stamp
    · rw [NotBack, isNeg_hlcCompareStr_swap]
      exact Bool.not_eq_true _ ▸ h

theorem isNeg_hlcCompareStr_nil (a : Text) : isNeg (hlcCompareStr a []) = false := by
  have hshape : canonicalShape [] = false := rfl
  have hparse : hlcParse [] = ⟨none, none, []⟩ := by decide
  rw [hlcCompareStr, hshape, Bool.and_false, if_neg Bool.false_ne_true, hparse]
  cases h : (hlcParse a).ts <;> simp [hlcCompare, numEq, numSub, isNeg, h]

/-! ## One persist -/

namespace ChangeObservationLedger

/-- The ledger after a `persist` that was not refused: it has taken in the record. -/
def absorb (ledger : ChangeObservationLedger) (stored : Option StoredObservationState) :
    ChangeObservationLedger :=
  let durable := load stored
  { ledger with
    seenChangeFiles := durable.seenChangeFiles.foldl (fun names n => addName n names)
      ledger.seenChangeFiles
    writerFrontiers := ledger.writerFrontiers.absorb durable.writerFrontiers
    globalHighWaterHlc :=
      match truthy (some durable.globalHighWaterHlc) with
      | none => ledger.globalHighWaterHlc
      | some h => laterStamp (some ledger.globalHighWaterHlc) h }

/-- The record that `persist` writes is that of the ledger after it. -/
theorem persist_eq (ledger : ChangeObservationLedger) (stored : Option StoredObservationState) :
    ledger.persist stored =
      if ledger.generation ≠ observationGeneration stored then none
      else some ⟨ledger.generation, (ledger.absorb stored).globalHighWaterHlc,
        (ledger.absorb stored).capturedChangeFileNames, (ledger.absorb stored).writerFrontiers⟩ :=
  rfl

theorem mem_seenChangeFiles_absorb {ledger : ChangeObservationLedger}
    {stored : Option StoredObservationState} {n : Text} :
    n ∈ (ledger.absorb stored).seenChangeFiles ↔
      n ∈ receipts stored ∨ n ∈ ledger.seenChangeFiles := by
  rw [absorb, mem_foldl_addName, seenChangeFiles_load]

theorem get_foldl_laterStamp {l : List (Text × Text)} (hnodup : (l.map Prod.fst).Nodup)
    (r : Record Text Text) (writer : Text) :
    (l.foldl (fun frontiers p => frontiers.set p.1 (laterStamp (frontiers.get p.1) p.2)) r).get
        writer =
      match find writer l with
      | some f => some (laterStamp (r.get writer) f)
      | none => r.get writer := by
  induction l generalizing r with
  | nil => rfl
  | cons p l ih =>
    obtain ⟨w, f⟩ := p
    rw [map_cons, nodup_cons] at hnodup
    rw [foldl_cons, ih hnodup.2, find]
    by_cases hw : w = writer
    · subst hw
      rw [if_pos rfl, find_eq_none_iff.mpr hnodup.1]
      exact Record.get_set_self _ _ _
    · rw [if_neg hw, Record.get_set_ne _ _ hw]

theorem get_writerFrontiers_absorb (ledger : ChangeObservationLedger)
    (stored : Option StoredObservationState) (writer : Text) :
    (ledger.absorb stored).writerFrontiers.get writer =
      match (load stored).writerFrontiers.get writer with
      | some f => some (laterStamp (ledger.writerFrontiers.get writer) f)
      | none => ledger.writerFrontiers.get writer :=
  get_foldl_laterStamp (load stored).writerFrontiers.stamps.nodup ledger.writerFrontiers.stamps writer

end ChangeObservationLedger

/-- From `old` to `new` no receipt is lost and no mark goes back. -/
structure NoneLost (old new : Option StoredObservationState) : Prop where
  receipts : receipts old ⊆ receipts new
  highWater : NotBack (ChangeObservationLedger.load old).globalHighWaterHlc
    (ChangeObservationLedger.load new).globalHighWaterHlc
  frontier : ∀ writer f, (ChangeObservationLedger.load old).writerFrontiers.get writer = some f →
    ∃ f', (ChangeObservationLedger.load new).writerFrontiers.get writer = some f' ∧ NotBack f f'

theorem NoneLost.refl (stored : Option StoredObservationState) : NoneLost stored stored :=
  ⟨List.Subset.refl _, isNeg_hlcCompareStr_self _,
    fun _ f hf => ⟨f, hf, isNeg_hlcCompareStr_self f⟩⟩

theorem noneLost_persist {ledger : ChangeObservationLedger}
    {stored : Option StoredObservationState} {stored' : StoredObservationState}
    (h : ledger.persist stored = some stored') : NoneLost stored (some stored') := by
  have hmem : ∀ {n}, n ∈ receipts (some stored') ↔ n ∈ receipts stored ∨ n ∈ ledger.seenChangeFiles :=
    ChangeObservationLedger.mem_persist h
  rw [ChangeObservationLedger.persist_eq] at h
  split_ifs at h with hgen
  obtain rfl := some.inj h
  refine ⟨fun n hn => hmem.mpr (.inl hn), ?_, fun writer f hf => ?_⟩
  · change NotBack _ (ledger.absorb stored).globalHighWaterHlc
    rw [ChangeObservationLedger.absorb]
    dsimp only
    cases hhw : truthy (some (ChangeObservationLedger.load stored).globalHighWaterHlc) with
    | none =>
      -- no mark was stored
      have hnil : (ChangeObservationLedger.load stored).globalHighWaterHlc = [] := by
        by_contra hne
        rw [truthy_of_ne_nil hne] at hhw
        exact absurd hhw (by simp)
      rw [hnil]
      exact isNeg_hlcCompareStr_nil _
    | some x =>
      have hx : (ChangeObservationLedger.load stored).globalHighWaterHlc = x := by
        rw [truthy, filter_eq_some_iff] at hhw
        exact some.inj hhw.1
      rw [hx]
      exact notBack_laterStamp _ _
  · change ∃ f', (ledger.absorb stored).writerFrontiers.get writer = some f' ∧ NotBack f f'
    rw [ChangeObservationLedger.get_writerFrontiers_absorb, hf]
    exact ⟨_, rfl, notBack_laterStamp _ _⟩

namespace SharedLedger

open ChangeObservationLedger

/-! ## The steps -/

/-- A ledger that is alive, the names observed through it, and how often the record had
been replaced when it was loaded. -/
structure Handle where
  ledger : ChangeObservationLedger
  observed : List Text
  loadedAt : ℕ

/-- The record, the ledgers over it, and how often the record was replaced. -/
structure State where
  stored : Option StoredObservationState
  handles : List Handle
  replaced : ℕ

/-- The generation of the record. -/
def State.generation (s : State) : ℕ := observationGeneration s.stored

/-- The operations on ledgers and on the record; `clears` says whether the
`replaceLocalState` of a restore clears the store, as that of `rehydrate` does, and
`recorded` whether the operation goes on to write its record. -/
inductive Step where
  | load
  | observe (i : ℕ) (fileName changeHlc : Text)
  | persist (i : ℕ) (recorded : Bool)
  | reset
  | clearAll (recorded : Bool)
  | restoreSnapshot (snapshotHlc : Text) (coveredChangeFiles : List Text) (clears recorded : Bool)

/-- Put another record in place of the record. -/
def State.replace (s : State) (stored : Option StoredObservationState) : State :=
  { s with stored := stored, replaced := s.replaced + 1 }

/-- One operation. -/
def apply (s : State) : Step → State
  | .load => { s with handles := s.handles ++ [⟨load s.stored, [], s.replaced⟩] }
  | .observe i fileName changeHlc =>
    match s.handles[i]? with
    | none => s
    | some h =>
      match h.ledger.observe fileName changeHlc with
      | none => s
      | some ledger =>
        { s with handles := s.handles.set i ⟨ledger, h.observed ++ [fileName], h.loadedAt⟩ }
  | .persist i recorded =>
    match s.handles[i]? with
    | none => s
    | some h =>
      match h.ledger.persist s.stored with
      | none => s
      | some stored =>
        { s with
          stored := if recorded then some stored else s.stored
          handles := s.handles.set i { h with ledger := h.ledger.absorb s.stored } }
  | .reset => s.replace (some (.cleared (s.generation + 1)))
  | .clearAll recorded => s.replace (if recorded then some (.cleared (s.generation + 1)) else none)
  | .restoreSnapshot snapshotHlc covered clears recorded =>
    match restored (s.generation + 1) snapshotHlc covered, recorded with
    | some stored, true => s.replace (some stored)
    -- the local state is replaced before the names are looked at
    | _, _ => s.replace (if clears then none else s.stored)

/-- A clear and a restore are completed, and a restore names change files that can be recorded. -/
def Step.Sound : Step → Prop
  | .clearAll recorded => recorded = true
  | .restoreSnapshot _ covered _ recorded =>
    recorded = true ∧ ∀ n ∈ covered, isRecordable n = true
  | _ => True

/-- Runs of operations. -/
inductive Runs (s : State) : State → Prop
  | refl : Runs s s
  | step {s' : State} (h : Runs s s') (c : Step) (hc : c.Sound) : Runs s (apply s' c)

/-- A store whose record may come from an earlier session, without ledgers. -/
def start (stored : Option StoredObservationState) : State := ⟨stored, [], 0⟩

/-! ## What one operation does -/

/-- An operation leaves the record alone, or persists a ledger, or puts a record of the
next generation in its place. -/
theorem apply_cases (s : State) {c : Step} (hc : c.Sound) :
    (∃ handles, apply s c = { s with handles := handles }) ∨
      (∃ i h stored, s.handles[i]? = some h ∧ h.ledger.persist s.stored = some stored ∧
        apply s c = ⟨some stored, s.handles.set i { h with ledger := h.ledger.absorb s.stored },
          s.replaced⟩) ∨
      ∃ stored, stored.generation = s.generation + 1 ∧ apply s c = s.replace (some stored) := by
  cases c with
  | load => exact .inl ⟨_, rfl⟩
  | observe i fileName changeHlc =>
    left
    rw [apply]
    split
    · exact ⟨s.handles, rfl⟩
    · split
      · exact ⟨s.handles, rfl⟩
      · exact ⟨_, rfl⟩
  | persist i recorded =>
    rw [apply]
    split
    · exact .inl ⟨s.handles, rfl⟩
    · rename_i h hh
      split
      · exact .inl ⟨s.handles, rfl⟩
      · rename_i stored hp
        cases recorded with
        | false => exact .inl ⟨_, rfl⟩
        | true => exact .inr (.inl ⟨i, h, stored, hh, hp, rfl⟩)
  | reset => exact .inr (.inr ⟨_, rfl, rfl⟩)
  | clearAll recorded =>
    obtain rfl : recorded = true := hc
    exact .inr (.inr ⟨_, rfl, rfl⟩)
  | restoreSnapshot snapshotHlc covered clears recorded =>
    obtain ⟨rfl, hnames⟩ := hc
    obtain ⟨stored, hr⟩ := exists_restored (s.generation + 1) snapshotHlc hnames
    refine .inr (.inr ⟨stored, ?_, by simp only [apply, hr]⟩)
    rw [restored, map_eq_some_iff] at hr
    obtain ⟨ledger, -, rfl⟩ := hr
    rfl

variable {stored : Option StoredObservationState}

theorem generation_persist {ledger : ChangeObservationLedger} {stored' : StoredObservationState}
    (h : ledger.persist stored = some stored') :
    ledger.generation = observationGeneration stored ∧
      stored'.generation = observationGeneration stored := by
  rw [persist_eq] at h
  split_ifs at h with hgen
  obtain rfl := some.inj h
  exact ⟨not_not.mp hgen, not_not.mp hgen⟩

/-! ## The invariant -/

/-- What holds of a ledger: loaded into the present record, it has that record's
generation and nothing but receipts of the record and names observed through it; loaded
before, it has an earlier generation. -/
structure HandleOk (s : State) (h : Handle) : Prop where
  loadedAt : h.loadedAt ≤ s.replaced
  current : h.loadedAt = s.replaced → h.ledger.generation = s.generation
  seen : h.loadedAt = s.replaced → ∀ n ∈ h.ledger.seenChangeFiles,
    n ∈ receipts s.stored ∨ n ∈ h.observed
  observed : ∀ n ∈ h.observed, n ∈ h.ledger.seenChangeFiles
  stale : h.loadedAt < s.replaced → h.ledger.generation < s.generation

/-- Every ledger is as it should be. -/
def Inv (s : State) : Prop := ∀ h ∈ s.handles, HandleOk s h

theorem inv_start (stored : Option StoredObservationState) : Inv (start stored) :=
  fun _ h => absurd h not_mem_nil

variable {s : State}

theorem HandleOk.grow {h : Handle} (hok : HandleOk s h) {stored : StoredObservationState}
    {handles : List Handle} (hgen : stored.generation = s.generation)
    (hsub : receipts s.stored ⊆ receipts (some stored)) :
    HandleOk ⟨some stored, handles, s.replaced⟩ h where
  loadedAt := hok.loadedAt
  current hl := (hok.current hl).trans hgen.symm
  seen hl n hn := (hok.seen hl n hn).imp_left fun hr => hsub hr
  observed := hok.observed
  stale hl := lt_of_lt_of_eq (hok.stale hl) hgen.symm

theorem inv_load (h : Inv s) : Inv (apply s .load) := by
  intro x hx
  rcases mem_append.mp hx with hx | hx
  · have hok := h x hx
    exact { hok with }
  · rw [mem_singleton.mp hx]
    exact ⟨le_rfl, fun _ => rfl, fun _ n hn => .inl hn, fun n hn => absurd hn not_mem_nil,
      fun hl => absurd hl (lt_irrefl _)⟩

theorem inv_observe (h : Inv s) (i : ℕ) (fileName changeHlc : Text) :
    Inv (apply s (.observe i fileName changeHlc)) := by
  rw [apply]
  split
  · exact h
  · rename_i x hx
    split
    · exact h
    · rename_i ledger hobs
      intro y hy
      rcases mem_or_eq_of_mem_set hy with hy | rfl
      · have hok := h y hy
        exact { hok with }
      · have hok := h x (mem_of_getElem? hx)
        have hgen := generation_observe hobs
        refine ⟨hok.loadedAt, fun hl => hgen.trans (hok.current hl), fun hl n hn => ?_,
          fun n hn => ?_, fun hl => lt_of_eq_of_lt hgen (hok.stale hl)⟩
        · rcases (mem_observe hobs).mp hn with rfl | hn
          · exact .inr (mem_append_right _ mem_cons_self)
          · exact (hok.seen hl n hn).imp_right fun ho => mem_append_left _ ho
        · rcases mem_append.mp hn with hn | hn
          · exact (mem_observe hobs).mpr (.inr (hok.observed n hn))
          · exact (mem_observe hobs).mpr (.inl (mem_singleton.mp hn))

theorem inv_persist (h : Inv s) (i : ℕ) (recorded : Bool) :
    Inv (apply s (.persist i recorded)) := by
  rw [apply]
  split
  · exact h
  · rename_i x hx
    split
    · exact h
    · rename_i stored hp
      have hok := h x (mem_of_getElem? hx)
      have hobserved : ∀ n ∈ x.observed, n ∈ (x.ledger.absorb s.stored).seenChangeFiles :=
        fun n hn => mem_seenChangeFiles_absorb.mpr (.inr (hok.observed n hn))
      intro y hy
      have hhandle := mem_or_eq_of_mem_set hy
      clear hy
      cases recorded with
      | true =>
        have hgen := (generation_persist hp).2
        rcases hhandle with hold | rfl
        · exact (h y hold).grow hgen (noneLost_persist hp).receipts
        · refine ⟨hok.loadedAt, fun hl => (hok.current hl).trans hgen.symm, fun _ n hn => ?_,
            hobserved, fun hl => lt_of_lt_of_eq (hok.stale hl) hgen.symm⟩
          exact .inl ((mem_persist hp).mpr (mem_seenChangeFiles_absorb.mp hn))
      | false =>
        rcases hhandle with hold | rfl
        · have hother := h y hold
          exact { hother with }
        · -- the ledger has taken in the record, which is still the same
          refine ⟨hok.loadedAt, hok.current, fun hl n hn => ?_, hobserved, hok.stale⟩
          exact (mem_seenChangeFiles_absorb.mp hn).elim .inl (hok.seen hl n)

theorem inv_replace (h : Inv s) {stored : StoredObservationState}
    (hgen : stored.generation = s.generation + 1) : Inv (s.replace (some stored)) := by
  intro x hx
  have hok := h x hx
  have hlt : x.ledger.generation < stored.generation := by
    rcases hok.loadedAt.eq_or_lt with hl | hl
    · rw [hgen, hok.current hl]
      exact Nat.lt_succ_self _
    · rw [hgen]
      exact Nat.lt_succ_of_lt (hok.stale hl)
  have hpast : x.loadedAt < s.replaced + 1 := Nat.lt_succ_of_le hok.loadedAt
  exact ⟨hpast.le, fun hl => absurd hl hpast.ne, fun hl => absurd hl hpast.ne, hok.observed,
    fun _ => hlt⟩

theorem inv_apply (h : Inv s) {c : Step} (hc : c.Sound) : Inv (apply s c) := by
  cases c with
  | load => exact inv_load h
  | observe i fileName changeHlc => exact inv_observe h i fileName changeHlc
  | persist i recorded => exact inv_persist h i recorded
  | reset => exact inv_replace h rfl
  | clearAll recorded =>
    obtain rfl : recorded = true := hc
    exact inv_replace h rfl
  | restoreSnapshot snapshotHlc covered clears recorded =>
    obtain ⟨rfl, hnames⟩ := hc
    obtain ⟨stored, hr⟩ := exists_restored (s.generation + 1) snapshotHlc hnames
    simp only [apply, hr]
    refine inv_replace h ?_
    rw [restored, map_eq_some_iff] at hr
    obtain ⟨ledger, -, rfl⟩ := hr
    rfl

theorem inv_runs {s s' : State} (h : Inv s) (hruns : Runs s s') : Inv s' := by
  induction hruns with
  | refl => exact h
  | step _ _ hc ih => exact inv_apply ih hc

/-! ## Generations -/

theorem noneLost_apply (s : State) {c : Step} (hc : c.Sound) :
    ((apply s c).generation = s.generation ∧ NoneLost s.stored (apply s c).stored) ∨
      (apply s c).generation = s.generation + 1 := by
  rcases apply_cases s hc with ⟨handles, heq⟩ | ⟨i, h, stored, -, hp, heq⟩ | ⟨stored, hgen, heq⟩
  · rw [heq]
    exact .inl ⟨rfl, NoneLost.refl _⟩
  · rw [heq]
    exact .inl ⟨(generation_persist hp).2, noneLost_persist hp⟩
  · rw [heq]
    exact .inr hgen

theorem generation_le_runs {s s' : State} (h : Runs s s') : s.generation ≤ s'.generation := by
  induction h with
  | refl => exact le_rfl
  | step _ _ hc ih =>
    rcases noneLost_apply _ hc with ⟨hgen, -⟩ | hgen
    · exact ih.trans hgen.ge
    · exact ih.trans (hgen ▸ Nat.le_succ _)

theorem receipts_subset_runs {s s' : State} (h : Runs s s')
    (hgen : s'.generation = s.generation) : receipts s.stored ⊆ receipts s'.stored := by
  induction h with
  | refl => exact List.Subset.refl _
  | step hruns c hc ih =>
    rename_i s₁
    rcases noneLost_apply s₁ hc with ⟨hsame, hlost⟩ | hnext
    · exact List.Subset.trans (ih (hsame.symm.trans hgen)) hlost.receipts
    · have hle := generation_le_runs hruns
      omega

/-! ## Marks over a stretch of a run -/

/-- A mark that is absent or was serialized from a clock. -/
def Mark (t : Text) : Prop := t = [] ∨ Serialized t

/-- The marks of a record or a ledger. -/
structure MarksOk (ledger : ChangeObservationLedger) : Prop where
  highWater : Mark ledger.globalHighWaterHlc
  frontier : ∀ writer f, ledger.writerFrontiers.get writer = some f → Mark f

/-- The stamps that an operation brings in are serialized. -/
def Step.Stamped : Step → Prop
  | .observe _ fileName changeHlc => Mark changeHlc ∧ ∀ f, changeFileHlc fileName = some f → Mark f
  | .restoreSnapshot snapshotHlc covered _ _ =>
    Mark snapshotHlc ∧ ∀ n ∈ covered, ∀ f, changeFileHlc n = some f → Mark f
  | _ => True

/-- Runs whose stamps are serialized. -/
inductive StampedRuns (s : State) : State → Prop
  | refl : StampedRuns s s
  | step {s' : State} (h : StampedRuns s s') (c : Step) (hc : c.Sound) (hs : c.Stamped) :
      StampedRuns s (apply s' c)

theorem StampedRuns.runs {s s' : State} (h : StampedRuns s s') : Runs s s' := by
  induction h with
  | refl => exact .refl
  | step _ c hc _ ih => exact .step ih c hc

theorem mark_laterStamp {kept : Option Text} {stamp : Text} (hk : ∀ k, kept = some k → Mark k)
    (hs : Mark stamp) : Mark (laterStamp kept stamp) := by
  rw [laterStamp]
  cases h : truthy kept with
  | none => exact hs
  | some k =>
    dsimp only
    split_ifs
    · exact hs
    · rw [truthy, filter_eq_some_iff] at h
      exact hk k h.1

theorem marksOk_observe {ledger ledger' : ChangeObservationLedger} {fileName changeHlc : Text}
    (h : ledger.observe fileName changeHlc = some ledger') (hok : MarksOk ledger)
    (hhlc : Mark changeHlc) (hfile : ∀ f, changeFileHlc fileName = some f → Mark f) :
    MarksOk ledger' := by
  obtain ⟨fileHlc, -, hf, rfl⟩ := observe_eq_some_iff.mp h
  refine ⟨mark_laterStamp (fun k hk => some.inj hk ▸ hok.highWater) hhlc, ?_⟩
  intro writer f hget
  change (ledger.writerFrontiers.stamps.set _ _).get writer = some f at hget
  rw [Record.get_set] at hget
  split_ifs at hget
  · obtain rfl := some.inj hget
    exact mark_laterStamp (fun k hk => hok.frontier _ k hk) (hfile fileHlc hf)
  · exact hok.frontier writer f hget

theorem marksOk_absorb {ledger : ChangeObservationLedger} (hok : MarksOk ledger)
    (hstored : MarksOk (load stored)) : MarksOk (ledger.absorb stored) := by
  constructor
  · rw [absorb]
    dsimp only
    split
    · exact hok.highWater
    · rename_i x hx
      rw [truthy, filter_eq_some_iff] at hx
      exact mark_laterStamp (fun k hk => some.inj hk ▸ hok.highWater)
        (some.inj hx.1 ▸ hstored.highWater)
  · intro writer f hf
    rw [get_writerFrontiers_absorb] at hf
    cases hdurable : (load stored).writerFrontiers.get writer with
    | none =>
      rw [hdurable] at hf
      exact hok.frontier writer f hf
    | some g =>
      rw [hdurable] at hf
      obtain rfl := some.inj hf
      exact mark_laterStamp (fun k hk => hok.frontier _ k hk) (hstored.frontier writer g hdurable)

theorem marksOk_observeCovered {names : List Text} {ledger ledger' : ChangeObservationLedger}
    (h : observeCovered names ledger = some ledger') (hok : MarksOk ledger)
    (hnames : ∀ n ∈ names, ∀ f, changeFileHlc n = some f → Mark f) : MarksOk ledger' := by
  induction names generalizing ledger with
  | nil =>
    obtain rfl := some.inj h
    exact hok
  | cons n names ih =>
    rw [observeCovered] at h
    cases ho : (changeFileHlc n).bind fun fileHlc => ledger.observe n fileHlc with
    | none =>
      rw [ho] at h
      exact absurd h (by simp)
    | some ledger₁ =>
      rw [ho] at h
      obtain ⟨fileHlc, hf, hobs⟩ := bind_eq_some_iff.mp ho
      have hmark := hnames n mem_cons_self
      exact ih h (marksOk_observe hobs hok (hmark fileHlc hf) hmark)
        fun m hm => hnames m (mem_cons_of_mem _ hm)

theorem marksOk_restored {generation : ℕ} {snapshotHlc : Text} {covered : List Text}
    {stored : StoredObservationState} (h : restored generation snapshotHlc covered = some stored)
    (hhlc : Mark snapshotHlc) (hnames : ∀ n ∈ covered, ∀ f, changeFileHlc n = some f → Mark f) :
    MarksOk (load (some stored)) := by
  rw [restored, map_eq_some_iff] at h
  obtain ⟨ledger, hl, rfl⟩ := h
  have hempty : MarksOk ⟨snapshotHlc, [], ∅, true, generation⟩ :=
    ⟨hhlc, fun _ _ hf => absurd hf (by simp)⟩
  have hok := marksOk_observeCovered hl hempty hnames
  refine ⟨?_, hok.frontier⟩
  change Mark (if _ then snapshotHlc else ledger.globalHighWaterHlc)
  split_ifs
  · exact hhlc
  · exact hok.highWater

/-- The marks of the record and of every ledger. -/
def AllMarks (s : State) : Prop :=
  MarksOk (load s.stored) ∧ ∀ h ∈ s.handles, MarksOk h.ledger

theorem marksOk_cleared (generation : ℕ) : MarksOk (load (some (.cleared generation))) :=
  ⟨.inl rfl, fun _ _ hf => absurd hf (by simp [load, StoredObservationState.cleared])⟩

theorem allMarks_apply (h : AllMarks s) {c : Step} (hc : c.Sound) (hs : c.Stamped) :
    AllMarks (apply s c) := by
  cases c with
  | load =>
    refine ⟨h.1, fun x hx => ?_⟩
    rcases mem_append.mp hx with hx | hx
    · exact h.2 x hx
    · rw [mem_singleton.mp hx]
      exact h.1
  | observe i fileName changeHlc =>
    rw [apply]
    split
    · exact h
    · rename_i x hx
      split
      · exact h
      · rename_i ledger hobs
        refine ⟨h.1, fun y hy => ?_⟩
        rcases mem_or_eq_of_mem_set hy with hy | rfl
        · exact h.2 y hy
        · exact marksOk_observe hobs (h.2 x (mem_of_getElem? hx)) hs.1 hs.2
  | persist i recorded =>
    rw [apply]
    split
    · exact h
    · rename_i x hx
      split
      · exact h
      · rename_i stored hp
        have habsorb := marksOk_absorb (h.2 x (mem_of_getElem? hx)) h.1
        refine ⟨?_, fun y hy => ?_⟩
        · cases recorded with
          | false => exact h.1
          | true =>
            rw [persist_eq] at hp
            split_ifs at hp
            obtain rfl := some.inj hp
            exact ⟨habsorb.highWater, habsorb.frontier⟩
        · rcases mem_or_eq_of_mem_set hy with hy | rfl
          · exact h.2 y hy
          · exact habsorb
  | reset => exact ⟨marksOk_cleared _, h.2⟩
  | clearAll recorded =>
    obtain rfl : recorded = true := hc
    exact ⟨marksOk_cleared _, h.2⟩
  | restoreSnapshot snapshotHlc covered clears recorded =>
    obtain ⟨rfl, hnames⟩ := hc
    obtain ⟨stored, hr⟩ := exists_restored (s.generation + 1) snapshotHlc hnames
    simp only [apply, hr]
    exact ⟨marksOk_restored hr hs.1 hs.2, h.2⟩

/-- The mark `new` is not before `old`. -/
def MarkLe (old new : Text) : Prop :=
  old = [] ∨ (Serialized old ∧ Serialized new ∧ stampOf old ≤ stampOf new)

theorem MarkLe.refl {t : Text} (h : Mark t) : MarkLe t t :=
  h.imp_right fun hs => ⟨hs, hs, le_rfl⟩

theorem MarkLe.trans {a b c : Text} (hab : MarkLe a b) (hbc : MarkLe b c) : MarkLe a c := by
  rcases hab with ha | ⟨ha, hb, hle⟩
  · exact .inl ha
  · rcases hbc with rfl | ⟨-, hc, hle'⟩
    · exact absurd rfl hb.ne_nil
    · exact .inr ⟨ha, hc, hle.trans hle'⟩

theorem MarkLe.notBack {a b : Text} (h : MarkLe a b) : NotBack a b := by
  rcases h with rfl | ⟨ha, hb, hle⟩
  · exact isNeg_hlcCompareStr_nil b
  · rw [NotBack, ← Bool.not_eq_true, hb.isNeg_compare ha, not_lt]
    exact hle

theorem markLe_laterStamp {kept : Option Text} {stamp : Text} (hk : ∀ k, kept = some k → Mark k)
    (hs : Mark stamp) : MarkLe stamp (laterStamp kept stamp) := by
  rcases hs with hs | hs
  · exact .inl hs
  · rw [laterStamp]
    cases h : truthy kept with
    | none => exact .refl (.inr hs)
    | some k =>
      rw [truthy, filter_eq_some_iff, decide_eq_true_iff] at h
      have hks : Serialized k := (hk k h.1).resolve_left h.2
      dsimp only
      split_ifs with hpos
      · exact .refl (.inr hs)
      · rw [hs.isPos_compare hks, not_lt] at hpos
        exact .inr ⟨hs, hks, hpos⟩

/-- From `old` to `new` no receipt is lost and every mark is at or after the old one. -/
structure Ahead (old new : Option StoredObservationState) : Prop where
  receipts : receipts old ⊆ receipts new
  highWater : MarkLe (load old).globalHighWaterHlc (load new).globalHighWaterHlc
  frontier : ∀ writer f, (load old).writerFrontiers.get writer = some f →
    ∃ f', (load new).writerFrontiers.get writer = some f' ∧ MarkLe f f'

theorem Ahead.refl (h : MarksOk (load stored)) : Ahead stored stored :=
  ⟨List.Subset.refl _, .refl h.highWater, fun w f hf => ⟨f, hf, .refl (h.frontier w f hf)⟩⟩

theorem Ahead.trans {a b c : Option StoredObservationState} (hab : Ahead a b) (hbc : Ahead b c) :
    Ahead a c := by
  refine ⟨List.Subset.trans hab.receipts hbc.receipts, hab.highWater.trans hbc.highWater, ?_⟩
  intro writer f hf
  obtain ⟨f', hf', hle⟩ := hab.frontier writer f hf
  obtain ⟨f'', hf'', hle'⟩ := hbc.frontier writer f' hf'
  exact ⟨f'', hf'', hle.trans hle'⟩

theorem Ahead.noneLost {a b : Option StoredObservationState} (h : Ahead a b) : NoneLost a b := by
  refine ⟨h.receipts, h.highWater.notBack, fun writer f hf => ?_⟩
  obtain ⟨f', hf', hle⟩ := h.frontier writer f hf
  exact ⟨f', hf', hle.notBack⟩

theorem ahead_persist {ledger : ChangeObservationLedger} {stored' : StoredObservationState}
    (h : ledger.persist stored = some stored') (hok : MarksOk ledger)
    (hstored : MarksOk (load stored)) : Ahead stored (some stored') := by
  have hreceipts := (noneLost_persist h).receipts
  rw [persist_eq] at h
  split_ifs at h
  obtain rfl := some.inj h
  refine ⟨hreceipts, ?_, fun writer f hf => ?_⟩
  · change MarkLe _ (ledger.absorb stored).globalHighWaterHlc
    rw [absorb]
    dsimp only
    cases hhw : truthy (some (load stored).globalHighWaterHlc) with
    | none =>
      left
      by_contra hne
      rw [truthy_of_ne_nil hne] at hhw
      exact absurd hhw (by simp)
    | some x =>
      rw [truthy, filter_eq_some_iff] at hhw
      obtain rfl := some.inj hhw.1
      exact markLe_laterStamp (fun k hk => some.inj hk ▸ hok.highWater) hstored.highWater
  · change ∃ f', (ledger.absorb stored).writerFrontiers.get writer = some f' ∧ MarkLe f f'
    rw [get_writerFrontiers_absorb, hf]
    exact ⟨_, rfl, markLe_laterStamp (fun k hk => hok.frontier _ k hk)
      (hstored.frontier writer f hf)⟩

theorem allMarks_runs {s s' : State} (h : AllMarks s) (hruns : StampedRuns s s') : AllMarks s' := by
  induction hruns with
  | refl => exact h
  | step _ _ hc hs ih => exact allMarks_apply ih hc hs

theorem ahead_runs {s s' : State} (h : AllMarks s) (hruns : StampedRuns s s')
    (hgen : s'.generation = s.generation) : Ahead s.stored s'.stored := by
  induction hruns with
  | refl => exact .refl h.1
  | step hruns c hc hs ih =>
    rename_i s₁
    have hle := generation_le_runs hruns.runs
    have hmarks := allMarks_runs h hruns
    rcases apply_cases s₁ hc with ⟨handles, heq⟩ | ⟨i, x, stored, hx, hp, heq⟩ |
      ⟨stored, hnext, heq⟩
    · rw [heq] at hgen ⊢
      exact ih hgen
    · rw [heq] at hgen ⊢
      refine (ih ?_).trans (ahead_persist hp (hmarks.2 x (mem_of_getElem? hx)) hmarks.1)
      exact (generation_persist hp).2.symm.trans hgen
    · rw [heq] at hgen
      change stored.generation = s.generation at hgen
      omega

/-! ## The theorem -/

/-- What the ledgers over one record promise, in a state. -/
structure Safe (s : State) : Prop where
  /-- A `persist` that is not refused leaves the union of what was stored and what the
  ledger observed. -/
  union : ∀ (i : ℕ) (h : Handle) stored, s.handles[i]? = some h → h.ledger.persist s.stored = some stored →
    ∀ n, n ∈ receipts (some stored) ↔ n ∈ receipts s.stored ∨ n ∈ h.observed
  /-- An operation that keeps the generation loses no receipt and moves no mark back. -/
  step : ∀ c : Step, c.Sound → (apply s c).generation = s.generation →
    NoneLost s.stored (apply s c).stored
  /-- Within a generation receipts are never lost. -/
  grows : ∀ s', Runs s s' → s'.generation = s.generation → receipts s.stored ⊆ receipts s'.stored
  /-- Within a generation no mark that was serialized from a clock ever goes back. -/
  marks : AllMarks s → ∀ s', StampedRuns s s' → s'.generation = s.generation →
    NoneLost s.stored s'.stored
  /-- A ledger loaded before the last replacement of the record changes nothing. -/
  fenced : ∀ (i : ℕ) (h : Handle), s.handles[i]? = some h → h.loadedAt < s.replaced →
    h.ledger.persist s.stored = none ∧ ∀ recorded, apply s (.persist i recorded) = s

theorem safe_of_inv (h : Inv s) : Safe s where
  union i x stored hx hp n := by
    have hok := h x (mem_of_getElem? hx)
    rw [mem_persist hp]
    refine ⟨fun hn => hn.elim .inl fun hn => ?_, fun hn => hn.imp_right fun ho => hok.observed n ho⟩
    -- a ledger that persists is one of the present record
    have hnow : x.loadedAt = s.replaced := by
      refine hok.loadedAt.eq_or_lt.resolve_right fun hl => ?_
      have hlt := hok.stale hl
      rw [(generation_persist hp).1] at hlt
      exact lt_irrefl _ hlt
    exact hok.seen hnow n hn
  step c hc hgen := by
    rcases noneLost_apply s hc with ⟨-, hlost⟩ | hnext
    · exact hlost
    · omega
  grows _ hruns hgen := receipts_subset_runs hruns hgen
  marks hmarks _ hruns hgen := (ahead_runs hmarks hruns hgen).noneLost
  fenced i x hx hl := by
    have hlt := (h x (mem_of_getElem? hx)).stale hl
    have hnone : x.ledger.persist s.stored = none := by
      rw [persist_eq, if_pos]
      exact hlt.ne
    refine ⟨hnone, fun recorded => ?_⟩
    simp only [apply, hx, hnone]

/-- **The ledgers lose no receipt.**  In every state that any number of ledgers reach over
one store, by any interleaving in which clears and restores are completed and every restore
names change files that can be recorded, the promises hold. -/
theorem ledger_safe (stored : Option StoredObservationState) {s : State}
    (h : Runs (start stored) s) : Safe s :=
  safe_of_inv (inv_runs (inv_start stored) h)

/-! ## A restore that fails -/

/-- `"-chg_1.json"`, the name of a change file. -/
def exampleName : Text := [45, 99, 104, 103, 95, 49, 46, 106, 115, 111, 110]

/-- A ledger is loaded and observes a file; a restore of a snapshot that covers the file
`"x"` clears the store and fails. -/
def afterFailedRestore : State :=
  [Step.load, .observe 0 exampleName [], .restoreSnapshot [] [[120]] true true].foldl apply (start none)

/-- **A failed restore revives an old ledger.**  The ledger was loaded before the restore;
after it, its `persist` writes the receipt of a file whose rows are gone. -/
theorem failed_restore_revives_an_old_ledger :
    ¬ Safe afterFailedRestore ∧ receipts (apply afterFailedRestore (.persist 0 true)).stored =
      [exampleName] ∧ receipts afterFailedRestore.stored = [] := by
  refine ⟨fun h => ?_, by decide, by decide⟩
  obtain ⟨x, hx, hl⟩ : ∃ x, afterFailedRestore.handles[0]? = some x ∧
      x.loadedAt < afterFailedRestore.replaced := ⟨_, rfl, by decide⟩
  have hsame := congrArg (fun s => receipts s.stored) ((h.fenced 0 x hx hl).2 true)
  exact absurd hsame (by decide)

/-- A run in which two ledgers overlap, and are superseded by a restore. -/
theorem two_ledgers_safe :
    Safe ([Step.load, .load, .observe 0 exampleName [], .persist 0 true, .persist 1 true,
      .restoreSnapshot [] [exampleName] true true, .persist 1 true].foldl apply (start none)) :=
  ledger_safe none ((((((((Runs.refl.step .load trivial).step .load trivial).step
    (.observe 0 exampleName []) trivial).step (.persist 0 true) trivial).step
      (.persist 1 true) trivial).step (.restoreSnapshot [] [exampleName] true true)
        ⟨rfl, by decide⟩).step (.persist 1 true) trivial))

end SharedLedger

end Interocitor
