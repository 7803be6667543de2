import Interocitor.Core.Transfer
import Interocitor.Foundation.Comparators
import Interocitor.Foundation.Prefetch

/-!
# `pull.ts`: which change files are applied, and in which order

A pull lists the changes folder, sorts the listing by `compareChangeFiles`, keeps the change files
without a receipt, each once, and goes through them with up to four reads in flight ahead of the
one it applies.  The receipts are written at the end.

The comparison orders two change files by their stamps and anything else by name.  Names do not
order change files as stamps do: the counter may have outgrown its four digits, and a node id is
followed by the dash of `-chg_`, so that `dev-1` comes before `dev` among names and after it among
stamps.  A name without the marker that lies between two such names closes a circle, and on a
circle a sort may return anything.

* `pulls_once_in_order_iff`: exactly for those, and where the unseen files have one stamp, a pull
  does what it is asked to.
-/

namespace Interocitor

open CodeUnits OrderedRecord HybridClock Comparators Prefetch List Option

namespace PullWindow

/-! ## The pull -/

/-- The filter that follows the sort, with the names seen so far. -/
def unseenFrom (ledger : ChangeObservationLedger) : List Text → List Text → List Text
  | _, [] => []
  | seen, file :: rest =>
    if file = headName ∨ file ∈ seen then unseenFrom ledger seen rest
    else if ledger.isUnseenChange file then file :: unseenFrom ledger (file :: seen) rest
    else unseenFrom ledger (file :: seen) rest

/-- The names to read, by a sort of the platform. -/
def unseenBy (S : ArraySort Text) (ledger : ChangeObservationLedger) (files : List Text) :
    Option (List Text) :=
  (S.sort (fun a b => some (compareChangeFiles a b)) files).map (unseenFrom ledger [])

/-- `PULL_PREFETCH_WINDOW`. -/
def prefetchWindow : ℕ := 4

/-- What the loop works on. -/
structure Progress where
  store : LocalStore
  hlc : Hlc
  ledger : ChangeObservationLedger

/-- `decodeChangePayload`; `none` is an error. -/
def decoded (manifest : Option Manifest) (store : LocalStore) :
    Content → Option (LocalStore × ChangeEntry)
  | .change meshId entry =>
    if meshId = [] then none
    else
      match (meshConflict (manifest.map fun m => m.meshId) meshId).or
          (meshConflict store.metadata.meshId meshId) with
      | some _ => none
      | none =>
        some ({ store with metadata := { store.metadata with meshId := some meshId } }, entry)
  | _ => none

/-- One turn of the loop, from what was read; `none` is an error, with which the pull fails. -/
def mergeFile (manifest : Option Manifest) (schema : Option DatabaseSchemaDefinition) (wall : ℕ)
    (name : Text) (content : Content) (p : Progress) : Option Progress :=
  (decoded manifest p.store content).bind fun d =>
    match mergeEntry d.1 d.2 ((manifest.map fun m => m.schema).getD 1) schema with
    | .error _ => none
    | .ok store =>
      (p.ledger.observe name d.2.hlc).map fun ledger =>
        ⟨store, hlcReceive wall p.hlc (hlcParse d.2.hlc), ledger⟩

/-- Between two turns local writes may change the store, but not the receipts. -/
def LocalChange (p q : Progress) : Prop :=
  q.store.metadata.changeObservation = p.store.metadata.changeObservation ∧ q.hlc = p.hlc ∧
    q.ledger = p.ledger

/-- The store after the loop: the receipts and the clock are written. -/
def persisted (p : Progress) : LocalStore :=
  { p.store with
    metadata :=
      { p.store.metadata with
        changeObservation :=
          (p.ledger.persist p.store.metadata.changeObservation).or
            p.store.metadata.changeObservation
        hlc := some (hlcSerialize p.hlc) } }

/-- A pull that completes, from the listing on: the names whose reads it issued, those it applied,
and the store that it leaves. -/
def Pulls (S : ArraySort Text) (files : List Text) (store : LocalStore) (issued applied : List Text)
    (store' : LocalStore) : Prop :=
  ∃ (manifest : Option Manifest) (schema : Option DatabaseSchemaDefinition) (hlc : Hlc)
    (unseen : List Text) (s : Loop Text Content Progress),
    unseenBy S (.load store.metadata.changeObservation) files = some unseen ∧
      Relation.ReflTransGen
        (Step unseen prefetchWindow
          (fun name content p q => ∃ wall, mergeFile manifest schema wall name content p = some q)
          LocalChange)
        (start unseen prefetchWindow ⟨store, hlc, .load store.metadata.changeObservation⟩) s ∧
      s.index = unseen.length ∧ issued = s.issued ∧ applied = s.applied ∧ store' = persisted s.state

/-! ## What a pull is asked to do -/

/-- Not out of order, as far as the stamps go. -/
def InOrder (a b : Text) : Prop :=
  ∀ s t, changeFileHlc a = some s → changeFileHlc b = some t → isPos (hlcCompareStr s t) = false

/-- Reads and applies exactly the distinct change files without a receipt, each once and in the
order of their stamps, and leaves receipts for the files it held one for and for these. -/
def OnceInOrder (files : List Text) (store : LocalStore) (issued applied : List Text)
    (store' : LocalStore) : Prop :=
  issued = applied ∧ applied.Nodup ∧
    (∀ n, n ∈ applied ↔ n ∈ files ∧ (changeFileHlc n).isSome = true ∧
      n ∉ receipts store.metadata.changeObservation) ∧
    applied.Pairwise InOrder ∧
    ∀ n, n ∈ receipts store'.metadata.changeObservation ↔
      n ∈ receipts store.metadata.changeObservation ∨ n ∈ applied

/-- Change files carry stamps that `hlcSerialize` produced. -/
def Stamped (files : List Text) : Prop :=
  ∀ n ∈ files, ∀ s, changeFileHlc n = some s → ∃ stamp : Stamp Text, s = stampText stamp

/-- No name without the marker lies between the names of two change files whose names are not in the
order of their stamps. -/
def NoWedge (files : List Text) : Prop :=
  ∀ a ∈ files, ∀ b ∈ files, ∀ f ∈ files, ∀ s t, changeFileHlc a = some s →
    changeFileHlc b = some t → changeFileHlc f = none → isNeg (hlcCompareStr s t) = true →
      ¬(b < f ∧ f < a)

/-- The change files without a receipt all have one stamp. -/
def OneStamp (files : List Text) (store : LocalStore) : Prop :=
  ∀ a ∈ files, ∀ b ∈ files, ∀ s t, changeFileHlc a = some s → changeFileHlc b = some t →
    a ∉ receipts store.metadata.changeObservation → b ∉ receipts store.metadata.changeObservation →
      s = t

/-- A change file without a receipt cannot be recorded: its writer id is a name that every plain
object inherits.  No pull gets past it. -/
def Blocked (files : List Text) (store : LocalStore) : Prop :=
  ∃ n ∈ files, (changeFileHlc n).isSome = true ∧
    n ∉ receipts store.metadata.changeObservation ∧ isRecordable n = false

/-! ## The files that are read -/

section Unseen

variable {ledger : ChangeObservationLedger}

theorem mem_unseenFrom {seen files : List Text} {n : Text} :
    n ∈ unseenFrom ledger seen files ↔
      n ∈ files ∧ n ∉ seen ∧ n ≠ headName ∧ ledger.isUnseenChange n = true := by
  induction files generalizing seen with
  | nil => simp [unseenFrom]
  | cons file rest ih =>
    rw [unseenFrom]
    split_ifs with hskip hunseen
    · rw [ih, mem_cons]
      constructor
      · rintro ⟨hn, hrest⟩
        exact ⟨Or.inr hn, hrest⟩
      · rintro ⟨rfl | hn, hseen, hhead, hunseen⟩
        · exact (hskip.elim hhead hseen).elim
        · exact ⟨hn, hseen, hhead, hunseen⟩
    · rw [mem_cons, ih, mem_cons, mem_cons, not_or]
      rw [not_or] at hskip
      constructor
      · rintro (rfl | ⟨hn, ⟨-, hseen⟩, hrest⟩)
        · exact ⟨Or.inl rfl, hskip.2, hskip.1, hunseen⟩
        · exact ⟨Or.inr hn, hseen, hrest⟩
      · rintro ⟨rfl | hn, hseen, hrest⟩
        · exact Or.inl rfl
        · by_cases heq : n = file
          · exact Or.inl heq
          · exact Or.inr ⟨hn, ⟨heq, hseen⟩, hrest⟩
    · rw [ih, mem_cons, mem_cons, not_or]
      constructor
      · rintro ⟨hn, ⟨-, hseen⟩, hrest⟩
        exact ⟨Or.inr hn, hseen, hrest⟩
      · rintro ⟨rfl | hn, hseen, hhead, hother⟩
        · exact absurd hother hunseen
        · refine ⟨hn, ⟨?_, hseen⟩, hhead, hother⟩
          rintro rfl
          exact hunseen hother

theorem nodup_unseenFrom (seen files : List Text) : (unseenFrom ledger seen files).Nodup := by
  induction files generalizing seen with
  | nil => exact nodup_nil
  | cons file rest ih =>
    rw [unseenFrom]
    split_ifs with hskip hunseen
    · exact ih seen
    · rw [nodup_cons, mem_unseenFrom]
      exact ⟨fun h => h.2.1 mem_cons_self, ih _⟩
    · exact ih _

theorem sublist_unseenFrom (seen files : List Text) :
    (unseenFrom ledger seen files).Sublist files := by
  induction files generalizing seen with
  | nil => exact List.Sublist.refl _
  | cons file rest ih =>
    rw [unseenFrom]
    split_ifs
    · exact (ih seen).cons file
    · exact (ih _).cons_cons file
    · exact (ih _).cons file

theorem ne_headName {n : Text} (h : (changeFileHlc n).isSome = true) : n ≠ headName := by
  rintro rfl
  exact absurd h (by decide)

theorem isUnseenChange_iff {n : Text} :
    ledger.isUnseenChange n = true ↔
      (changeFileHlc n).isSome = true ∧ n ∉ ledger.seenChangeFiles := by
  rw [ChangeObservationLedger.isUnseenChange, Bool.and_eq_true, decide_eq_true_eq]

end Unseen

/-! ## The comparison -/

theorem stampText_ne_nil (s : Stamp Text) : stampText s ≠ [] := by
  rw [stampText_eq]
  exact fun h => absurd (append_eq_nil_iff.mp h).2 (cons_ne_nil _ _)

theorem truthy_stampText (s : Stamp Text) : truthy (some (stampText s)) = some (stampText s) := by
  rw [truthy, filter_some, if_pos (decide_eq_true (stampText_ne_nil s))]

/-- The order of names. -/
def byName (a b : Text) : ℤ := if a < b then -1 else if b < a then 1 else 0

variable {a b : Text}

theorem byName_neg : byName a b < 0 ↔ a < b := by
  rw [byName]
  split_ifs <;> simp_all

theorem byName_pos : 0 < byName a b ↔ b < a := by
  rw [byName]
  split_ifs with h h'
  · simpa using le_of_lt h
  · simpa using h'
  · simpa using h'

theorem byName_eq_zero : byName a b = 0 ↔ a = b := by
  rw [byName]
  split_ifs with h h'
  · simpa using ne_of_lt h
  · simpa using (ne_of_lt h').symm
  · simpa using le_antisymm (not_lt.mp h') (not_lt.mp h)

theorem compare_foreign (h : changeFileHlc a = none ∨ changeFileHlc b = none) :
    compareChangeFiles a b = byName a b := by
  rw [compareChangeFiles, byName]
  rcases h with h | h
  · rw [h]
    rfl
  · rw [h]
    cases truthy (changeFileHlc a) <;> rfl

theorem hlcCompareStr_isSome (s t : Stamp Text) :
    ∃ z, hlcCompareStr (stampText s) (stampText t) = some z := by
  rw [hlcCompareStr]
  split_ifs
  · exact ⟨_, rfl⟩
  · exact ⟨_, rfl⟩
  · exact ⟨_, rfl⟩
  · rw [hlcParse_stampText, hlcParse_stampText, hlcCompare_ofStamp]
    split_ifs <;> exact ⟨_, rfl⟩

theorem compare_stamped {s t : Stamp Text} (ha : changeFileHlc a = some (stampText s))
    (hb : changeFileHlc b = some (stampText t)) :
    (compareChangeFiles a b < 0 ↔ s < t ∨ (s = t ∧ a < b)) ∧
      (0 < compareChangeFiles a b ↔ t < s ∨ (s = t ∧ b < a)) := by
  obtain ⟨z, hz⟩ := hlcCompareStr_isSome s t
  have hneg := isNeg_hlcCompareStr s t
  have hpos := isPos_hlcCompareStr s t
  rw [hz] at hneg hpos
  simp only [isNeg, isPos, any_some, decide_eq_true_eq] at hneg hpos
  rw [compareChangeFiles, ha, hb, truthy_stampText, truthy_stampText]
  simp only [hz]
  by_cases hzero : z = 0
  · have hst : s = t := by
      refine le_antisymm (not_lt.mp fun h => ?_) (not_lt.mp fun h => ?_)
      · have := hpos.mpr h
        omega
      · have := hneg.mpr h
        omega
    subst hst
    rw [if_neg (not_not.mpr hzero)]
    have hbyName : (if a < b then -1 else if b < a then 1 else 0 : ℤ) = byName a b := rfl
    rw [hbyName, byName_neg, byName_pos]
    simp
  · rw [if_pos hzero, hneg, hpos]
    constructor
    · refine ⟨Or.inl, fun h => h.elim id fun h => ?_⟩
      rw [h.1] at hneg hpos
      have h1 := (not_congr hneg).mpr (lt_irrefl _)
      have h2 := (not_congr hpos).mpr (lt_irrefl _)
      omega
    · refine ⟨Or.inl, fun h => h.elim id fun h => ?_⟩
      rw [h.1] at hneg hpos
      have h1 := (not_congr hneg).mpr (lt_irrefl _)
      have h2 := (not_congr hpos).mpr (lt_irrefl _)
      omega

section Consistency

variable {files : List Text}

theorem Stamped.cases (h : Stamped files) {n : Text} (hn : n ∈ files) :
    changeFileHlc n = none ∨ ∃ s : Stamp Text, changeFileHlc n = some (stampText s) := by
  rcases hname : changeFileHlc n with _ | s
  · exact Or.inl rfl
  · obtain ⟨stamp, rfl⟩ := h n hn s hname
    exact Or.inr ⟨stamp, rfl⟩

theorem compare_pos_iff (h : Stamped files) (ha : a ∈ files) (hb : b ∈ files) :
    0 < compareChangeFiles a b ↔ compareChangeFiles b a < 0 := by
  rcases h.cases ha with hforeign | ⟨s, hs⟩
  · rw [compare_foreign (Or.inl hforeign), compare_foreign (Or.inr hforeign), byName_pos,
      byName_neg]
  · rcases h.cases hb with hforeign | ⟨t, ht⟩
    · rw [compare_foreign (Or.inr hforeign), compare_foreign (Or.inl hforeign), byName_pos,
        byName_neg]
    · rw [(compare_stamped hs ht).2, (compare_stamped ht hs).1]
      exact or_congr Iff.rfl (and_congr eq_comm Iff.rfl)

theorem compare_eq_zero_iff (h : Stamped files) (ha : a ∈ files) (hb : b ∈ files) :
    compareChangeFiles a b = 0 ↔ a = b := by
  by_cases hforeign : changeFileHlc a = none ∨ changeFileHlc b = none
  · rw [compare_foreign hforeign, byName_eq_zero]
  · rw [not_or] at hforeign
    obtain ⟨s, hs⟩ := (h.cases ha).resolve_left hforeign.1
    obtain ⟨t, ht⟩ := (h.cases hb).resolve_left hforeign.2
    obtain ⟨hneg, hpos⟩ := compare_stamped hs ht
    constructor
    · intro hzero
      have hnotneg : ¬(s < t ∨ (s = t ∧ a < b)) := fun h => by
        have := hneg.mpr h
        omega
      have hnotpos : ¬(t < s ∨ (s = t ∧ b < a)) := fun h => by
        have := hpos.mpr h
        omega
      rw [not_or] at hnotneg hnotpos
      have hst : s = t := le_antisymm (not_lt.mp hnotpos.1) (not_lt.mp hnotneg.1)
      exact le_antisymm (not_lt.mp fun h => hnotpos.2 ⟨hst, h⟩)
        (not_lt.mp fun h => hnotneg.2 ⟨hst, h⟩)
    · rintro rfl
      have hst : s = t := stampText_injective (some.inj (hs.symm.trans ht))
      subst hst
      have hnotneg := (not_congr hneg).mpr (by simp)
      have hnotpos := (not_congr hpos).mpr (by simp)
      omega

theorem not_between (hwedge : NoWedge files) {f : Text} {s t : Stamp Text} (ha : a ∈ files)
    (hb : b ∈ files) (hf : f ∈ files) (hs : changeFileHlc a = some (stampText s))
    (ht : changeFileHlc b = some (stampText t)) (hforeign : changeFileHlc f = none) (hst : s < t) :
    ¬(b < f ∧ f < a) :=
  hwedge a ha b hb f hf _ _ hs ht hforeign ((isNeg_hlcCompareStr s t).mpr hst)

theorem ne_of_foreign {f : Text} {s : Text} (hs : changeFileHlc a = some s)
    (hf : changeFileHlc f = none) : a ≠ f := by
  rintro rfl
  rw [hs] at hf
  exact absurd hf (by simp)

theorem before_foreign (h : changeFileHlc a = none ∨ changeFileHlc b = none) :
    compareChangeFiles a b < 0 ↔ a < b := by
  rw [compare_foreign h, byName_neg]

theorem before_trans (h : Stamped files) (hwedge : NoWedge files) {d : Text} (ha : a ∈ files)
    (hb : b ∈ files) (hd : d ∈ files) (hab : compareChangeFiles a b < 0)
    (hbd : compareChangeFiles b d < 0) : compareChangeFiles a d < 0 := by
  rcases h.cases ha with hfa | ⟨s, hs⟩
  · rw [before_foreign (Or.inl hfa)] at hab ⊢
    rcases h.cases hb with hfb | ⟨t, ht⟩
    · rw [before_foreign (Or.inl hfb)] at hbd
      exact hab.trans hbd
    · rcases h.cases hd with hfd | ⟨u, hu⟩
      · rw [before_foreign (Or.inr hfd)] at hbd
        exact hab.trans hbd
      · rcases (compare_stamped ht hu).1.mp hbd with hlt | ⟨-, hlt⟩
        · -- otherwise `a` lies between `d` and `b`
          by_contra hnot
          have hda : d < a := lt_of_le_of_ne (not_lt.mp hnot) (ne_of_foreign hu hfa)
          exact not_between hwedge hb hd ha ht hu hfa hlt ⟨hda, hab⟩
        · exact hab.trans hlt
  · rcases h.cases hb with hfb | ⟨t, ht⟩
    · rw [before_foreign (Or.inr hfb)] at hab
      rw [before_foreign (Or.inl hfb)] at hbd
      rcases h.cases hd with hfd | ⟨u, hu⟩
      · rw [before_foreign (Or.inr hfd)]
        exact hab.trans hbd
      · rw [(compare_stamped hs hu).1]
        rcases lt_trichotomy s u with hlt | heq | hgt
        · exact Or.inl hlt
        · exact Or.inr ⟨heq, hab.trans hbd⟩
        · exact absurd ⟨hab, hbd⟩ (not_between hwedge hd ha hb hu hs hfb hgt)
    · rcases h.cases hd with hfd | ⟨u, hu⟩
      · rw [before_foreign (Or.inr hfd)] at hbd ⊢
        rcases (compare_stamped hs ht).1.mp hab with hlt | ⟨-, hlt⟩
        · by_contra hnot
          have hda : d < a := lt_of_le_of_ne (not_lt.mp hnot) (ne_of_foreign hs hfd).symm
          exact not_between hwedge ha hb hd hs ht hfd hlt ⟨hbd, hda⟩
        · exact hlt.trans hbd
      · rw [(compare_stamped hs ht).1] at hab
        rw [(compare_stamped ht hu).1] at hbd
        rw [(compare_stamped hs hu).1]
        rcases hab with hab | ⟨rfl, hab⟩
        · rcases hbd with hbd | ⟨rfl, -⟩
          · exact Or.inl (hab.trans hbd)
          · exact Or.inl hab
        · rcases hbd with hbd | ⟨rfl, hbd⟩
          · exact Or.inl hbd
          · exact Or.inr ⟨rfl, hab.trans hbd⟩

/-- **The listings that the comparison orders.** -/
theorem consistent_iff (h : Stamped files) :
    Consistent compareChangeFiles files ↔ NoWedge files := by
  constructor
  · intro hc a ha b hb f hf s t hs ht hforeign hneg hbetween
    obtain ⟨s, rfl⟩ := h a ha s hs
    obtain ⟨t, rfl⟩ := h b hb t ht
    have hab : compareChangeFiles a b < 0 :=
      (compare_stamped hs ht).1.mpr (Or.inl ((isNeg_hlcCompareStr s t).mp hneg))
    have hbf := (before_foreign (Or.inr hforeign)).mpr hbetween.1
    have haf := (before_foreign (Or.inr hforeign)).mp (hc.less a ha b hb f hf hab hbf)
    exact lt_asymm haf hbetween.2
  · intro hwedge
    constructor
    · intro a ha
      exact (compare_eq_zero_iff h ha ha).mpr rfl
    · intro a ha b hb hab
      exact (compare_eq_zero_iff h hb ha).mpr ((compare_eq_zero_iff h ha hb).mp hab).symm
    · intro a ha b hb d hd hab hbd
      rw [compare_eq_zero_iff h ha hb] at hab
      rw [compare_eq_zero_iff h hb hd] at hbd
      exact (compare_eq_zero_iff h ha hd).mpr (hab.trans hbd)
    · intro a ha b hb d hd
      exact before_trans h hwedge ha hb hd
    · intro a ha b hb d hd hab hbd
      rw [compare_pos_iff h ha hb] at hab
      rw [compare_pos_iff h hb hd] at hbd
      exact (compare_pos_iff h ha hd).mpr (before_trans h hwedge hd hb ha hbd hab)

end Consistency

/-! ## The loop -/

section Loop

variable {manifest : Option Manifest} {schema : Option DatabaseSchemaDefinition}

/-- What the loop has come to after the files applied so far. -/
structure Observed (stored : Option StoredObservationState) (applied : List Text) (p : Progress) :
    Prop where
  receipts : p.store.metadata.changeObservation = stored
  generation : p.ledger.generation = observationGeneration stored
  seen : ∀ n, n ∈ p.ledger.seenChangeFiles ↔ n ∈ Interocitor.receipts stored ∨ n ∈ applied
  recordable : ∀ n ∈ applied, isRecordable n = true

theorem changeObservation_decoded {store store' : LocalStore} {content : Content}
    {entry : ChangeEntry} (h : decoded manifest store content = some (store', entry)) :
    store'.metadata.changeObservation = store.metadata.changeObservation := by
  unfold decoded at h
  split at h
  · split_ifs at h
    split at h
    · exact absurd h (by simp)
    · rw [← (Prod.mk.inj (some.inj h)).1]
  · exact absurd h (by simp)

theorem observed_mergeFile {stored : Option StoredObservationState} {applied : List Text}
    {p q : Progress} {wall : ℕ} {name : Text} {content : Content} (h : Observed stored applied p)
    (hmerge : mergeFile manifest schema wall name content p = some q) :
    Observed stored (applied ++ [name]) q := by
  rw [mergeFile, bind_eq_some_iff] at hmerge
  obtain ⟨⟨store, entry⟩, hdecoded, hmerge⟩ := hmerge
  split at hmerge
  · exact absurd hmerge (by simp)
  · rename_i store' hstore
    obtain ⟨rows, hrows⟩ := exists_mergeEntry_eq hstore
    rw [map_eq_some_iff] at hmerge
    obtain ⟨ledger, hledger, rfl⟩ := hmerge
    refine ⟨?_, ?_, fun n => ?_, fun n hn => ?_⟩
    · rw [hrows]
      exact (changeObservation_decoded hdecoded).trans h.receipts
    · rw [ChangeObservationLedger.generation_observe hledger, h.generation]
    · rw [ChangeObservationLedger.mem_observe hledger, h.seen n, mem_append, mem_singleton]
      tauto
    · rcases mem_append.mp hn with hn | hn
      · exact h.recordable n hn
      · rw [mem_singleton.mp hn, ← p.ledger.isSome_observe name entry.hlc, hledger]
        rfl

/-- A pull that completes has read and applied the files it kept of the listing, and has written
their receipts. -/
theorem pulls_spec {S : ArraySort Text} {files : List Text} {store store' : LocalStore}
    {issued applied : List Text} (h : Pulls S files store issued applied store') :
    ∃ unseen, unseenBy S (.load store.metadata.changeObservation) files = some unseen ∧
      issued = unseen ∧ applied = unseen ∧
      (∀ n, n ∈ receipts store'.metadata.changeObservation ↔
        n ∈ receipts store.metadata.changeObservation ∨ n ∈ unseen) ∧
      ∀ n ∈ unseen, isRecordable n = true := by
  obtain ⟨manifest, schema, hlc, unseen, s, hunseen, hrun, hdone, rfl, rfl, rfl⟩ := h
  obtain ⟨hissued, happlied⟩ := done_run hrun hdone
  have hobserved : Observed store.metadata.changeObservation s.applied s.state := by
    refine state_run (P := Observed store.metadata.changeObservation) ?_ ?_ ?_ hrun
    · exact ⟨rfl, rfl, fun n => by simp, fun n hn => absurd hn not_mem_nil⟩
    · intro l p q hp hother
      exact ⟨hother.1.trans hp.receipts, by rw [hother.2.2, hp.generation],
        fun n => by rw [hother.2.2, hp.seen n], hp.recordable⟩
    · rintro l item content p q - hp ⟨wall, hmerge⟩
      exact observed_mergeFile hp hmerge
  refine ⟨unseen, hunseen, hissued, happlied, fun n => ?_, happlied ▸ hobserved.recordable⟩
  have hgeneration : s.state.ledger.generation =
      observationGeneration s.state.store.metadata.changeObservation := by
    rw [hobserved.receipts, hobserved.generation]
  obtain ⟨stored', hstored'⟩ := ChangeObservationLedger.exists_persist hgeneration
  have hreceipts : (persisted s.state).metadata.changeObservation = some stored' := by
    rw [persisted, hstored']
    rfl
  rw [hreceipts, ChangeObservationLedger.mem_persist hstored', hobserved.receipts, hobserved.seen n,
    happlied]
  tauto

/-- An entry without ops. -/
def emptyEntry : ChangeEntry := ⟨[], 0, [], [], []⟩

/-- A change file with such an entry can be applied, under a mesh id that the device accepts. -/
theorem mergeFile_emptyEntry {p : Progress} {name meshId : Text} (hne : meshId ≠ [])
    (hmesh : ∀ e, truthy p.store.metadata.meshId = some e → e = meshId)
    (hname : isRecordable name = true) :
    ∃ q, mergeFile none none 0 name (.change meshId emptyEntry) p = some q ∧
      ∀ e, truthy q.store.metadata.meshId = some e → e = meshId := by
  obtain ⟨ledger, hledger⟩ := ChangeObservationLedger.exists_observe p.ledger emptyEntry.hlc hname
  have hconflict : (meshConflict ((none : Option Manifest).map fun m => m.meshId) meshId).or
      (meshConflict p.store.metadata.meshId meshId) = none := by
    rw [or_eq_none_iff]
    exact ⟨rfl, meshConflict_eq_none_iff.mpr hmesh⟩
  have hdecoded : decoded none p.store (.change meshId emptyEntry) =
      some ({ p.store with metadata := { p.store.metadata with meshId := some meshId } },
        emptyEntry) := by
    simp only [decoded, if_neg hne, hconflict]
  refine ⟨⟨{ p.store with metadata := { p.store.metadata with meshId := some meshId } },
    hlcReceive 0 p.hlc (hlcParse emptyEntry.hlc), ledger⟩, ?_, ?_⟩
  · rw [mergeFile, hdecoded, bind_some]
    have hmerge : mergeEntry
        { p.store with metadata := { p.store.metadata with meshId := some meshId } } emptyEntry
        (((none : Option Manifest).map fun m => m.schema).getD 1) none =
        .ok { p.store with metadata := { p.store.metadata with meshId := some meshId } } := rfl
    simp only [hmerge, hledger, map_some]
  · intro e he
    rw [truthy, filter_some, if_pos (decide_eq_true hne)] at he
    exact (some.inj he).symm

theorem exists_accepted (stored : Option Text) :
    ∃ meshId : Text, meshId ≠ [] ∧ ∀ e, truthy stored = some e → e = meshId := by
  rcases ht : truthy stored with _ | e
  · exact ⟨[109], by simp, fun e h => absurd h (by simp)⟩
  · refine ⟨e, ?_, fun e' h => (some.inj h).symm⟩
    rw [truthy, filter_eq_some_iff] at ht
    exact of_decide_eq_true ht.2

theorem exists_pulls {S : ArraySort Text} {files unseen : List Text} (store : LocalStore)
    (hunseen : unseenBy S (.load store.metadata.changeObservation) files = some unseen)
    (hchange : ∀ n ∈ unseen, isRecordable n = true) :
    ∃ store', Pulls S files store unseen unseen store' := by
  obtain ⟨meshId, hne, hmesh⟩ := exists_accepted store.metadata.meshId
  have hturn : ∀ name ∈ unseen, ∀ p : Progress,
      (∀ e, truthy p.store.metadata.meshId = some e → e = meshId) →
        ∃ content q, (∃ wall, mergeFile none none wall name content p = some q) ∧
          ∀ e, truthy q.store.metadata.meshId = some e → e = meshId := by
    intro name hname p hp
    obtain ⟨q, hq, hqmesh⟩ := mergeFile_emptyEntry hne hp (hchange name hname)
    exact ⟨_, q, ⟨0, hq⟩, hqmesh⟩
  have hexists : ∃ s : Loop Text Content Progress, Relation.ReflTransGen
      (Step unseen prefetchWindow
        (fun name content p q => ∃ wall, mergeFile none none wall name content p = some q)
        LocalChange)
      (start unseen prefetchWindow
        ⟨store, ⟨some 0, some 0, []⟩, .load store.metadata.changeObservation⟩) s ∧
      s.index = unseen.length :=
    exists_run (Q := fun p : Progress => ∀ e, truthy p.store.metadata.meshId = some e → e = meshId)
      hmesh hturn
  obtain ⟨s, hrun, hdone⟩ := hexists
  obtain ⟨hissued, happlied⟩ := done_run hrun hdone
  exact ⟨_, none, none, _, unseen, s, hunseen, hrun, hdone, hissued.symm, happlied.symm, rfl⟩

end Loop
/-! ## When a pull keeps the order -/

section Result

variable {files : List Text} {store : LocalStore}

theorem compares (files : List Text) :
    Compares (fun a b => some (compareChangeFiles a b)) compareChangeFiles files :=
  fun _ _ _ _ => rfl

theorem unseenBy_spec {S : ArraySort Text} {unseen : List Text}
    (h : unseenBy S (.load store.metadata.changeObservation) files = some unseen) :
    ∃ sorted, S.sort (fun a b => some (compareChangeFiles a b)) files = some sorted ∧
      sorted.Perm files ∧ unseen.Nodup ∧ unseen.Sublist sorted ∧
      ∀ n, n ∈ unseen ↔ n ∈ files ∧ (changeFileHlc n).isSome = true ∧
        n ∉ receipts store.metadata.changeObservation := by
  obtain ⟨sorted, hsorted, hperm⟩ := S.returns (compares files)
  rw [unseenBy, hsorted, map_some, some.injEq] at h
  subst h
  refine ⟨sorted, hsorted, hperm, nodup_unseenFrom _ _, sublist_unseenFrom _ _, fun n => ?_⟩
  rw [mem_unseenFrom, isUnseenChange_iff, hperm.mem_iff]
  constructor
  · rintro ⟨hn, -, -, hchange, hseen⟩
    exact ⟨hn, hchange, hseen⟩
  · rintro ⟨hn, hchange, hseen⟩
    exact ⟨hn, not_mem_nil, ne_headName hchange, hchange, hseen⟩

/-- A pull does what it is asked to, but perhaps for the order. -/
theorem onceInOrder_of {S : ArraySort Text} {store' : LocalStore} {issued applied : List Text}
    (h : Pulls S files store issued applied store')
    (horder : ∀ unseen, unseenBy S (.load store.metadata.changeObservation) files = some unseen →
      unseen.Pairwise InOrder) :
    OnceInOrder files store issued applied store' := by
  obtain ⟨unseen, hunseen, rfl, rfl, hreceipts, -⟩ := pulls_spec h
  obtain ⟨sorted, -, -, hnodup, -, hmem⟩ := unseenBy_spec hunseen
  exact ⟨rfl, hnodup, hmem, horder _ hunseen, hreceipts⟩

theorem inOrder_of_le (h : Stamped files) (ha : a ∈ files) (hb : b ∈ files)
    (hle : compareChangeFiles a b ≤ 0) : InOrder a b := by
  intro s t hs ht
  obtain ⟨s, rfl⟩ := h a ha s hs
  obtain ⟨t, rfl⟩ := h b hb t ht
  rw [Bool.eq_false_iff, Ne, isPos_hlcCompareStr]
  intro hlt
  have hpos := (compare_stamped hs ht).2.mpr (Or.inl hlt)
  omega

/-- **When a pull applies each unseen change once and in order.**  Whatever correct sort the
platform has, and in whatever order the reads come back: exactly if no name lies between two change
files that names order against their stamps, or the unseen files have one stamp, or one of them
cannot be recorded and no pull completes. -/
theorem pulls_once_in_order_iff (files : List Text) (store : LocalStore)
    (hstamped : Stamped files) :
    (∀ (S : ArraySort Text) (issued applied : List Text) (store' : LocalStore),
        Pulls S files store issued applied store' →
          OnceInOrder files store issued applied store') ↔
      NoWedge files ∨ OneStamp files store ∨ Blocked files store := by
  constructor
  · intro h
    by_cases hwedge : NoWedge files
    · exact Or.inl hwedge
    · refine Or.inr (or_iff_not_imp_right.mpr fun hblocked => ?_)
      have hopen : ∀ n ∈ files, (changeFileHlc n).isSome = true →
          n ∉ receipts store.metadata.changeObservation → isRecordable n = true := by
        intro n hn hchange hseen
        by_contra hnot
        exact hblocked ⟨n, hn, hchange, hseen, Bool.eq_false_of_not_eq_true hnot⟩
      have hnot : ¬Consistent compareChangeFiles files := fun hc =>
        hwedge ((consistent_iff hstamped).mp hc)
      -- a sort may put a file with a later stamp before one with an earlier stamp
      have hle : ∀ a ∈ files, ∀ b ∈ files, ∀ s t : Stamp Text,
          changeFileHlc a = some (stampText s) → changeFileHlc b = some (stampText t) →
          a ∉ receipts store.metadata.changeObservation →
          b ∉ receipts store.metadata.changeObservation → ¬s < t := by
        intro a ha b hb s t hs ht hseen hseen' hlt
        have hne : b ≠ a := by
          rintro rfl
          rw [hs] at ht
          rw [stampText_injective (some.inj ht)] at hlt
          exact lt_irrefl t hlt
        obtain ⟨rest, hrest⟩ : ∃ rest, (b :: a :: rest).Perm files := by
          obtain ⟨l, m, hlm⟩ := append_of_mem hb
          have hperm : (b :: (l ++ m)).Perm files := by
            rw [hlm]
            exact perm_middle.symm
          have ha' : a ∈ l ++ m := by
            have hmem := hperm.mem_iff.mpr ha
            exact (mem_cons.mp hmem).resolve_left hne.symm
          obtain ⟨l', m', hlm'⟩ := append_of_mem ha'
          refine ⟨l' ++ m', (List.Perm.cons b ?_).trans hperm⟩
          rw [hlm']
          exact perm_middle.symm
        obtain ⟨S, hsort⟩ := exists_sort_of_not (compares files) hnot hrest
        have hkept : ∀ n, n = a ∨ n = b → n ≠ headName ∧
            (ChangeObservationLedger.load store.metadata.changeObservation).isUnseenChange n =
              true := by
          rintro n (rfl | rfl)
          · have hsome : (changeFileHlc n).isSome = true := by rw [hs]; rfl
            exact ⟨ne_headName hsome, isUnseenChange_iff.mpr ⟨hsome, hseen⟩⟩
          · have hsome : (changeFileHlc n).isSome = true := by rw [ht]; rfl
            exact ⟨ne_headName hsome, isUnseenChange_iff.mpr ⟨hsome, hseen'⟩⟩
        obtain ⟨hheada, hunseena⟩ := hkept a (Or.inl rfl)
        obtain ⟨hheadb, hunseenb⟩ := hkept b (Or.inr rfl)
        have hunseen : unseenBy S (.load store.metadata.changeObservation) files = some (b :: a ::
            unseenFrom (.load store.metadata.changeObservation) [a, b] rest) := by
          rw [unseenBy, hsort, map_some, unseenFrom,
            if_neg (not_or.mpr ⟨hheadb, not_mem_nil⟩), if_pos hunseenb, unseenFrom,
            if_neg (not_or.mpr ⟨hheada, by simpa using hne.symm⟩), if_pos hunseena]
        obtain ⟨sorted, -, -, -, -, hmem⟩ := unseenBy_spec hunseen
        have hrecordable : ∀ n ∈ b :: a ::
            unseenFrom (.load store.metadata.changeObservation) [a, b] rest,
            isRecordable n = true := fun n hn =>
          hopen n ((hmem n).mp hn).1 ((hmem n).mp hn).2.1 ((hmem n).mp hn).2.2
        obtain ⟨store', hpulls⟩ := exists_pulls store hunseen hrecordable
        obtain ⟨-, -, -, horder, -⟩ := h _ _ _ _ hpulls
        have hba := (pairwise_cons.mp horder).1 a mem_cons_self _ _ ht hs
        rw [(isPos_hlcCompareStr t s).mpr hlt] at hba
        exact Bool.noConfusion hba
      intro a ha b hb s t hs ht hseen hseen'
      obtain ⟨s, rfl⟩ := hstamped a ha s hs
      obtain ⟨t, rfl⟩ := hstamped b hb t ht
      have hst := hle a ha b hb s t hs ht hseen hseen'
      have hts := hle b hb a ha t s ht hs hseen' hseen
      rw [le_antisymm (not_lt.mp hts) (not_lt.mp hst)]
  · rintro (hwedge | hone | ⟨n, hn, hchange, hseen, hnot⟩) S issued applied store' hpulls
    · refine onceInOrder_of hpulls fun unseen hunseen => ?_
      obtain ⟨sorted, hsorted, hperm, -, hsub, -⟩ := unseenBy_spec hunseen
      have hpairwise := S.sorted (compares files) ((consistent_iff hstamped).mpr hwedge) hsorted
      refine (hpairwise.imp_of_mem ?_).sublist hsub
      intro a b ha hb hle
      exact inOrder_of_le hstamped (hperm.mem_iff.mp ha) (hperm.mem_iff.mp hb) hle
    · refine onceInOrder_of hpulls fun unseen hunseen => ?_
      obtain ⟨sorted, -, -, -, -, hmem⟩ := unseenBy_spec hunseen
      refine pairwise_of_forall_mem_list ?_
      intro a ha b hb s t hs ht
      obtain ⟨hfa, -, hseen⟩ := (hmem a).mp ha
      obtain ⟨hfb, -, hseen'⟩ := (hmem b).mp hb
      rw [hone a hfa b hfb s t hs ht hseen hseen']
      obtain ⟨t, rfl⟩ := hstamped b hfb t ht
      rw [Bool.eq_false_iff, Ne, isPos_hlcCompareStr]
      exact lt_irrefl t
    · obtain ⟨unseen, hunseen, -, -, -, hrecordable⟩ := pulls_spec hpulls
      obtain ⟨sorted, -, -, -, -, hmem⟩ := unseenBy_spec hunseen
      rw [hrecordable n ((hmem n).mpr ⟨hn, hchange, hseen⟩)] at hnot
      exact Bool.noConfusion hnot

end Result

/-! ### A listing with another name -/

/-- A change file of the first stamp of a device. -/
def firstFile (device : Text) (id : CodeUnit) : Text :=
  stampText ⟨1, 0, device⟩ ++ (changeMarker ++ id :: jsonSuffix)

/-- `dev` and `dev-1`. -/
def deviceA : Text := [100, 101, 118]

@[inherit_doc deviceA]
def deviceB : Text := [100, 101, 118, 45, 49]

/-- `…-dev-a.json`: no change file. -/
def strayFile : Text := stampText ⟨1, 0, deviceA⟩ ++ [45, 97] ++ jsonSuffix

/-- A listing of the two devices' files, with another name between. -/
def listingWith (name : Text) : List Text := [firstFile deviceB 121, name, firstFile deviceA 120]

theorem stamped_listingWith {name : Text} (h : changeFileHlc name = none) :
    Stamped (listingWith name) := by
  intro n hn s hs
  rcases mem_cons.mp hn with rfl | hn
  · have hname : changeFileHlc (firstFile deviceB 121) = some (stampText ⟨1, 0, deviceB⟩) := by
      decide
    exact ⟨_, some.inj (hs.symm.trans hname)⟩
  · rcases mem_cons.mp hn with rfl | hn
    · rw [h] at hs
      exact absurd hs (by simp)
    · rw [mem_singleton.mp hn] at hs
      have hname : changeFileHlc (firstFile deviceA 120) = some (stampText ⟨1, 0, deviceA⟩) := by
        decide
      exact ⟨_, some.inj (hs.symm.trans hname)⟩

/-- The two files and the hint. -/
theorem pulls_once_in_order_iff_hint :
    (∀ (S : ArraySort Text) (issued applied : List Text) (store' : LocalStore),
        Pulls S (listingWith headName) LocalStore.empty issued applied store' →
          OnceInOrder (listingWith headName) LocalStore.empty issued applied store') ↔
      NoWedge (listingWith headName) ∨ OneStamp (listingWith headName) LocalStore.empty ∨
        Blocked (listingWith headName) LocalStore.empty :=
  pulls_once_in_order_iff (listingWith headName) LocalStore.empty (stamped_listingWith (by decide))

/-- With an insertion sort the later stamp comes first. -/
theorem not_once_in_order : ¬∀ (files : List Text) (store : LocalStore), Stamped files →
    ∀ (S : ArraySort Text) (issued applied : List Text) (store' : LocalStore),
      Pulls S files store issued applied store' →
        OnceInOrder files store issued applied store' := by
  intro h
  have hunseen : unseenBy (insertionSort Text)
      (.load LocalStore.empty.metadata.changeObservation) (listingWith strayFile) =
      some [firstFile deviceB 121, firstFile deviceA 120] := by decide
  have hchange : ∀ n ∈ [firstFile deviceB 121, firstFile deviceA 120],
      isRecordable n = true := by decide
  obtain ⟨store', hpulls⟩ := exists_pulls LocalStore.empty hunseen hchange
  obtain ⟨-, -, -, horder, -⟩ := h _ _ (stamped_listingWith (by decide)) _ _ _ _ hpulls
  have hinorder := (pairwise_cons.mp horder).1 _ mem_cons_self
    (stampText ⟨1, 0, deviceB⟩) (stampText ⟨1, 0, deviceA⟩) (by decide) (by decide)
  exact absurd hinorder (by decide)

end PullWindow

end Interocitor
