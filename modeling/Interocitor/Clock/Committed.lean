import Interocitor.Core.Transfer
import Interocitor.Web.Migration

/-!
# The stamp of a pending batch

Local writes are gathered in a pending batch before they are promoted to the outbox.  The batch
has one stamp, which is meant to be the latest of what was merged into it, and the same stamp is
recorded as the clock of the store.  Both stores raise it with `<` on texts.  That is not the order
of stamps: the text of counter `10000` is below that of `ffff`, because the digits are padded to
four and not to more.

The two stores keep the batch differently.  `MemoryLocalStore` has it as one object,
`IndexedDbLocalStore` as a header in its metadata with the operations in a store of their own, and
there a promotion is one transaction that fails as a whole if the outbox has the id already.
`BatchStore` says what the two have in common as far as the stamp goes, and everything after that
is proved of it.

* `committed_clock_iff`: along a run of commits with increasing stamps, interleaved with
  promotions, the batch covers what was merged into it exactly if every commit that joins a batch
  is later than the batch *as text*.  The recorded clock does not go back either way.
* `counter_outgrows_the_batch`: a burst past counter `ffff`, in both stores.
-/

namespace Interocitor

open CodeUnits HybridClock OrderedRecord LocalStore List Option

/-! ## The store of `indexed-db-local-store.ts` -/

namespace Web.IndexedDb

/-- `"hlc"`. -/
def hlcKey : Text := [104, 108, 99]

/-- The record under `PENDING_BATCH_META_KEY`. -/
def pendingHeader (db : IndexedDb) : Option PendingBatchHeader :=
  match db.metaRecords.get pendingBatchMetaKey with
  | some (.header h) => some h
  | _ => none

/-- The metadata with the header that a commit leaves, and the stamp of that header.  A header that
is not raised is not written again. -/
def raiseHeader (db : IndexedDb) (change : ChangeEntry) : Record Text MetaRecord × Text :=
  match db.pendingHeader with
  | none =>
    (db.metaRecords.set pendingBatchMetaKey
      (.header { change with ops := none }), change.hlc)
  | some current =>
    if current.hlc < change.hlc then
      (db.metaRecords.set pendingBatchMetaKey (.header { current with hlc := change.hlc }),
        change.hlc)
    else (db.metaRecords, current.hlc)

/-- `commitLocalMutation`. -/
def commitLocalMutation (db : IndexedDb) (row : Row) (change : ChangeEntry) : IndexedDb :=
  let (metaRecords, hlc) := db.raiseHeader change
  { db with
    rows := storeRows db.rows [row]
    metaRecords := metaRecords.set hlcKey (.value (.string hlc))
    pendingOps := db.pendingOps ++ change.ops
    keyed := keyed_storeRows db.keyed [row] }

/-- `promotePendingBatch`.  The index of the outbox is unique: adding an id a second time aborts
the transaction, which leaves the database as it was. -/
def promotePendingBatch (db : IndexedDb) : IndexedDb :=
  match db.peekPendingBatch with
  | none => db
  | some pending =>
    if h : pending.id ∈ db.outbox.map ChangeEntry.id then db
    else
      { db with
        outbox := db.outbox ++ [pending]
        pendingOps := []
        metaRecords := db.metaRecords.erase pendingBatchMetaKey
        unique := by
          rw [map_append]
          refine nodup_append'.2 ⟨db.unique, nodup_singleton _, ?_⟩
          intro id hid hid'
          rw [map_singleton, mem_singleton] at hid'
          exact h (hid' ▸ hid) }

/-- `getMeta("hlc")`, where it is a text. -/
def hlcMeta (db : IndexedDb) : Option Text :=
  match db.metaRecords.get hlcKey with
  | some (.value (.string hlc)) => some hlc
  | _ => none

theorem peekPendingBatch_fresh (fingerprint : Text) :
    (fresh fingerprint).peekPendingBatch = none := by
  unfold peekPendingBatch fresh
  rw [Record.get_set_ne _ _ (by decide), Record.get_empty]

theorem hlcMeta_fresh (fingerprint : Text) : (fresh fingerprint).hlcMeta = none := by
  unfold hlcMeta fresh
  rw [Record.get_set_ne _ _ (by decide), Record.get_empty]

theorem hlcKey_ne : hlcKey ≠ pendingBatchMetaKey := by decide

theorem map_peekPendingBatch (db : IndexedDb) :
    db.peekPendingBatch.map ChangeEntry.hlc = db.pendingHeader.map PendingBatchHeader.hlc := by
  unfold peekPendingBatch pendingHeader
  rcases db.metaRecords.get pendingBatchMetaKey with _ | v | h
  · rfl
  · rfl
  · rfl

end Web.IndexedDb

/-! ## What the stores have in common -/

/-- The stamp of a batch with a change appended. -/
def joinHlc (pending : Option Text) (hlc : Text) : Text :=
  match pending with
  | some p => if p < hlc then hlc else p
  | none => hlc

/-- A local store, as far as the pending batch goes. -/
structure BatchStore (σ : Type) where
  commitLocalMutation : σ → Row → ChangeEntry → σ
  promotePendingBatch : σ → σ
  peekPendingBatch : σ → Option ChangeEntry
  outbox : σ → List ChangeEntry
  hlcMeta : σ → Option Text
  peek_commit : ∀ s row change,
    (peekPendingBatch (commitLocalMutation s row change)).map ChangeEntry.hlc =
      some (joinHlc ((peekPendingBatch s).map ChangeEntry.hlc) change.hlc)
  hlc_commit : ∀ s row change,
    hlcMeta (commitLocalMutation s row change) =
      some (joinHlc ((peekPendingBatch s).map ChangeEntry.hlc) change.hlc)
  outbox_commit : ∀ s row change, outbox (commitLocalMutation s row change) = outbox s
  hlc_promote : ∀ s, hlcMeta (promotePendingBatch s) = hlcMeta s
  promote_cases : ∀ s, promotePendingBatch s = s ∨
    ∃ pending, peekPendingBatch s = some pending ∧
      peekPendingBatch (promotePendingBatch s) = none ∧
      outbox (promotePendingBatch s) = outbox s ++ [pending]

/-- `MemoryLocalStore`. -/
def memoryBatches : BatchStore LocalStore where
  commitLocalMutation := LocalStore.commitLocalMutation
  promotePendingBatch := LocalStore.promotePendingBatch
  peekPendingBatch := LocalStore.pendingBatch
  outbox := LocalStore.outbox
  hlcMeta store := store.metadata.hlc
  peek_commit store row change := by
    rw [LocalStore.commitLocalMutation]
    cases store.pendingBatch <;> rfl
  hlc_commit store row change := by
    rw [LocalStore.commitLocalMutation]
    cases store.pendingBatch <;> rfl
  outbox_commit _ _ _ := rfl
  hlc_promote store := by
    rw [LocalStore.promotePendingBatch]
    cases store.pendingBatch <;> rfl
  promote_cases store := by
    rw [LocalStore.promotePendingBatch]
    cases h : store.pendingBatch with
    | none => exact .inl rfl
    | some pending => exact .inr ⟨pending, rfl, rfl, rfl⟩

namespace Web.IndexedDb

theorem raiseHeader_snd (db : IndexedDb) (change : ChangeEntry) :
    (db.raiseHeader change).2 =
      joinHlc (db.peekPendingBatch.map ChangeEntry.hlc) change.hlc := by
  rw [map_peekPendingBatch]
  unfold raiseHeader joinHlc
  cases db.pendingHeader with
  | none => rfl
  | some current =>
    simp only [map_some]
    split_ifs <;> rfl

theorem map_pendingHeader_raiseHeader (db : IndexedDb) (change : ChangeEntry) :
    ∃ h : PendingBatchHeader,
      (db.raiseHeader change).1.get pendingBatchMetaKey = some (.header h) ∧
        h.hlc = (db.raiseHeader change).2 := by
  unfold raiseHeader
  cases hc : db.pendingHeader with
  | none => exact ⟨_, by rw [Record.get_set, if_pos rfl], rfl⟩
  | some current =>
    by_cases hlt : current.hlc < change.hlc
    · simp only [if_pos hlt]
      exact ⟨_, by rw [Record.get_set, if_pos rfl], rfl⟩
    · simp only [if_neg hlt]
      refine ⟨current, ?_, rfl⟩
      unfold pendingHeader at hc
      split at hc
      · rename_i h heq
        rw [heq, some.inj hc]
      · exact absurd hc (by simp)

end Web.IndexedDb

open Web in
/-- `IndexedDbLocalStore`. -/
def indexedDbBatches : BatchStore IndexedDb where
  commitLocalMutation := IndexedDb.commitLocalMutation
  promotePendingBatch := IndexedDb.promotePendingBatch
  peekPendingBatch := IndexedDb.peekPendingBatch
  outbox := IndexedDb.outbox
  hlcMeta := IndexedDb.hlcMeta
  peek_commit db row change := by
    obtain ⟨h, hget, hhlc⟩ := db.map_pendingHeader_raiseHeader change
    rw [IndexedDb.map_peekPendingBatch, ← IndexedDb.raiseHeader_snd, ← hhlc]
    unfold IndexedDb.pendingHeader IndexedDb.commitLocalMutation
    simp only [Record.get_set_ne _ _ IndexedDb.hlcKey_ne, hget, map_some]
  hlc_commit db row change := by
    rw [← IndexedDb.raiseHeader_snd]
    unfold IndexedDb.hlcMeta IndexedDb.commitLocalMutation
    simp only [Record.get_set, if_pos]
  outbox_commit _ _ _ := rfl
  hlc_promote db := by
    unfold IndexedDb.promotePendingBatch
    split
    · rfl
    · split_ifs
      · rfl
      · unfold IndexedDb.hlcMeta
        simp only [Record.get_erase, if_neg IndexedDb.hlcKey_ne.symm]
  promote_cases db := by
    unfold IndexedDb.promotePendingBatch
    split
    · exact .inl rfl
    · rename_i pending hpeek
      split_ifs
      · exact .inl rfl
      · refine .inr ⟨pending, hpeek, ?_, rfl⟩
        unfold IndexedDb.peekPendingBatch
        simp only [Record.get_erase, if_pos]

/-! ## Runs -/

/-- A call of `commitLocalMutation`: its change is stamped with a clock value. -/
structure Mutation where
  row : Row
  change : ChangeEntry
  stamp : Stamp Text
  serialized : change.hlc = hlcSerialize (.ofStamp stamp)

/-- A call that moves the pending batch. -/
inductive StoreEvent where
  | commit (m : Mutation)
  | promote

/-- The clock values of a run. -/
def stampsOf : List StoreEvent → List (Stamp Text)
  | [] => []
  | .commit m :: events => m.stamp :: stampsOf events
  | .promote :: events => stampsOf events

/-- The clock values of a run are strictly increasing. -/
def Increasing (events : List StoreEvent) : Prop :=
  (stampsOf events).Pairwise fun a b => isNeg (hlcCompare (.ofStamp a) (.ofStamp b)) = true

instance (events : List StoreEvent) : Decidable (Increasing events) :=
  inferInstanceAs (Decidable (List.Pairwise _ _))

/-- A store with what was merged into its pending batch and into each entry of its outbox. -/
structure BatchTrace (σ : Type) where
  store : σ
  merged : List Mutation
  promoted : List (List Mutation)

variable {σ : Type} (api : BatchStore σ)

namespace BatchTrace

/-- One call.  A promotion has happened if the outbox has grown. -/
def step (t : BatchTrace σ) : StoreEvent → BatchTrace σ
  | .commit m =>
    { t with
      store := api.commitLocalMutation t.store m.row m.change
      merged := t.merged ++ [m] }
  | .promote =>
    let store := api.promotePendingBatch t.store
    if (api.outbox store).length = (api.outbox t.store).length then { t with store := store }
    else ⟨store, [], t.promoted ++ [t.merged]⟩

end BatchTrace

/-- The stamp of a batch is not before that of anything merged into it. -/
def CoversMerged (batch : ChangeEntry) (merged : List Mutation) : Prop :=
  ∀ m ∈ merged, isNonNeg (hlcCompareStr batch.hlc m.change.hlc) = true

/-- The pending batch and every promoted entry cover what was merged into them. -/
structure Maximum (t : BatchTrace σ) : Prop where
  pending : ∀ batch, api.peekPendingBatch t.store = some batch → CoversMerged batch t.merged
  promoted : List.Forall₂ CoversMerged (api.outbox t.store) t.promoted

/-- The recorded clock does not go back. -/
def ClockKept (s s' : σ) : Prop :=
  ∀ hlc, api.hlcMeta s = some hlc →
    ∃ hlc', api.hlcMeta s' = some hlc' ∧ isNonNeg (hlcCompareStr hlc' hlc) = true

/-- Every state of a run covers its mutations, and no call moves the recorded clock back. -/
def CommittedClock (t : BatchTrace σ) : List StoreEvent → Prop
  | [] => Maximum api t
  | e :: events =>
    Maximum api t ∧ ClockKept api t.store (t.step api e).store ∧
      CommittedClock (t.step api e) events

/-- Every commit that joins a batch is later than the batch as text. -/
def JoinsInTextOrder (s : σ) : List StoreEvent → Prop
  | [] => True
  | .commit m :: events =>
    (∀ batch, api.peekPendingBatch s = some batch → batch.hlc < m.change.hlc) ∧
      JoinsInTextOrder (api.commitLocalMutation s m.row m.change) events
  | .promote :: events => JoinsInTextOrder (api.promotePendingBatch s) events

/-! ## The order of the texts and the order of the stamps -/

theorem isNonNeg_hlcCompareStr (a b : Stamp Text) :
    isNonNeg (hlcCompareStr (stampText a) (stampText b)) = true ↔ b ≤ a := by
  rw [← not_lt, ← isNeg_hlcCompareStr a b]
  cases h : hlcCompareStr (stampText a) (stampText b) with
  | none =>
    rw [hlcCompareStr] at h
    split_ifs at h
    rw [hlcParse_stampText, hlcParse_stampText, hlcCompare_ofStamp] at h
    split_ifs at h
  | some z => simp [isNonNeg, isNeg]

theorem increasing_cons_commit {m : Mutation} {events : List StoreEvent} :
    Increasing (.commit m :: events) ↔
      (∀ n ∈ stampsOf events, m.stamp < n) ∧ Increasing events := by
  unfold Increasing
  rw [stampsOf, pairwise_cons]
  simp only [isNeg_hlcCompare]

/-! ## What holds of every run -/

/-- What a run has seen is before what it will see. -/
structure Behind (t : BatchTrace σ) (events : List StoreEvent) : Prop where
  merged : ∀ m ∈ t.merged, ∀ n ∈ stampsOf events, m.stamp < n
  pending : ∀ batch, api.peekPendingBatch t.store = some batch →
    api.hlcMeta t.store = some batch.hlc
  clock : ∀ hlc, api.hlcMeta t.store = some hlc →
    ∃ a : Stamp Text, hlc = stampText a ∧ ∀ n ∈ stampsOf events, a < n

variable {api} {t : BatchTrace σ} {m : Mutation} {events : List StoreEvent}

variable (api t) in
/-- A promotion moves the batch to the outbox, or changes nothing. -/
theorem BatchTrace.step_promote :
    t.step api .promote = t ∨
      ∃ pending, api.peekPendingBatch t.store = some pending ∧
        api.peekPendingBatch (api.promotePendingBatch t.store) = none ∧
        api.outbox (api.promotePendingBatch t.store) = api.outbox t.store ++ [pending] ∧
        t.step api .promote = ⟨api.promotePendingBatch t.store, [], t.promoted ++ [t.merged]⟩ := by
  rcases api.promote_cases t.store with hsame | ⟨pending, hpeek, hnone, hout⟩
  · refine .inl ?_
    simp only [BatchTrace.step, hsame, if_true]
  · refine .inr ⟨pending, hpeek, hnone, hout, ?_⟩
    simp only [BatchTrace.step, hout, length_append, length_singleton]
    rw [if_neg (by omega)]

theorem joinHlc_cases (pending : Option Text) (hlc : Text) :
    joinHlc pending hlc = hlc ∨
      ∃ p, pending = some p ∧ ¬ p < hlc ∧ joinHlc pending hlc = p := by
  cases pending with
  | none => exact .inl rfl
  | some p =>
    by_cases h : p < hlc
    · exact .inl (if_pos h)
    · exact .inr ⟨p, rfl, h, if_neg h⟩

namespace Behind

theorem batch_stamp (h : Behind api t events) {p : Text}
    (hp : (api.peekPendingBatch t.store).map ChangeEntry.hlc = some p) :
    api.hlcMeta t.store = some p ∧ ∃ a : Stamp Text, p = stampText a ∧
      ∀ n ∈ stampsOf events, a < n := by
  obtain ⟨batch, hbatch, rfl⟩ := map_eq_some_iff.1 hp
  have hclock := h.pending batch hbatch
  exact ⟨hclock, h.clock _ hclock⟩

theorem commit (h : Behind api t (.commit m :: events))
    (hinc : Increasing (.commit m :: events)) : Behind api (t.step api (.commit m)) events := by
  obtain ⟨hm, -⟩ := increasing_cons_commit.1 hinc
  constructor
  · intro m' hm' n hn
    rcases mem_append.1 hm' with hold | hnew
    · exact h.merged m' hold n (mem_cons_of_mem _ hn)
    · rw [mem_singleton.1 hnew]
      exact hm n hn
  · intro batch hbatch
    have hpeek := api.peek_commit t.store m.row m.change
    rw [show api.peekPendingBatch (api.commitLocalMutation t.store m.row m.change) = some batch
      from hbatch, map_some] at hpeek
    exact (api.hlc_commit t.store m.row m.change).trans hpeek.symm
  · intro hlc hhlc
    have hjoin := some.inj ((api.hlc_commit t.store m.row m.change).symm.trans hhlc)
    rcases joinHlc_cases ((api.peekPendingBatch t.store).map ChangeEntry.hlc) m.change.hlc with
      hnew | ⟨p, hp, -, hold⟩
    · exact ⟨m.stamp, by rw [← hjoin, hnew, m.serialized, stampText], hm⟩
    · obtain ⟨-, a, ha, hlt⟩ := h.batch_stamp hp
      refine ⟨a, by rw [← hjoin, hold, ha], ?_⟩
      intro n hn
      exact hlt n (mem_cons_of_mem _ hn)

theorem promote (h : Behind api t (.promote :: events)) :
    Behind api (t.step api .promote) events := by
  rcases t.step_promote api with hstep | ⟨pending, hpeek, hnone, hout, hstep⟩
  · rw [hstep]
    exact ⟨h.merged, h.pending, h.clock⟩
  · rw [hstep]
    refine ⟨by simp, ?_, ?_⟩
    · intro batch hbatch
      rw [hnone] at hbatch
      exact absurd hbatch (by simp)
    · intro hlc hhlc
      exact h.clock hlc ((api.hlc_promote t.store).symm.trans hhlc)

theorem clockKept_commit (h : Behind api t (.commit m :: events)) :
    ClockKept api t.store (t.step api (.commit m)).store := by
  intro hlc hhlc
  refine ⟨_, api.hlc_commit t.store m.row m.change, ?_⟩
  obtain ⟨a, ha, hlt⟩ := h.clock hlc hhlc
  rcases joinHlc_cases ((api.peekPendingBatch t.store).map ChangeEntry.hlc) m.change.hlc with
    hnew | ⟨p, hp, -, hold⟩
  · rw [hnew, m.serialized, ha]
    exact (isNonNeg_hlcCompareStr _ _).2 (hlt m.stamp mem_cons_self).le
  · obtain ⟨hclock, -⟩ := h.batch_stamp hp
    rw [hold, some.inj (hclock.symm.trans hhlc), ha]
    exact (isNonNeg_hlcCompareStr _ _).2 le_rfl

theorem clockKept_promote (h : Behind api t (.promote :: events)) :
    ClockKept api t.store (t.step api .promote).store := by
  intro hlc hhlc
  obtain ⟨a, ha, -⟩ := h.clock hlc hhlc
  have hstore : (t.step api .promote).store = api.promotePendingBatch t.store := by
    simp only [BatchTrace.step]
    split_ifs <;> rfl
  refine ⟨hlc, by rw [hstore, api.hlc_promote, hhlc], ?_⟩
  rw [ha]
  exact (isNonNeg_hlcCompareStr _ _).2 le_rfl

end Behind

/-! ## One call -/

theorem Maximum.commit (hmax : Maximum api t) (h : Behind api t (.commit m :: events))
    (hjoin : ∀ batch, api.peekPendingBatch t.store = some batch → batch.hlc < m.change.hlc) :
    Maximum api (t.step api (.commit m)) := by
  refine ⟨?_, ?_⟩
  · intro batch hbatch m' hm'
    have hpeek := api.peek_commit t.store m.row m.change
    rw [show api.peekPendingBatch (api.commitLocalMutation t.store m.row m.change) = some batch
      from hbatch, map_some] at hpeek
    have hhlc : batch.hlc = m.change.hlc := by
      rcases joinHlc_cases ((api.peekPendingBatch t.store).map ChangeEntry.hlc) m.change.hlc with
        hnew | ⟨p, hp, hlt, -⟩
      · exact (some.inj hpeek).trans hnew
      · obtain ⟨old, hold, rfl⟩ := map_eq_some_iff.1 hp
        exact absurd (hjoin old hold) hlt
    rw [hhlc, m.serialized, m'.serialized]
    refine (isNonNeg_hlcCompareStr _ _).2 ?_
    rcases mem_append.1 hm' with hold | hnew
    · exact (h.merged m' hold m.stamp mem_cons_self).le
    · rw [mem_singleton.1 hnew]
  · rw [show api.outbox (t.step api (.commit m)).store = api.outbox t.store from
      api.outbox_commit _ _ _]
    exact hmax.promoted

theorem Maximum.promote (hmax : Maximum api t) : Maximum api (t.step api .promote) := by
  rcases t.step_promote api with hstep | ⟨pending, hpeek, hnone, hout, hstep⟩
  · rw [hstep]
    exact hmax
  · rw [hstep]
    refine ⟨?_, ?_⟩
    · intro batch _ m' hm'
      exact absurd hm' (by simp)
    · show List.Forall₂ CoversMerged (api.outbox (api.promotePendingBatch t.store)) _
      rw [hout]
      exact rel_append hmax.promoted (.cons (hmax.pending pending hpeek) .nil)

theorem Maximum.joined (hmax : Maximum api (t.step api (.commit m)))
    (h : Behind api t (.commit m :: events)) :
    ∀ batch, api.peekPendingBatch t.store = some batch → batch.hlc < m.change.hlc := by
  intro batch hbatch
  by_contra hlt
  have hp : (api.peekPendingBatch t.store).map ChangeEntry.hlc = some batch.hlc := by
    rw [hbatch, map_some]
  obtain ⟨-, a, ha, hbelow⟩ := h.batch_stamp hp
  obtain ⟨after, hafter, hhlc⟩ :=
    map_eq_some_iff.1 (api.peek_commit t.store m.row m.change)
  have hkept : after.hlc = stampText a := by
    rw [hhlc, hp, ← ha]
    exact if_neg hlt
  have hcov := hmax.pending after hafter m (mem_append_right _ (mem_singleton_self m))
  rw [hkept, m.serialized] at hcov
  exact absurd ((isNonNeg_hlcCompareStr _ _).1 hcov) (not_le.2 (hbelow m.stamp mem_cons_self))

/-! ## Whole runs -/

/-- **The batch stays the latest of what it holds exactly as long as the texts say so.** -/
theorem committedClock_iff_joinsInTextOrder (hinc : Increasing events)
    (h : Behind api t events) (hmax : Maximum api t) :
    CommittedClock api t events ↔ JoinsInTextOrder api t.store events := by
  induction events generalizing t with
  | nil => exact iff_of_true hmax trivial
  | cons e events ih =>
    cases e with
    | commit m =>
      have hrest := h.commit hinc
      obtain ⟨-, hinc'⟩ := increasing_cons_commit.1 hinc
      constructor
      · rintro ⟨-, -, hrun⟩
        have hmax' : Maximum api (t.step api (.commit m)) := by
          cases events with
          | nil => exact hrun
          | cons _ _ => exact hrun.1
        exact ⟨hmax'.joined h, (ih hinc' hrest hmax').1 hrun⟩
      · rintro ⟨hjoin, hrun⟩
        have hmax' := hmax.commit h hjoin
        exact ⟨hmax, h.clockKept_commit, (ih hinc' hrest hmax').2 hrun⟩
    | promote =>
      have hstore : (t.step api .promote).store = api.promotePendingBatch t.store := by
        simp only [BatchTrace.step]
        split_ifs <;> rfl
      have hrun := ih hinc h.promote hmax.promote
      rw [hstore] at hrun
      exact ⟨fun hr => hrun.1 hr.2.2, fun hr => ⟨hmax, h.clockKept_promote, hrun.2 hr⟩⟩

theorem committedClock_iff_of_new (hinc : Increasing events) {s : σ}
    (hpeek : api.peekPendingBatch s = none) (hout : api.outbox s = [])
    (hclock : api.hlcMeta s = none) :
    CommittedClock api ⟨s, [], []⟩ events ↔ JoinsInTextOrder api s events := by
  refine committedClock_iff_joinsInTextOrder hinc ⟨by simp, ?_, ?_⟩ ⟨?_, ?_⟩
  · intro batch hbatch
    exact absurd (hpeek.symm.trans hbatch) (by simp)
  · intro hlc hhlc
    exact absurd (hclock.symm.trans hhlc) (by simp)
  · intro batch hbatch
    exact absurd (hpeek.symm.trans hbatch) (by simp)
  · show List.Forall₂ CoversMerged (api.outbox s) []
    rw [hout]
    exact .nil

theorem not_joinsInTextOrder_pair {s : σ} (hpeek : api.peekPendingBatch s = none) {n : Mutation}
    (hlt : ¬ m.change.hlc < n.change.hlc) : ¬ JoinsInTextOrder api s [.commit m, .commit n] := by
  rintro ⟨-, hjoin, -⟩
  obtain ⟨batch, hbatch, hhlc⟩ := map_eq_some_iff.1 (api.peek_commit s m.row m.change)
  rw [hpeek] at hhlc
  have hbelow := hjoin batch hbatch
  rw [hhlc] at hbelow
  exact hlt hbelow

open Web

/-- **When the committed clock is the true maximum, in either store.**  For every run of commits
with strictly increasing clock values, interleaved with promotions: the pending batch and every
promoted entry cover what was merged into them, in every state of the run, exactly if every commit
that joins a batch is later than the batch as text. -/
theorem committed_clock_iff (events : List StoreEvent) (hinc : Increasing events)
    (fingerprint : Text) :
    (CommittedClock memoryBatches ⟨LocalStore.empty, [], []⟩ events ↔
        JoinsInTextOrder memoryBatches LocalStore.empty events) ∧
      (CommittedClock indexedDbBatches ⟨IndexedDb.fresh fingerprint, [], []⟩ events ↔
        JoinsInTextOrder indexedDbBatches (IndexedDb.fresh fingerprint) events) := by
  refine ⟨committedClock_iff_of_new hinc rfl rfl rfl, ?_⟩
  refine committedClock_iff_of_new hinc ?_ rfl ?_
  · exact IndexedDb.peekPendingBatch_fresh fingerprint
  · exact IndexedDb.hlcMeta_fresh fingerprint

/-- A call that commits a change with the given clock value and no operations. -/
def mutationAt (id : CodeUnit) (counter : ℕ) : Mutation where
  row := ⟨⟨[116], [49], false, none, 1, none⟩, ∅⟩
  change := ⟨[id], 0, [100], hlcSerialize (.ofStamp ⟨0, counter, [100]⟩), []⟩
  stamp := ⟨0, counter, [100]⟩
  serialized := rfl

/-- A commit, a promotion and two commits. -/
theorem committed_clock_short_run :
    (CommittedClock memoryBatches ⟨LocalStore.empty, [], []⟩
        [.commit (mutationAt 97 1), .promote, .commit (mutationAt 98 2),
          .commit (mutationAt 99 3)] ↔
        JoinsInTextOrder memoryBatches LocalStore.empty
        [.commit (mutationAt 97 1), .promote, .commit (mutationAt 98 2),
          .commit (mutationAt 99 3)]) ∧
      (CommittedClock indexedDbBatches ⟨IndexedDb.fresh [], [], []⟩
        [.commit (mutationAt 97 1), .promote, .commit (mutationAt 98 2),
          .commit (mutationAt 99 3)] ↔
        JoinsInTextOrder indexedDbBatches (IndexedDb.fresh [])
        [.commit (mutationAt 97 1), .promote, .commit (mutationAt 98 2),
          .commit (mutationAt 99 3)]) :=
  committed_clock_iff _ (by decide) []

/-- **A burst past counter `ffff`.**  The second commit is later than the first, and the batch keeps
the stamp of the first. -/
theorem counter_outgrows_the_batch :
    Increasing [.commit (mutationAt 97 0xffff), .commit (mutationAt 98 0x10000)] ∧
      ¬ CommittedClock memoryBatches ⟨LocalStore.empty, [], []⟩
        [.commit (mutationAt 97 0xffff), .commit (mutationAt 98 0x10000)] ∧
      ¬ CommittedClock indexedDbBatches ⟨IndexedDb.fresh [], [], []⟩
        [.commit (mutationAt 97 0xffff), .commit (mutationAt 98 0x10000)] := by
  have hinc : Increasing [.commit (mutationAt 97 0xffff), .commit (mutationAt 98 0x10000)] := by
    decide
  have hlt : ¬ (mutationAt 97 0xffff).change.hlc < (mutationAt 98 0x10000).change.hlc := by decide
  refine ⟨hinc, ?_, ?_⟩
  · intro h
    exact not_joinsInTextOrder_pair rfl hlt ((committedClock_iff_of_new hinc rfl rfl rfl).1 h)
  · intro h
    have hpeek := IndexedDb.peekPendingBatch_fresh []
    exact not_joinsInTextOrder_pair hpeek hlt
      ((committedClock_iff_of_new hinc hpeek rfl (IndexedDb.hlcMeta_fresh [])).1 h)

end Interocitor
