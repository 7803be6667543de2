import Interocitor.Core.LocalStore
import Interocitor.Foundation.GuardedRuns

/-!
# `sync-engine.ts`: batches

Local writes are collected in a pending batch, which becomes one change entry when it is promoted.
`batch()` takes the lock of the synchronisation state for the time its block runs, so that nobody
promotes in between.  A block that is started while another one runs does not wait: it raises
`batchDepth` and runs beside the first one, and the last of them to end promotes.  But it does not
own the lock either.  When the block that does has ended, a flush, a compaction, a rehydration or
the timer of the implicit batch can take the lock, and they promote whatever is pending.

The engine is modelled by what concerns the pending batch: the depth, the timer, the lock with its
queue, and where every call of `batch`, `put` and `delete` is.  A write commits to the pending
batch at one moment; what it read before that does not matter here.  The operations that take the
lock are one kind: under it they may promote, and they may clear the store.

* `blocks_in_one_entry`: as long as nothing is promoted or cleared under the lock while a block
  runs, what a block writes goes into one entry.
* `flush_splits_a_block`: a run in which a flush comes between two writes of a block.
-/

namespace Interocitor

open CodeUnits GuardedRuns List Option Function

/-- Who waits for the lock or holds it: a call of `batch`, a `put` or `delete` outside of one, or
an operation (`flush`, `compact`, `rehydrate`, the batch timer and the like). -/
inductive BatchTask where
  | batch (b : ℕ)
  | write (w : ℕ)
  | operation (q : ℕ)
  deriving DecidableEq

/-- Where a call of `batch` is. -/
inductive BlockPhase where
  | idle
  | waiting
  | running
  | finished
  deriving DecidableEq

/-- A call of `batch`, with the operations of the writes that were awaited in its block. -/
structure Block where
  phase : BlockPhase
  ops : List Op

/-- Where a `put` or `delete` outside of the blocks is. -/
inductive WritePhase where
  | idle
  | waiting
  | writing
  -- it is in the pending batch, and `isBatching` has not been asked yet
  | committed
  | settled
  deriving DecidableEq

/-- An engine, as far as its pending batch goes.  `promoted` are all the entries that were
promoted. -/
structure Batches where
  batchDepth : ℕ
  batchTimer : Bool
  pendingBatch : Option ChangeEntry
  promoted : List ChangeEntry
  lock : Option BatchTask
  queue : List BatchTask
  blocks : ℕ → Block
  writes : ℕ → WritePhase

/-- What can happen. -/
inductive BatchEvent where
  | batch (b : ℕ)
  -- the lock goes to the first in the queue
  | acquire
  -- a write commits that is awaited inside the blocks `bs`, each in the one before
  | commit (bs : List ℕ) (change : ChangeEntry)
  -- the function of a block has returned or thrown
  | leave (b : ℕ)
  | write (w : ℕ)
  | commitWrite (w : ℕ) (change : ChangeEntry)
  | writeFails (w : ℕ)
  | settle (w : ℕ)
  | timerFires (q : ℕ)
  | call (q : ℕ)
  | promote
  | clear
  | release

namespace Batches

/-- An engine with nothing under way, and what an earlier one has left pending. -/
def start (pendingBatch : Option ChangeEntry) : Batches :=
  ⟨0, false, pendingBatch, [], none, [], fun _ => ⟨.idle, []⟩, fun _ => .idle⟩

/-- `flushPendingBatch`. -/
def flushPendingBatch (s : Batches) : Batches :=
  match s.pendingBatch with
  | none => { s with batchTimer := false }
  | some pending =>
    { s with batchTimer := false, pendingBatch := none, promoted := s.promoted ++ [pending] }

/-- `commitLocalMutation` of the store. -/
def commitLocalMutation (s : Batches) (change : ChangeEntry) : Batches :=
  { s with pendingBatch := some (LocalStore.joinBatch s.pendingBatch change) }

/-- Release the lock if it is held by that task. -/
def unlock (s : Batches) (task : BatchTask) : Batches :=
  { s with lock := if s.lock = some task then none else s.lock }

/-- A call of `batch` moves on. -/
def setPhase (s : Batches) (b : ℕ) (phase : BlockPhase) : Batches :=
  { s with blocks := Function.update s.blocks b { s.blocks b with phase := phase } }

/-- A write moves on. -/
def setWrite (s : Batches) (w : ℕ) (phase : WritePhase) : Batches :=
  { s with writes := Function.update s.writes w phase }

/-- `run` of `batch`, up to its function. -/
def enter (s : Batches) (b : ℕ) : Batches :=
  { s with batchDepth := s.batchDepth + 1 }.setPhase b .running

/-- The `finally` of `run`. -/
def leave (s : Batches) (b : ℕ) : Batches :=
  let left := { s with batchDepth := s.batchDepth - 1 }.setPhase b .finished
  if left.batchDepth = 0 then left.flushPendingBatch else left

/-- The end of `commitLocalMutation` of the engine. -/
def settle (batchWindowMs : ℤ) (s : Batches) : Batches :=
  if 0 < s.batchDepth then s
  else if batchWindowMs ≤ 0 then s.flushPendingBatch
  else { s with batchTimer := true }

/-- What a task does when it gets the lock. -/
def granted (s : Batches) : BatchTask → Batches
  | .batch b => s.enter b
  | .write w => s.setWrite w .writing
  | .operation _ => s

/-- The operation that holds the lock, if one does. -/
def operationRuns (s : Batches) : Bool :=
  match s.lock with
  | some (.operation _) => true
  | _ => false

/-- One step, if the event can happen. -/
def step (batchWindowMs : ℤ) (s : Batches) : BatchEvent → Option Batches
  | .batch b =>
    if (s.blocks b).phase ≠ .idle then none
    else if 0 < s.batchDepth then some (s.enter b)
    else some { s.setPhase b .waiting with queue := s.queue ++ [.batch b] }
  | .acquire =>
    match s.lock, s.queue with
    | none, task :: queue => some ({ s with lock := some task, queue := queue }.granted task)
    | _, _ => none
  | .commit bs change =>
    if ∀ b ∈ bs, (s.blocks b).phase = .running then
      some { s.commitLocalMutation change with
        blocks := fun b =>
          if b ∈ bs then { s.blocks b with ops := (s.blocks b).ops ++ change.ops }
          else s.blocks b }
    else none
  | .leave b =>
    if (s.blocks b).phase = .running then some ((s.leave b).unlock (.batch b)) else none
  | .write w =>
    if s.writes w ≠ .idle then none
    else if 0 < s.batchDepth then some (s.setWrite w .writing)
    else some { s.setWrite w .waiting with queue := s.queue ++ [.write w] }
  | .commitWrite w change =>
    if s.writes w = .writing then some ((s.commitLocalMutation change).setWrite w .committed)
    else none
  | .writeFails w =>
    if s.writes w = .writing then some ((s.setWrite w .settled).unlock (.write w)) else none
  | .settle w =>
    if s.writes w = .committed then
      some (((s.settle batchWindowMs).setWrite w .settled).unlock (.write w))
    else none
  | .timerFires q =>
    if s.batchTimer then some { s with batchTimer := false, queue := s.queue ++ [.operation q] }
    else none
  | .call q => some { s with queue := s.queue ++ [.operation q] }
  | .promote => if s.operationRuns then some s.flushPendingBatch else none
  | .clear =>
    if s.operationRuns then some { s with pendingBatch := none, batchTimer := false } else none
  | .release => if s.operationRuns then some { s with lock := none } else none

/-! ## What a block writes -/

/-- The writes of a block are in the pending batch, in their order, until the last of the blocks
that run together has ended; then they are in one entry that was promoted. -/
def Whole (s : Batches) (b : ℕ) : Prop :=
  (s.blocks b).ops = [] ∨
    (∃ pending, s.pendingBatch = some pending ∧ (s.blocks b).ops.Sublist pending.ops) ∧
      ((s.blocks b).phase = .finished → 0 < s.batchDepth) ∨
    (s.blocks b).phase = .finished ∧
      ∃ entry ∈ s.promoted, (s.blocks b).ops.Sublist entry.ops

/-- While a block runs, no operation under the lock promotes the pending batch or clears it. -/
def Undisturbed (s : Batches) : BatchEvent → Prop
  | .promote => s.batchDepth = 0 ∨ s.pendingBatch = none
  | .clear => s.batchDepth = 0 ∨ s.pendingBatch = none
  | _ => True

/-- The depth counts the blocks that run, and a block that was not entered has written nothing. -/
structure Counted (s : Batches) : Prop where
  depth : ∃ running : Finset ℕ, (∀ b, b ∈ running ↔ (s.blocks b).phase = .running) ∧
    s.batchDepth = running.card
  unopened : ∀ b, (s.blocks b).phase = .idle ∨ (s.blocks b).phase = .waiting →
    (s.blocks b).ops = []

/-- What the writes of the blocks come to is the same in both states. -/
structure SameBlocks (s s' : Batches) : Prop where
  depth : s'.batchDepth = s.batchDepth
  pending : s'.pendingBatch = s.pendingBatch
  promoted : s'.promoted = s.promoted
  blocks : s'.blocks = s.blocks

variable {s s' : Batches}

theorem Counted.same (h : Counted s) (hs : SameBlocks s s') : Counted s' := by
  constructor
  · rw [hs.blocks, hs.depth]
    exact h.depth
  · rw [hs.blocks]
    exact h.unopened

variable {b : ℕ}

theorem Whole.same (h : Whole s b) (hs : SameBlocks s s') : Whole s' b := by
  unfold Whole
  rw [hs.blocks, hs.depth, hs.pending, hs.promoted]
  exact h

theorem Counted.depth_pos (h : Counted s) (hb : (s.blocks b).phase = .running) :
    0 < s.batchDepth := by
  obtain ⟨running, hmem, hcard⟩ := h.depth
  rw [hcard, Finset.card_pos]
  exact ⟨b, (hmem b).mpr hb⟩

@[simp] theorem blocks_flushPendingBatch : s.flushPendingBatch.blocks = s.blocks := by
  unfold flushPendingBatch
  cases s.pendingBatch <;> rfl

@[simp] theorem batchDepth_flushPendingBatch : s.flushPendingBatch.batchDepth = s.batchDepth := by
  unfold flushPendingBatch
  cases s.pendingBatch <;> rfl

theorem promoted_flushPendingBatch :
    s.flushPendingBatch.promoted = s.promoted ++ s.pendingBatch.toList := by
  unfold flushPendingBatch
  cases s.pendingBatch with
  | none => exact (append_nil _).symm
  | some pending => rfl

theorem Counted.flushPendingBatch (h : Counted s) : Counted s.flushPendingBatch := by
  constructor
  · rw [blocks_flushPendingBatch, batchDepth_flushPendingBatch]
    exact h.depth
  · rw [blocks_flushPendingBatch]
    exact h.unopened

/-- When no block runs, promoting puts what is pending of a block into one entry. -/
theorem Counted.whole_flush (h : Counted s) (hdepth : s.batchDepth = 0)
    (hb : (s.blocks b).ops = [] ∨ (∃ pending, s.pendingBatch = some pending ∧
      (s.blocks b).ops.Sublist pending.ops) ∨ (s.blocks b).phase = .finished ∧
      ∃ entry ∈ s.promoted, (s.blocks b).ops.Sublist entry.ops) :
    Whole s.flushPendingBatch b := by
  unfold Whole
  rw [blocks_flushPendingBatch, promoted_flushPendingBatch]
  rcases hb with hnil | ⟨pending, hpending, hsub⟩ | ⟨hfinished, entry, hentry, hsub⟩
  · exact .inl hnil
  · cases hphase : (s.blocks b).phase with
    | idle => exact .inl (h.unopened b (.inl hphase))
    | waiting => exact .inl (h.unopened b (.inr hphase))
    | running =>
      have hpos := h.depth_pos hphase
      omega
    | finished =>
      refine .inr (.inr ⟨rfl, pending, ?_, hsub⟩)
      rw [hpending]
      exact mem_append_right _ mem_cons_self
  · exact .inr (.inr ⟨hfinished, entry, mem_append_left _ hentry, hsub⟩)

theorem sameBlocks_flush (h : s.pendingBatch = none) : SameBlocks s s.flushPendingBatch := by
  unfold flushPendingBatch
  rw [h]
  exact ⟨rfl, h.symm, rfl, rfl⟩

/-- Every block is whole, and the depth is right. -/
structure Inv (s : Batches) : Prop where
  counted : Counted s
  whole : ∀ b, Whole s b

theorem Inv.same (h : Inv s) (hs : SameBlocks s s') : Inv s' :=
  ⟨h.counted.same hs, fun b => (h.whole b).same hs⟩

theorem Inv.flush (h : Inv s) (hquiet : s.batchDepth = 0 ∨ s.pendingBatch = none) :
    Inv s.flushPendingBatch := by
  rcases hquiet with hdepth | hnone
  · refine ⟨h.counted.flushPendingBatch, fun b => h.counted.whole_flush hdepth ?_⟩
    rcases h.whole b with hnil | ⟨hpending, -⟩ | hpromoted
    · exact .inl hnil
    · exact .inr (.inl hpending)
    · exact .inr (.inr hpromoted)
  · exact h.same (sameBlocks_flush hnone)

theorem Inv.clear (h : Inv s) (hquiet : s.batchDepth = 0 ∨ s.pendingBatch = none) :
    Inv { s with pendingBatch := none, batchTimer := false } := by
  refine ⟨⟨h.counted.depth, h.counted.unopened⟩, fun b => ?_⟩
  rcases h.whole b with hnil | ⟨⟨pending, hpending, -⟩, hdone⟩ | hpromoted
  · exact .inl hnil
  · rcases hquiet with hdepth | hnone
    · cases hphase : (s.blocks b).phase with
      | idle => exact .inl (h.counted.unopened b (.inl hphase))
      | waiting => exact .inl (h.counted.unopened b (.inr hphase))
      | running =>
        have hpos := h.counted.depth_pos hphase
        omega
      | finished =>
        have hpos := hdone hphase
        omega
    · rw [hnone] at hpending
      exact absurd hpending (by simp)
  · exact .inr (.inr hpromoted)

/-! ### The steps -/

theorem ops_commit (change : ChangeEntry) :
    ∃ pending, (s.commitLocalMutation change).pendingBatch = some pending ∧
      (∀ before, s.pendingBatch = some before → pending.ops = before.ops ++ change.ops) ∧
      change.ops.Sublist pending.ops := by
  refine ⟨_, rfl, ?_⟩
  cases hp : s.pendingBatch with
  | none => exact ⟨fun _ h => absurd h (by simp), List.Sublist.refl _⟩
  | some before =>
    refine ⟨fun p h => ?_, sublist_append_right _ _⟩
    obtain rfl := some.inj h
    rfl

theorem Inv.commitLocalMutation (h : Inv s) (change : ChangeEntry) :
    Inv (s.commitLocalMutation change) := by
  refine ⟨⟨h.counted.depth, h.counted.unopened⟩, fun b => ?_⟩
  obtain ⟨pending, hpending, happend, -⟩ := ops_commit (s := s) change
  rcases h.whole b with hnil | ⟨⟨before, hbefore, hsub⟩, hdone⟩ | hpromoted
  · exact .inl hnil
  · refine .inr (.inl ⟨⟨pending, hpending, ?_⟩, hdone⟩)
    rw [happend before hbefore]
    exact hsub.trans (sublist_append_left _ _)
  · exact .inr (.inr hpromoted)

theorem Inv.commit (h : Inv s) {bs : List ℕ} (hbs : ∀ b ∈ bs, (s.blocks b).phase = .running)
    (change : ChangeEntry) :
    Inv { s.commitLocalMutation change with
      blocks := fun b =>
        if b ∈ bs then { s.blocks b with ops := (s.blocks b).ops ++ change.ops }
        else s.blocks b } := by
  have hphase : ∀ b, (if b ∈ bs then { s.blocks b with ops := (s.blocks b).ops ++ change.ops }
      else s.blocks b).phase = (s.blocks b).phase := fun b => by split_ifs <;> rfl
  obtain ⟨pending, hpending, happend, hchange⟩ := ops_commit (s := s) change
  refine ⟨⟨?_, fun b hb => ?_⟩, fun b => ?_⟩
  · obtain ⟨running, hmem, hcard⟩ := h.counted.depth
    exact ⟨running, fun b => (hmem b).trans (by rw [hphase]), hcard⟩
  · rw [hphase] at hb
    have hout : b ∉ bs := fun hin => by
      rw [hbs b hin] at hb
      simp at hb
    simp only [if_neg hout]
    exact h.counted.unopened b hb
  · by_cases hin : b ∈ bs
    · have hrun := hbs b hin
      refine .inr (.inl ⟨⟨pending, hpending, ?_⟩, fun hfinished => ?_⟩)
      · simp only [if_pos hin]
        rcases h.whole b with hnil | ⟨⟨before, hbefore, hsub⟩, -⟩ | ⟨hfinished, -⟩
        · rw [hnil, nil_append]
          exact hchange
        · rw [happend before hbefore]
          exact hsub.append (List.Sublist.refl _)
        · rw [hrun] at hfinished
          exact absurd hfinished (by simp)
      · rw [hphase, hrun] at hfinished
        exact absurd hfinished (by simp)
    · have hold := (h.commitLocalMutation change).whole b
      unfold Whole at hold ⊢
      simp only [if_neg hin]
      exact hold

theorem blocks_setPhase_self (b : ℕ) (phase : BlockPhase) :
    (s.setPhase b phase).blocks b = { s.blocks b with phase := phase } := update_self ..

theorem blocks_setPhase_ne {c : ℕ} (phase : BlockPhase) (h : c ≠ b) :
    (s.setPhase b phase).blocks c = s.blocks c := update_of_ne h ..

theorem Inv.waits (h : Inv s) (hb : (s.blocks b).phase = .idle) : Inv (s.setPhase b .waiting) := by
  have hops := h.counted.unopened b (.inl hb)
  refine ⟨⟨?_, fun c hc => ?_⟩, fun c => ?_⟩
  · obtain ⟨running, hmem, hcard⟩ := h.counted.depth
    refine ⟨running, fun c => (hmem c).trans ?_, hcard⟩
    by_cases hcb : c = b
    · rw [hcb, blocks_setPhase_self, hb]
      simp
    · rw [blocks_setPhase_ne _ hcb]
  · by_cases hcb : c = b
    · rw [hcb, blocks_setPhase_self]
      exact hops
    · rw [blocks_setPhase_ne _ hcb] at hc ⊢
      exact h.counted.unopened c hc
  · unfold Whole
    by_cases hcb : c = b
    · rw [hcb, blocks_setPhase_self]
      exact .inl hops
    · rw [blocks_setPhase_ne _ hcb]
      exact h.whole c

theorem Inv.enter (h : Inv s) (hb : (s.blocks b).phase = .idle ∨ (s.blocks b).phase = .waiting) :
    Inv (s.enter b) := by
  have hops := h.counted.unopened b hb
  have hself : (s.enter b).blocks b = { s.blocks b with phase := .running } :=
    update_self ..
  have hother : ∀ c, c ≠ b → (s.enter b).blocks c = s.blocks c := fun c hc =>
    update_of_ne hc ..
  have hdepth : (s.enter b).batchDepth = s.batchDepth + 1 := rfl
  refine ⟨⟨?_, fun c hc => ?_⟩, fun c => ?_⟩
  · obtain ⟨running, hmem, hcard⟩ := h.counted.depth
    have hnot : b ∉ running := fun hin => by
      rw [hmem] at hin
      rw [hin] at hb
      simp at hb
    refine ⟨insert b running, fun c => ?_, ?_⟩
    · rw [Finset.mem_insert]
      by_cases hcb : c = b
      · rw [hcb, hself]
        simp
      · rw [hother c hcb, hmem]
        simp [hcb]
    · rw [Finset.card_insert_of_notMem hnot, hdepth, hcard]
  · by_cases hcb : c = b
    · rw [hcb, hself]
      exact hops
    · rw [hother c hcb] at hc ⊢
      exact h.counted.unopened c hc
  · unfold Whole
    by_cases hcb : c = b
    · rw [hcb, hself]
      exact .inl hops
    · rw [hother c hcb, hdepth]
      rcases h.whole c with hnil | ⟨hpending, -⟩ | hpromoted
      · exact .inl hnil
      · exact .inr (.inl ⟨hpending, fun _ => Nat.succ_pos _⟩)
      · exact .inr (.inr hpromoted)

theorem Inv.left (h : Inv s) (hb : (s.blocks b).phase = .running) :
    let left := { s with batchDepth := s.batchDepth - 1 }.setPhase b .finished
    Counted left ∧ ∀ c, (left.blocks c).ops = [] ∨
      (∃ pending, left.pendingBatch = some pending ∧
        (left.blocks c).ops.Sublist pending.ops) ∨
      (left.blocks c).phase = .finished ∧
        ∃ entry ∈ left.promoted, (left.blocks c).ops.Sublist entry.ops := by
  intro left
  have hself : left.blocks b = { s.blocks b with phase := .finished } := update_self ..
  have hother : ∀ c, c ≠ b → left.blocks c = s.blocks c := fun c hc => update_of_ne hc ..
  refine ⟨⟨?_, fun c hc => ?_⟩, fun c => ?_⟩
  · obtain ⟨running, hmem, hcard⟩ := h.counted.depth
    refine ⟨running.erase b, fun c => ?_, ?_⟩
    · rw [Finset.mem_erase, hmem]
      by_cases hcb : c = b
      · rw [hcb, hself]
        simp
      · rw [hother c hcb]
        simp [hcb]
    · have hdepth : left.batchDepth = s.batchDepth - 1 := rfl
      rw [Finset.card_erase_of_mem ((hmem b).mpr hb), hdepth, hcard]
  · by_cases hcb : c = b
    · rw [hcb, hself] at hc
      simp at hc
    · rw [hother c hcb] at hc ⊢
      exact h.counted.unopened c hc
  · by_cases hcb : c = b
    · rw [hcb, hself]
      rcases h.whole b with hnil | ⟨hpending, -⟩ | ⟨hfinished, -⟩
      · exact .inl hnil
      · exact .inr (.inl hpending)
      · rw [hb] at hfinished
        exact absurd hfinished (by simp)
    · rw [hother c hcb]
      rcases h.whole c with hnil | ⟨hpending, -⟩ | hpromoted
      · exact .inl hnil
      · exact .inr (.inl hpending)
      · exact .inr (.inr hpromoted)

theorem Inv.leave (h : Inv s) (hb : (s.blocks b).phase = .running) : Inv (s.leave b) := by
  obtain ⟨hcounted, hloose⟩ := h.left hb
  rw [Batches.leave]
  split_ifs with hdepth
  · exact ⟨hcounted.flushPendingBatch, fun c => hcounted.whole_flush hdepth (hloose c)⟩
  · refine ⟨hcounted, fun c => ?_⟩
    rcases hloose c with hnil | hpending | hpromoted
    · exact .inl hnil
    · exact .inr (.inl ⟨hpending, fun _ => Nat.pos_of_ne_zero hdepth⟩)
    · exact .inr (.inr hpromoted)

theorem Inv.settle (h : Inv s) (batchWindowMs : ℤ) : Inv (s.settle batchWindowMs) := by
  unfold Batches.settle
  split_ifs with hdepth
  · exact h
  · exact h.flush (.inl (Nat.eq_zero_of_not_pos hdepth))
  · exact h.same ⟨rfl, rfl, rfl, rfl⟩

/-- The calls of `batch` in the queue for the lock wait for it, each once. -/
structure Queued (s : Batches) : Prop where
  waiting : ∀ b, .batch b ∈ s.queue → (s.blocks b).phase = .waiting
  once : ∀ b, s.queue.count (.batch b) ≤ 1

theorem Queued.keep (h : Queued s) (hqueue : s'.queue = s.queue)
    (hwaiting : ∀ b, (s.blocks b).phase = .waiting → (s'.blocks b).phase = .waiting) :
    Queued s' := by
  constructor
  · rw [hqueue]
    exact fun b hb => hwaiting b (h.waiting b hb)
  · rw [hqueue]
    exact h.once

/-- Other tasks in the queue do not matter to the calls of `batch`. -/
theorem Queued.push (h : Queued s) {task : BatchTask} (htask : ∀ b, task ≠ .batch b)
    (hqueue : s'.queue = s.queue ++ [task]) (hblocks : s'.blocks = s.blocks) : Queued s' := by
  constructor
  · intro b hb
    rw [hqueue, mem_append, mem_singleton] at hb
    rcases hb with hb | hb
    · rw [hblocks]
      exact h.waiting b hb
    · exact absurd hb.symm (htask b)
  · intro b
    rw [hqueue, count_append, count_singleton]
    simp only [beq_iff_eq, if_neg (htask b), Nat.add_zero]
    exact h.once b

theorem queue_flushPendingBatch : s.flushPendingBatch.queue = s.queue := by
  unfold flushPendingBatch
  cases s.pendingBatch <;> rfl

theorem queue_leave (b : ℕ) : (s.leave b).queue = s.queue := by
  rw [Batches.leave]
  split_ifs
  · exact queue_flushPendingBatch
  · rfl

theorem blocks_leave (b : ℕ) :
    (s.leave b).blocks = Function.update s.blocks b { s.blocks b with phase := .finished } := by
  rw [Batches.leave]
  split_ifs
  · exact blocks_flushPendingBatch
  · rfl

theorem settle_eq (batchWindowMs : ℤ) :
    (s.settle batchWindowMs).queue = s.queue ∧ (s.settle batchWindowMs).blocks = s.blocks := by
  unfold Batches.settle
  split_ifs
  · exact ⟨rfl, rfl⟩
  · exact ⟨queue_flushPendingBatch, blocks_flushPendingBatch⟩
  · exact ⟨rfl, rfl⟩

theorem Queued.update (h : Queued s) (hb : (s.blocks b).phase ≠ .waiting)
    (hqueue : s'.queue = s.queue) {block : Block}
    (hblocks : s'.blocks = Function.update s.blocks b block) : Queued s' := by
  refine h.keep hqueue fun c hc => ?_
  have hcb : c ≠ b := by
    rintro rfl
    exact hb hc
  rw [hblocks, update_of_ne hcb]
  exact hc

/-- The queue of the lock is in order, and every block is whole. -/
structure Sound (s : Batches) : Prop where
  inv : Inv s
  queued : Queued s

theorem Sound.batch (h : Sound s) (hb : (s.blocks b).phase = .idle) :
    Sound { s.setPhase b .waiting with queue := s.queue ++ [.batch b] } := by
  have hout : .batch b ∉ s.queue := fun hin => by
    rw [h.queued.waiting b hin] at hb
    simp at hb
  refine ⟨(h.inv.waits hb).same ⟨rfl, rfl, rfl, rfl⟩, ⟨fun c hc => ?_, fun c => ?_⟩⟩
  · show ((s.setPhase b .waiting).blocks c).phase = .waiting
    by_cases hcb : c = b
    · rw [hcb, blocks_setPhase_self]
    · rw [blocks_setPhase_ne _ hcb]
      refine h.queued.waiting c ?_
      rcases mem_append.mp hc with hin | hin
      · exact hin
      · rw [mem_singleton, BatchTask.batch.injEq] at hin
        exact absurd hin hcb
  · show (s.queue ++ [BatchTask.batch b]).count (.batch c) ≤ 1
    rw [count_append]
    by_cases hcb : c = b
    · rw [hcb, count_eq_zero.mpr hout, count_singleton_self]
    · have hother : [BatchTask.batch b].count (.batch c) = 0 :=
        count_eq_zero.mpr (by simpa using hcb)
      rw [hother]
      exact h.queued.once c

theorem Sound.acquire (h : Sound s) {task : BatchTask} {queue : List BatchTask}
    (hqueue : s.queue = task :: queue) :
    Sound ({ s with lock := some task, queue := queue }.granted task) := by
  have hwaiting : ∀ b, .batch b ∈ queue → (s.blocks b).phase = .waiting := fun b hb =>
    h.queued.waiting b (hqueue ▸ mem_cons_of_mem _ hb)
  have honce : ∀ b, queue.count (.batch b) ≤ 1 := fun b => by
    have hcount := h.queued.once b
    rw [hqueue] at hcount
    exact (count_le_count_cons ..).trans hcount
  have hinv : Inv { s with lock := some task, queue := queue } := h.inv.same ⟨rfl, rfl, rfl, rfl⟩
  cases task with
  | batch b =>
    have hb : (s.blocks b).phase = .waiting :=
      h.queued.waiting b (hqueue ▸ mem_cons_self)
    have hout : .batch b ∉ queue := fun hin => by
      have hcount := h.queued.once b
      rw [hqueue, count_cons_self] at hcount
      have hpos := count_pos_iff.mpr hin
      omega
    refine ⟨hinv.enter (.inr hb), ⟨fun c hc => ?_, honce⟩⟩
    have hcb : c ≠ b := by
      rintro rfl
      exact hout hc
    show (Function.update s.blocks b _ c).phase = .waiting
    rw [update_of_ne hcb]
    exact hwaiting c hc
  | write w => exact ⟨hinv.same ⟨rfl, rfl, rfl, rfl⟩, ⟨hwaiting, honce⟩⟩
  | operation q => exact ⟨hinv, ⟨hwaiting, honce⟩⟩

/-- **One step.** -/
theorem sound_step {batchWindowMs : ℤ} {e : BatchEvent} (h : Sound s)
    (hstep : step batchWindowMs s e = some s') (hok : Undisturbed s e) : Sound s' := by
  cases e with
  | batch b =>
    simp only [step] at hstep
    split_ifs at hstep with hidle hdepth
    · obtain rfl := some.inj hstep
      rw [not_not] at hidle
      exact ⟨h.inv.enter (.inl hidle), h.queued.update (by simp [hidle]) rfl rfl⟩
    · obtain rfl := some.inj hstep
      exact h.batch (not_not.mp hidle)
  | acquire =>
    simp only [step] at hstep
    split at hstep
    · rename_i task queue _ hqueue
      obtain rfl := some.inj hstep
      exact h.acquire hqueue
    · simp at hstep
  | commit bs change =>
    simp only [step] at hstep
    split_ifs at hstep with hbs
    obtain rfl := some.inj hstep
    refine ⟨h.inv.commit hbs change, h.queued.keep rfl fun b hb => ?_⟩
    show (if b ∈ bs then { s.blocks b with ops := (s.blocks b).ops ++ change.ops }
      else s.blocks b).phase = .waiting
    split_ifs <;> exact hb
  | leave b =>
    simp only [step] at hstep
    split_ifs at hstep with hb
    obtain rfl := some.inj hstep
    exact ⟨(h.inv.leave hb).same ⟨rfl, rfl, rfl, rfl⟩,
      h.queued.update (by simp [hb]) (queue_leave b) (blocks_leave b)⟩
  | write w =>
    simp only [step] at hstep
    split_ifs at hstep with hidle hdepth
    · obtain rfl := some.inj hstep
      exact ⟨h.inv.same ⟨rfl, rfl, rfl, rfl⟩, h.queued.keep rfl fun _ hb => hb⟩
    · obtain rfl := some.inj hstep
      exact ⟨h.inv.same ⟨rfl, rfl, rfl, rfl⟩, h.queued.push (by simp) rfl rfl⟩
  | commitWrite w change =>
    simp only [step] at hstep
    split_ifs at hstep
    obtain rfl := some.inj hstep
    exact ⟨(h.inv.commitLocalMutation change).same ⟨rfl, rfl, rfl, rfl⟩,
      h.queued.keep rfl fun _ hb => hb⟩
  | writeFails w =>
    simp only [step] at hstep
    split_ifs at hstep
    obtain rfl := some.inj hstep
    exact ⟨h.inv.same ⟨rfl, rfl, rfl, rfl⟩, h.queued.keep rfl fun _ hb => hb⟩
  | settle w =>
    simp only [step] at hstep
    split_ifs at hstep
    obtain rfl := some.inj hstep
    obtain ⟨hqueue, hblocks⟩ := settle_eq (s := s) batchWindowMs
    refine ⟨(h.inv.settle batchWindowMs).same ⟨rfl, rfl, rfl, rfl⟩, h.queued.keep hqueue ?_⟩
    show ∀ b, _ → (((s.settle batchWindowMs).blocks b).phase = .waiting)
    rw [hblocks]
    exact fun _ hb => hb
  | timerFires q =>
    simp only [step] at hstep
    split_ifs at hstep
    obtain rfl := some.inj hstep
    exact ⟨h.inv.same ⟨rfl, rfl, rfl, rfl⟩, h.queued.push (by simp) rfl rfl⟩
  | call q =>
    obtain rfl := some.inj hstep
    exact ⟨h.inv.same ⟨rfl, rfl, rfl, rfl⟩, h.queued.push (by simp) rfl rfl⟩
  | promote =>
    simp only [step] at hstep
    split_ifs at hstep
    obtain rfl := some.inj hstep
    refine ⟨h.inv.flush hok, h.queued.keep queue_flushPendingBatch ?_⟩
    rw [blocks_flushPendingBatch]
    exact fun _ hb => hb
  | clear =>
    simp only [step] at hstep
    split_ifs at hstep
    obtain rfl := some.inj hstep
    exact ⟨h.inv.clear hok, h.queued.keep rfl fun _ hb => hb⟩
  | release =>
    simp only [step] at hstep
    split_ifs at hstep
    obtain rfl := some.inj hstep
    exact ⟨h.inv.same ⟨rfl, rfl, rfl, rfl⟩, h.queued.keep rfl fun _ hb => hb⟩

theorem sound_start (pendingBatch : Option ChangeEntry) : Sound (start pendingBatch) :=
  ⟨⟨⟨⟨∅, fun b => by simp [start], rfl⟩, fun _ _ => rfl⟩, fun _ => .inl rfl⟩,
    ⟨fun b hb => absurd hb not_mem_nil, fun b => Nat.zero_le _⟩⟩

/-- **One entry for a block.**  In every run in which no operation under the lock promotes or clears
what is pending while a block runs, what a block has written is pending as a whole or has been
promoted as a whole, in the order in which it was committed. -/
theorem blocks_in_one_entry (batchWindowMs : ℤ) (pendingBatch : Option ChangeEntry)
    (h : Reached (start pendingBatch) (step batchWindowMs) Undisturbed s) : ∀ b, Whole s b :=
  (h.invariant (sound_start pendingBatch) fun _ _ _ => sound_step).inv.whole

/-! ### Two writes of a block -/

/-- The change of a write that deletes a row. -/
def deletion (rowId : Text) : ChangeEntry :=
  ⟨rowId, 0, [100], rowId, [.delete [116] rowId rowId]⟩

/-- A block is entered, a second one joins it and writes, and the first one ends. -/
def joined : List BatchEvent :=
  [.batch 0, .acquire, .batch 1, .commit [1] (deletion [97]), .leave 0]

/-- The second block writes again and ends before a flush gets the lock. -/
def endedBefore : List BatchEvent :=
  joined ++ [.commit [1] (deletion [98]), .leave 1, .call 0, .acquire]

/-- A flush gets the lock and promotes before the second block writes again and ends. -/
def flushedBetween : List BatchEvent :=
  joined ++ [.call 0, .acquire, .promote, .commit [1] (deletion [98]), .leave 1]

/-- Where the block has ended first, both of its writes are in one entry, and the flush that comes
then finds nothing to promote. -/
theorem block_ended_before_flush :
    ∃ s, run (step 100) (start none) (endedBefore ++ [.promote]) = some s ∧ Whole s 1 ∧
      s.promoted.map ChangeEntry.ops = [(deletion [97]).ops ++ (deletion [98]).ops] := by
  obtain ⟨s, hs⟩ : ∃ s, run (step 100) (start none) endedBefore = some s := ⟨_, rfl⟩
  have hreached : Reached (start none) (step 100) Undisturbed s := by
    refine .run .start endedBefore (allOk_of_forall (fun s e he => ?_) _) hs
    simp only [endedBefore, joined, cons_append, nil_append, mem_cons, not_mem_nil, or_false] at he
    rcases he with rfl | rfl | rfl | rfl | rfl | rfl | rfl | rfl | rfl <;> trivial
  have hend : s.batchDepth = 0 ∧ step 100 s .promote = some s.flushPendingBatch ∧
      s.flushPendingBatch.promoted.map ChangeEntry.ops =
        [(deletion [97]).ops ++ (deletion [98]).ops] := by
    obtain rfl := some.inj hs
    exact ⟨rfl, rfl, rfl⟩
  refine ⟨s.flushPendingBatch, ?_, ?_, hend.2.2⟩
  · obtain rfl := some.inj hs
    rfl
  · exact blocks_in_one_entry 100 none (hreached.step hend.2.1 (.inl hend.1)) 1

/-- **A block is split.**  A flush that comes between the two writes promotes the first one
alone. -/
theorem flush_splits_a_block :
    ∃ s, run (step 100) (start none) flushedBetween = some s ∧
      (s.blocks 1).ops = (deletion [97]).ops ++ (deletion [98]).ops ∧
      s.promoted.map ChangeEntry.ops = [(deletion [97]).ops, (deletion [98]).ops] ∧
      ¬ Whole s 1 := by
  refine ⟨_, rfl, rfl, rfl, ?_⟩
  rintro (h | ⟨⟨pending, hpending, -⟩, -⟩ | ⟨-, entry, hentry, hsub⟩)
  · have hnil : (deletion [97]).ops ++ (deletion [98]).ops = [] := h
    exact absurd hnil (by simp [deletion])
  · have hnone : (none : Option ChangeEntry) = some pending := hpending
    exact absurd hnone (by simp)
  · have hentry : entry ∈ [deletion [97], deletion [98]] := hentry
    have hlong : 2 ≤ entry.ops.length := hsub.length_le
    rcases mem_pair.mp hentry with rfl | rfl <;> simp [deletion] at hlong

end Batches

end Interocitor
