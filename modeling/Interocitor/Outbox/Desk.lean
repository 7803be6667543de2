import Interocitor.Awaits.Frame
import Interocitor.Foundation.Pool

/-!
# An outbox, and what becomes of its entries

A desk is the local store of one device, together with a record of what its flushes send to
the primary remote.  Flushes come one after the other; each transaction and each request of
a flush may fail, and the process may stop in the middle.  While a flush waits, other calls
go on queueing entries.

Entries are recognised by their ids, and ids are generated: an entry that is queued has an id
that no entry had before.

* `Desk.Inv`: every entry that ever was in the outbox is still there, or its change file was
  written, or it is in the quarantine; and all change files that were sent for an entry are
  the same.
* `Desk.Extends`: a step that takes nothing out of the outbox.  Everything that others do is
  such a step, and so is most of what a flush does.
-/

namespace Interocitor

open CodeUnits OrderedRecord Interaction List

/-! ## The desk -/

/-- A change file: where it is, and what is in it. -/
structure ChangeFile where
  path : ObjectPath
  meshId : Text
  entry : ChangeEntry

/-- The change file of an entry in a mesh. -/
def fileOf (meshId : Text) (entry : ChangeEntry) : ChangeFile :=
  ⟨.change (changeFileName entry), meshId, entry⟩

/-- The change file that a request writes. -/
def filesOf : Call → List ChangeFile
  | .writeFile path (.change meshId entry) => [⟨path, meshId, entry⟩]
  | _ => []

theorem filesOf_harmless {c : Call} (h : Harmless c) : filesOf c = [] := by
  cases c with
  | writeFile path content =>
    cases content with
    | change meshId entry => exact h.elim
    | _ => rfl
  | _ => rfl

/-- A write that was answered by an error. -/
def Refused : (c : Call) → Reply c → Prop
  | .writeFile _ _, .error _ => True
  | _, _ => False

/-- A local store, every entry that ever was in its outbox, the change files that were sent
to the primary remote, and those of them that it wrote. -/
structure Desk where
  store : LocalStore
  arrived : List ChangeEntry
  sent : List ChangeFile
  applied : List ChangeFile

namespace Desk

/-- A desk before the first flush. -/
def start (store : LocalStore) : Desk := ⟨store, store.outbox, [], []⟩

/-- The desk after a transaction of the store. -/
def after (w : Desk) (f : LocalStore → LocalStore) : Desk :=
  { w with store := f w.store, arrived := w.arrived ++ (f w.store).outbox }

/-- The entries in the quarantine. -/
def quarantined (w : Desk) : List ChangeEntry :=
  (w.store.metadata.quarantinedOfflineChanges.map fun q => q.entries).getD []

/-- What a flush is answered: a transaction may fail, and then it may have happened or not; a
write that is refused may have happened or not; otherwise the remotes answer anything. -/
def Answers (w : Desk) : (a : Await) → Answer a → Desk → Prop
  | .transact f, found, w' =>
    (found = none ∧ (w' = w ∨ w' = w.after f)) ∨ (found = some w.store ∧ w' = w.after f)
  | .remote none c, rep, w' =>
    w' = { w with sent := w.sent ++ filesOf c, applied := w.applied ++ filesOf c } ∨
      (Refused c rep ∧ w' = { w with sent := w.sent ++ filesOf c })
  | .remote (some _) _, _, w' => w' = w

/-- The entries that are known, in the outbox, published or in the quarantine. -/
def known (w : Desk) : List ChangeEntry := w.arrived ++ w.quarantined

/-- What others do to the store while a flush waits: local writes, whose entries get new ids,
and changes to rows and metadata. -/
inductive Others (w : Desk) : Desk → Prop
  | commit (row : Row) (change : ChangeEntry) (hnew : ∀ a ∈ w.known, a.id ≠ change.id) :
      Others w (w.after fun store => store.commitLocalMutation row change)
  | promote : Others w (w.after LocalStore.promotePendingBatch)
  | push (entries : List ChangeEntry) (hnew : ∀ e ∈ entries, ∀ a ∈ w.known, a.id ≠ e.id)
      (hpending : ∀ e ∈ entries, ∀ p, w.store.pendingBatch = some p → p.id ≠ e.id)
      (hdistinct : ∀ e ∈ entries, ∀ e' ∈ entries, e.id = e'.id → e = e') :
      Others w (w.after fun store => store.pushOutboxEntries entries)
  | rows (rows : Record Text Row) : Others w (w.after fun store => { store with rows := rows })
  | setMeta (f : Metadata → Metadata) (hmesh : ∀ m, (f m).meshId = m.meshId)
      (hquarantine : ∀ m, (f m).quarantinedOfflineChanges = m.quarantinedOfflineChanges) :
      Others w (w.after fun store => { store with metadata := f store.metadata })

/-- The rules of a desk: one flush at a time, with anything in memory. -/
def rules : Pool.Rules Await Answer Memory (Except Failure Unit) Desk Unit where
  starts _ _ p := ∃ (includePendingBatch : Bool) (s : Memory), p = Aw.flushQueued includePendingBatch s
  answer _ := Answers
  outside := Others

/-! ## The invariant -/

/-- An id belongs to one entry. -/
structure Distinct (w : Desk) : Prop where
  known : ∀ a ∈ w.known, ∀ b ∈ w.known, a.id = b.id → a = b
  pending : ∀ p, w.store.pendingBatch = some p → ∀ a ∈ w.known, a.id ≠ p.id

/-- The change file of an entry was written. -/
def Delivered (w : Desk) (entry : ChangeEntry) : Prop := ∃ meshId, fileOf meshId entry ∈ w.applied

/-- The store belongs to a mesh. -/
def Member (meshId : Text) (w : Desk) : Prop :=
  meshId ≠ [] ∧ w.store.metadata.meshId = some meshId

/-- No entry is lost, and every change file that was sent is that of its entry. -/
structure Inv (w : Desk) : Prop where
  distinct : Distinct w
  outbox : ∀ e ∈ w.store.outbox, e ∈ w.arrived
  kept : ∀ e ∈ w.arrived, e ∈ w.store.outbox ∨ w.Delivered e ∨ e ∈ w.quarantined
  sent : ∀ x ∈ w.sent, ∃ e ∈ w.arrived, ∃ meshId, Member meshId w ∧ x = fileOf meshId e
  applied : ∀ x ∈ w.applied, x ∈ w.sent

/-- A step that takes nothing out of the outbox, and sends nothing. -/
structure Extends (w w₁ : Desk) : Prop where
  outbox : ∃ new, w₁.store.outbox = w.store.outbox ++ new ∧
    (∀ e, e ∈ w₁.arrived ↔ e ∈ w.arrived ∨ e ∈ new) ∧ ∀ e ∈ new, e ∉ w.arrived
  quarantined : w₁.quarantined = w.quarantined
  sent : w₁.sent = w.sent
  applied : w₁.applied = w.applied
  member : ∀ meshId, Member meshId w → Member meshId w₁

variable {w w₁ w₂ : Desk}

theorem inv_start {store : LocalStore} (h : Distinct (start store)) : Inv (start store) where
  distinct := h
  outbox _ he := he
  kept _ he := .inl he
  sent _ hx := absurd hx not_mem_nil
  applied _ hx := absurd hx not_mem_nil

namespace Extends

protected theorem refl (w : Desk) : Extends w w where
  outbox := ⟨[], (append_nil _).symm, fun _ => by simp, fun _ he => absurd he not_mem_nil⟩
  quarantined := rfl
  sent := rfl
  applied := rfl
  member _ h := h

theorem arrived (h : Extends w w₁) : w.arrived ⊆ w₁.arrived := by
  obtain ⟨new, -, harrived, -⟩ := h.outbox
  exact fun e he => (harrived e).mpr (.inl he)

protected theorem trans (h₁ : Extends w w₁) (h₂ : Extends w₁ w₂) : Extends w w₂ where
  outbox := by
    obtain ⟨new₁, hout₁, harr₁, hnew₁⟩ := h₁.outbox
    obtain ⟨new₂, hout₂, harr₂, hnew₂⟩ := h₂.outbox
    refine ⟨new₁ ++ new₂, by rw [hout₂, hout₁, append_assoc], fun e => ?_, fun e he => ?_⟩
    · rw [harr₂, harr₁, mem_append, or_assoc]
    · rcases mem_append.mp he with he | he
      · exact hnew₁ e he
      · exact fun harr => hnew₂ e he (h₁.arrived harr)
  quarantined := h₂.quarantined.trans h₁.quarantined
  sent := h₂.sent.trans h₁.sent
  applied := h₂.applied.trans h₁.applied
  member meshId h := h₂.member meshId (h₁.member meshId h)

theorem mem_outbox (h : Extends w w₁) {e : ChangeEntry} (he : e ∈ w.store.outbox) :
    e ∈ w₁.store.outbox := by
  obtain ⟨new, hout, -, -⟩ := h.outbox
  rw [hout]
  exact mem_append_left _ he

theorem inv (h : Extends w w₁) (hdistinct : Distinct w₁) (hinv : Inv w) : Inv w₁ where
  distinct := hdistinct
  outbox e he := by
    obtain ⟨new, hout, harrived, -⟩ := h.outbox
    rw [hout] at he
    rcases mem_append.mp he with he | he
    · exact (harrived e).mpr (.inl (hinv.outbox e he))
    · exact (harrived e).mpr (.inr he)
  kept e he := by
    obtain ⟨new, hout, harrived, -⟩ := h.outbox
    rcases (harrived e).mp he with hold | hnew
    · rcases hinv.kept e hold with hbox | ⟨meshId, hfile⟩ | hquarantined
      · exact .inl (h.mem_outbox hbox)
      · exact .inr (.inl ⟨meshId, h.applied ▸ hfile⟩)
      · exact .inr (.inr (h.quarantined ▸ hquarantined))
    · exact .inl (hout ▸ mem_append_right _ hnew)
  sent x hx := by
    rw [h.sent] at hx
    obtain ⟨e, he, meshId, hmember, rfl⟩ := hinv.sent x hx
    exact ⟨e, h.arrived he, meshId, h.member meshId hmember, rfl⟩
  applied x hx := by
    rw [h.applied] at hx
    rw [h.sent]
    exact hinv.applied x hx

end Extends

/-! ## Transactions that take nothing out -/

/-- A transaction that keeps the queue, the quarantine and the mesh id. -/
def Aside (f : LocalStore → LocalStore) : Prop :=
  ∀ store, (f store).outbox = store.outbox ∧ (f store).pendingBatch = store.pendingBatch ∧
    (f store).metadata.quarantinedOfflineChanges = store.metadata.quarantinedOfflineChanges ∧
    (f store).metadata.meshId = store.metadata.meshId

theorem aside_id : Aside id := fun _ => ⟨rfl, rfl, rfl, rfl⟩

theorem aside_setMeta {f : Metadata → Metadata} (hmesh : ∀ m, (f m).meshId = m.meshId)
    (hquarantine : ∀ m, (f m).quarantinedOfflineChanges = m.quarantinedOfflineChanges) :
    Aside fun store => { store with metadata := f store.metadata } :=
  fun store => ⟨rfl, rfl, hquarantine store.metadata, hmesh store.metadata⟩

variable {f : LocalStore → LocalStore}

theorem Inv.arrived_after (h : Inv w) (hf : (f w.store).outbox = w.store.outbox) (e : ChangeEntry) :
    e ∈ (w.after f).arrived ↔ e ∈ w.arrived := by
  show e ∈ w.arrived ++ (f w.store).outbox ↔ _
  rw [hf, mem_append]
  exact ⟨fun he => he.elim id (h.outbox e), .inl⟩

/-- A transaction that keeps the outbox and the quarantine, and a mesh id that is there. -/
theorem Inv.extends_after (h : Inv w) (hout : (f w.store).outbox = w.store.outbox)
    (hquarantine : (f w.store).metadata.quarantinedOfflineChanges =
      w.store.metadata.quarantinedOfflineChanges)
    (hmember : ∀ meshId, Member meshId w → Member meshId (w.after f)) :
    Extends w (w.after f) where
  outbox := by
    refine ⟨[], hout.trans (append_nil _).symm, fun e => ?_, fun _ he =>
      absurd he not_mem_nil⟩
    rw [h.arrived_after hout]
    simp
  quarantined := by
    show (Option.map _ (f w.store).metadata.quarantinedOfflineChanges).getD [] = _
    rw [hquarantine]
    rfl
  sent := rfl
  applied := rfl
  member := hmember

theorem Inv.known_after (h : Inv w) (hout : (f w.store).outbox = w.store.outbox)
    (hquarantine : (f w.store).metadata.quarantinedOfflineChanges =
      w.store.metadata.quarantinedOfflineChanges)
    (e : ChangeEntry) : e ∈ (w.after f).known ↔ e ∈ w.known := by
  have hq : (w.after f).quarantined = w.quarantined := by
    show (Option.map _ (f w.store).metadata.quarantinedOfflineChanges).getD [] = _
    rw [hquarantine]
    rfl
  rw [known, known, mem_append, mem_append, h.arrived_after hout, hq]

theorem Distinct.of_known (h : Distinct w) (hknown : ∀ e, e ∈ w₁.known → e ∈ w.known)
    (hpending : ∀ p, w₁.store.pendingBatch = some p → ∀ a ∈ w.known, a.id ≠ p.id) :
    Distinct w₁ where
  known a ha b hb := h.known a (hknown a ha) b (hknown b hb)
  pending p hp a ha := hpending p hp a (hknown a ha)

theorem Inv.after_aside (h : Inv w) (hf : Aside f) : Inv (w.after f) ∧ Extends w (w.after f) := by
  obtain ⟨hout, hpending, hquarantine, hmesh⟩ := hf w.store
  have hext : Extends w (w.after f) := by
    refine h.extends_after hout hquarantine fun meshId hmember => ⟨hmember.1, ?_⟩
    exact hmesh.trans hmember.2
  refine ⟨hext.inv ?_ h, hext⟩
  refine h.distinct.of_known (fun e => (h.known_after hout hquarantine e).mp) fun p hp => ?_
  exact h.distinct.pending p (hpending ▸ hp)

variable {new : List ChangeEntry}

theorem Inv.extends_append (h : Inv w) (hout : (f w.store).outbox = w.store.outbox ++ new)
    (hmeta : (f w.store).metadata = w.store.metadata) (hnew : ∀ e ∈ new, ∀ a ∈ w.known,
      a.id ≠ e.id) :
    Extends w (w.after f) where
  outbox := by
    refine ⟨new, hout, fun e => ?_, fun e he harrived => ?_⟩
    · show e ∈ w.arrived ++ (f w.store).outbox ↔ _
      rw [hout, mem_append, mem_append]
      exact ⟨fun he => he.elim .inl fun he => he.imp_left (h.outbox e), fun he => he.imp_right .inr⟩
    · exact hnew e he e (mem_append_left _ harrived) rfl
  quarantined := by
    show (Option.map _ (f w.store).metadata.quarantinedOfflineChanges).getD [] = _
    rw [hmeta]
    rfl
  sent := rfl
  applied := rfl
  member meshId hmember := by
    refine ⟨hmember.1, ?_⟩
    show (f w.store).metadata.meshId = some meshId
    rw [hmeta]
    exact hmember.2

theorem Extends.mem_known (h : Extends w w₁)
    (harrived : ∀ e, e ∈ w₁.arrived ↔ e ∈ w.arrived ∨ e ∈ new) (e : ChangeEntry) :
    e ∈ w₁.known ↔ e ∈ w.known ∨ e ∈ new := by
  rw [known, known, mem_append, mem_append, harrived, h.quarantined]
  tauto

theorem Distinct.append (h : Distinct w) (hknown : ∀ e, e ∈ w₁.known ↔ e ∈ w.known ∨ e ∈ new)
    (hnew : ∀ e ∈ new, ∀ a ∈ w.known, a.id ≠ e.id)
    (hdistinct : ∀ e ∈ new, ∀ e' ∈ new, e.id = e'.id → e = e')
    (hpending : ∀ p, w₁.store.pendingBatch = some p →
      (∀ a ∈ w.known, a.id ≠ p.id) ∧ ∀ e ∈ new, e.id ≠ p.id) :
    Distinct w₁ where
  known a ha b hb hid := by
    rcases (hknown a).mp ha with ha | ha
    · rcases (hknown b).mp hb with hb | hb
      · exact h.known a ha b hb hid
      · exact absurd hid (hnew b hb a ha)
    · rcases (hknown b).mp hb with hb | hb
      · exact absurd hid.symm (hnew a ha b hb)
      · exact hdistinct a ha b hb hid
  pending p hp a ha := by
    rcases (hknown a).mp ha with ha | ha
    · exact (hpending p hp).1 a ha
    · exact (hpending p hp).2 a ha

theorem Inv.after_promote (h : Inv w) :
    Inv (w.after LocalStore.promotePendingBatch) ∧
      Extends w (w.after LocalStore.promotePendingBatch) := by
  cases hp : w.store.pendingBatch with
  | none =>
    have hsame : w.store.promotePendingBatch = w.store := by
      rw [LocalStore.promotePendingBatch, hp]
    have hafter : w.after LocalStore.promotePendingBatch = w.after id := by
      rw [after, after, hsame]
      rfl
    rw [hafter]
    exact h.after_aside aside_id
  | some p =>
    have hout : w.store.promotePendingBatch.outbox = w.store.outbox ++ [p] := by
      rw [LocalStore.promotePendingBatch, hp]
    have hmeta : w.store.promotePendingBatch.metadata = w.store.metadata := by
      rw [LocalStore.promotePendingBatch, hp]
    have hnone : w.store.promotePendingBatch.pendingBatch = none := by
      rw [LocalStore.promotePendingBatch, hp]
    have hnew : ∀ e ∈ [p], ∀ a ∈ w.known, a.id ≠ e.id := by
      intro e he
      obtain rfl := mem_singleton.mp he
      exact h.distinct.pending e hp
    have hext := h.extends_append hout hmeta hnew
    refine ⟨hext.inv ?_ h, hext⟩
    refine h.distinct.append (hext.mem_known fun e => ?_) hnew (fun e he e' he' _ => ?_)
      fun q hq => ?_
    · show e ∈ w.arrived ++ w.store.promotePendingBatch.outbox ↔ _
      rw [hout, mem_append, mem_append]
      exact ⟨fun he => he.elim .inl fun he => he.imp_left (h.outbox e), fun he => he.imp_right .inr⟩
    · rw [mem_singleton.mp he, mem_singleton.mp he']
    · exact absurd (hnone.symm.trans hq) (by simp)

theorem Inv.others (h : Inv w) (hothers : Others w w₁) :
    Inv w₁ ∧ Extends w w₁ ∧ w₁.store.metadata.meshId = w.store.metadata.meshId := by
  cases hothers with
  | commit row change hnew =>
    have hext : Extends w (w.after fun store => store.commitLocalMutation row change) :=
      h.extends_after rfl rfl fun _ hmember => hmember
    refine ⟨hext.inv (h.distinct.of_known (fun e => (h.known_after rfl rfl e).mp) ?_) h, hext, rfl⟩
    -- a batch keeps the id of its first change
    intro p hp
    have hp' : LocalStore.joinBatch w.store.pendingBatch change = p := Option.some.inj hp
    cases hq : w.store.pendingBatch with
    | none =>
      rw [hq] at hp'
      exact hp' ▸ hnew
    | some q =>
      rw [hq] at hp'
      exact hp' ▸ h.distinct.pending q hq
  | promote =>
    refine ⟨h.after_promote.1, h.after_promote.2, ?_⟩
    show w.store.promotePendingBatch.metadata.meshId = _
    rw [LocalStore.promotePendingBatch]
    split <;> rfl
  | push entries hnew hpending hdistinct =>
    have hext : Extends w (w.after fun store => store.pushOutboxEntries entries) :=
      h.extends_append rfl rfl hnew
    refine ⟨hext.inv ?_ h, hext, rfl⟩
    refine h.distinct.append (hext.mem_known fun e => ?_) hnew hdistinct fun p hp => ?_
    · show e ∈ w.arrived ++ (w.store.outbox ++ entries) ↔ _
      rw [mem_append, mem_append]
      exact ⟨fun he => he.elim .inl fun he => he.imp_left (h.outbox e), fun he => he.imp_right .inr⟩
    · exact ⟨h.distinct.pending p hp, fun e he hid => hpending e he p hp hid.symm⟩
  | rows rows =>
    obtain ⟨hinv, hext⟩ := h.after_aside (f := fun store => { store with rows := rows })
      fun _ => ⟨rfl, rfl, rfl, rfl⟩
    exact ⟨hinv, hext, rfl⟩
  | setMeta f hmesh hquarantine =>
    obtain ⟨hinv, hext⟩ := h.after_aside (aside_setMeta hmesh hquarantine)
    exact ⟨hinv, hext, hmesh _⟩

/-! ## The other steps of a flush -/

theorem Inv.after_meshId (h : Inv w) {meshId : Text} (hne : meshId ≠ [])
    (hconflict : meshConflict w.store.metadata.meshId meshId = none) :
    let f := fun store : LocalStore =>
      { store with metadata := { store.metadata with meshId := some meshId } }
    Inv (w.after f) ∧ Extends w (w.after f) ∧ Member meshId (w.after f) := by
  intro f
  have hext : Extends w (w.after f) := by
    refine h.extends_after rfl rfl fun id hmember => ⟨hmember.1, ?_⟩
    have hid : id = meshId := by
      rw [hmember.2] at hconflict
      exact meshConflict_eq_none_iff.mp hconflict id (truthy_of_ne_nil hmember.1)
    exact hid ▸ rfl
  refine ⟨hext.inv ?_ h, hext, hne, rfl⟩
  exact h.distinct.of_known (fun e => (h.known_after rfl rfl e).mp) h.distinct.pending

theorem Inv.send (h : Inv w) {meshId : Text} {e : ChangeEntry} (he : e ∈ w.arrived)
    (hmember : Member meshId w) {applied : List ChangeFile}
    (happlied : applied = w.applied ∨ applied = w.applied ++ [fileOf meshId e]) :
    Inv { w with sent := w.sent ++ [fileOf meshId e], applied := applied } where
  distinct := ⟨h.distinct.known, h.distinct.pending⟩
  outbox := h.outbox
  kept x hx := by
    rcases h.kept x hx with hbox | ⟨id, hfile⟩ | hquarantined
    · exact .inl hbox
    · refine .inr (.inl ⟨id, ?_⟩)
      show fileOf id x ∈ applied
      rcases happlied with rfl | rfl
      · exact hfile
      · exact mem_append_left _ hfile
    · exact .inr (.inr hquarantined)
  sent x hx := by
    rcases mem_append.mp hx with hx | hx
    · exact h.sent x hx
    · exact ⟨e, he, meshId, hmember, mem_singleton.mp hx⟩
  applied x hx := by
    change x ∈ applied at hx
    show x ∈ w.sent ++ [fileOf meshId e]
    rcases happlied with rfl | rfl
    · exact mem_append_left _ (h.applied x hx)
    · rcases mem_append.mp hx with hx | hx
      · exact mem_append_left _ (h.applied x hx)
      · exact mem_append_right _ hx

theorem Inv.mem_acknowledged (h : Inv w) {entries : List ChangeEntry}
    (hentries : ∀ e ∈ entries, e ∈ w.arrived) (e : ChangeEntry) :
    e ∈ (w.store.acknowledgeOutbox (entries.map ChangeEntry.id)).outbox ↔
      e ∈ w.store.outbox ∧ e ∉ entries := by
  rw [LocalStore.acknowledgeOutbox, mem_filter, decide_eq_true_iff]
  refine and_congr_right fun hout => not_congr ?_
  constructor
  · intro hid
    obtain ⟨x, hx, hxe⟩ := mem_map.mp hid
    have hknown : e = x := h.distinct.known e (mem_append_left _ (h.outbox e hout)) x
      (mem_append_left _ (hentries x hx)) hxe.symm
    exact hknown ▸ hx
  · exact fun he => mem_map.mpr ⟨e, he, rfl⟩

theorem Inv.after_acknowledge (h : Inv w) {entries : List ChangeEntry}
    (hentries : ∀ e ∈ entries, e ∈ w.arrived)
    (hsafe : ∀ e ∈ entries, w.Delivered e ∨ e ∈ w.quarantined) :
    let w' := w.after fun store => store.acknowledgeOutbox (entries.map ChangeEntry.id)
    Inv w' ∧ ∀ e, e ∈ w'.arrived ↔ e ∈ w.arrived := by
  intro w'
  have harrived : ∀ e, e ∈ w'.arrived ↔ e ∈ w.arrived := by
    intro e
    show e ∈ w.arrived ++ (w.store.acknowledgeOutbox _).outbox ↔ _
    rw [mem_append, h.mem_acknowledged hentries]
    exact ⟨fun he => he.elim id fun he => h.outbox e he.1, .inl⟩
  have hknown : ∀ e, e ∈ w'.known → e ∈ w.known := by
    intro e he
    rcases mem_append.mp he with he | he
    · exact mem_append_left _ ((harrived e).mp he)
    · exact mem_append_right _ he
  refine ⟨⟨h.distinct.of_known hknown h.distinct.pending, fun e he => ?_, fun e he => ?_,
    fun x hx => ?_, h.applied⟩, harrived⟩
  · rw [harrived]
    exact h.outbox e ((h.mem_acknowledged hentries e).mp he).1
  · rw [harrived] at he
    by_cases hentry : e ∈ entries
    · exact .inr (hsafe e hentry)
    · rcases h.kept e he with hout | hrest
      · exact .inl ((h.mem_acknowledged hentries e).mpr ⟨hout, hentry⟩)
      · exact .inr hrest
  · obtain ⟨e, he, meshId, hmember, rfl⟩ := h.sent x hx
    exact ⟨e, (harrived e).mpr he, meshId, hmember, rfl⟩

theorem mem_byId {l : List ChangeEntry} (h : ∀ a ∈ l, ∀ b ∈ l, a.id = b.id → a = b)
    (e : ChangeEntry) : e ∈ (byId l).values ↔ e ∈ l := by
  -- the entries that are indexed already are among those of the list
  have hfold : ∀ (back : List ChangeEntry) (r : Record Text ChangeEntry), (∀ x ∈ back, x ∈ l) →
      (∀ k x, r.get k = some x → x.id = k ∧ x ∈ l) → ∀ k x,
      (back.foldl (fun r entry => r.set entry.id entry) r).get k = some x ↔
        r.get k = some x ∨ (x ∈ back ∧ x.id = k) := by
    intro back
    induction back with
    | nil => exact fun r _ _ k x => by simp
    | cons y back ih =>
      intro r hback hr k x
      have hy := hback y mem_cons_self
      rw [foldl_cons, ih _ (fun x hx => hback x (mem_cons_of_mem _ hx)) ?_,
        Record.get_set, mem_cons]
      · split
        · rename_i hk
          constructor
          · rintro (hx | ⟨hx, hid⟩)
            · obtain rfl := Option.some.inj hx
              exact .inr ⟨.inl rfl, hk⟩
            · exact .inr ⟨.inr hx, hid⟩
          · rintro (hx | ⟨rfl | hx, hid⟩)
            · obtain ⟨hid, hmem⟩ := hr k x hx
              rw [h x hmem y hy (hid.trans hk.symm)]
              exact .inl rfl
            · exact .inl rfl
            · exact .inr ⟨hx, hid⟩
        · rename_i hk
          constructor
          · rintro (hx | ⟨hx, hid⟩)
            · exact .inl hx
            · exact .inr ⟨.inr hx, hid⟩
          · rintro (hx | ⟨rfl | hx, hid⟩)
            · exact .inl hx
            · exact absurd hid hk
            · exact .inr ⟨hx, hid⟩
      · intro k x hx
        rw [Record.get_set] at hx
        split at hx
        · rename_i hk
          obtain rfl := Option.some.inj hx
          exact ⟨hk, hy⟩
        · exact hr k x hx
  rw [Record.mem_values_iff]
  constructor
  · rintro ⟨k, hk⟩
    have hmem := (hfold l ∅ (fun x hx => hx) (fun k x hx => absurd hx (by simp)) k e).mp hk
    exact hmem.elim (fun hn => absurd hn (by simp)) And.left
  · intro he
    exact ⟨e.id, (hfold l ∅ (fun x hx => hx) (fun k x hx => absurd hx (by simp)) e.id e).mpr
      (.inr ⟨he, rfl⟩)⟩

theorem Inv.after_quarantine (h : Inv w) {queued : List ChangeEntry}
    (hqueued : ∀ e ∈ queued, e ∈ w.arrived) {existing : Option QuarantinedOfflineChanges}
    (hexisting : (existing.map fun q => q.entries).getD [] = w.quarantined) (now last : ℕ)
    (limit : ℤ) : let f := fun store : LocalStore =>
      { store with
        metadata :=
          { store.metadata with
            quarantinedOfflineChanges :=
              some (Aw.nextQuarantine existing queued now last limit) } }
    Inv (w.after f) ∧ (∀ e, e ∈ (w.after f).arrived ↔ e ∈ w.arrived) ∧
      ∀ e, e ∈ (w.after f).quarantined ↔ e ∈ w.quarantined ∨ e ∈ queued := by
  intro f
  have hall : ∀ e ∈ w.quarantined ++ queued, e ∈ w.known := by
    intro e he
    rcases mem_append.mp he with he | he
    · exact mem_append_right _ he
    · exact mem_append_left _ (hqueued e he)
  have hmem : ∀ e, e ∈ (w.after f).quarantined ↔ e ∈ w.quarantined ∨ e ∈ queued := by
    intro e
    show e ∈ (byId ((existing.map fun q => q.entries).getD [] ++ queued)).values ↔ _
    rw [hexisting, mem_byId fun a ha b hb => h.distinct.known a (hall a ha) b (hall b hb), mem_append]
  have harrived := h.arrived_after (f := f) rfl
  have hknown : ∀ e, e ∈ (w.after f).known → e ∈ w.known := by
    intro e he
    rcases mem_append.mp he with he | he
    · exact mem_append_left _ ((harrived e).mp he)
    · exact hall e (mem_append.mpr ((hmem e).mp he))
  refine ⟨⟨h.distinct.of_known hknown h.distinct.pending, fun e he => ?_, fun e he => ?_,
    fun x hx => ?_, h.applied⟩, harrived, hmem⟩
  · exact (harrived e).mpr (h.outbox e he)
  · rcases h.kept e ((harrived e).mp he) with hout | hdelivered | hquarantined
    · exact .inl hout
    · exact .inr (.inl hdelivered)
    · exact .inr (.inr ((hmem e).mpr (.inl hquarantined)))
  · obtain ⟨e, he, meshId, hmember, rfl⟩ := h.sent x hx
    exact ⟨e, (harrived e).mpr he, meshId, hmember, rfl⟩

end Desk

end Interocitor
