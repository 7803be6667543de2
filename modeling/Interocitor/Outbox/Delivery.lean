import Interocitor.Outbox.Desk
import Interocitor.Outbox.Fence
import Interocitor.Outbox.Replicas

/-!
# A flush loses nothing

A flush reads the outbox, loads the manifest, compares the mesh id, looks at the retention
limit, writes its receipts, writes one change file for each entry, mirrors them to the
replicas, and only then takes the entries out of the outbox.  Where the retention limit has
passed, the entries go into the quarantine instead.

* `flush_keeps_entries`: in every state that any sequence of flushes reaches, no entry is
  lost, and all change files that were sent for an entry are equal; a flush that completes
  takes out of the outbox exactly what it published or put into the quarantine; and what the
  replicas answer makes no difference to a flush.
* `expired_flush_publishes_nothing`: an entry may leave the outbox unpublished.
-/

namespace Interocitor

open CodeUnits OrderedRecord Interaction List
open Proc (leads_bind leads_pure leads_of_keeps leads_modify AskKeeps leads_get leads_when wp_bind)

namespace Desk

variable {α : Type} {w w₁ : Desk} {s : Memory} {K : Memory → Desk → Prop}
  {f : LocalStore → LocalStore}

/-! ## What a flush relies on -/

/-- While a flush waits, nothing is taken out of the outbox, and the mesh id stays. -/
def office : Env Await Answer Desk where
  rely w w₁ := Inv w → Inv w₁ ∧ Extends w w₁ ∧
    w₁.store.metadata.meshId = w.store.metadata.meshId
  answer := Answers
  guar _ w₁ := Inv w₁

/-- What is known about a desk, beside the invariant. -/
def Known (K : Memory → Desk → Prop) (s : Memory) (w : Desk) : Prop := Inv w ∧ K s w

/-- What survives every step that takes nothing out of the outbox. -/
def Steady (K : Memory → Desk → Prop) : Prop :=
  ∀ s w w₁, Inv w → Extends w w₁ → K s w → K s w₁

theorem Known.rely (hK : Steady K) (h : Known K s w) (hr : office.rely w w₁) : Known K s w₁ :=
  ⟨(hr h.1).1, hK s w w₁ h.1 (hr h.1).2.1 h.2⟩

theorem askKeeps_transact (hK : Steady K)
    (hf : ∀ w, Inv w → Inv (w.after f) ∧ Extends w (w.after f)) :
    AskKeeps office (Known K) (.transact f) := by
  intro s w w₁ found w₂ h hr hans
  have h₁ := h.rely hK hr
  obtain ⟨hinv, hext⟩ := hf w₁ h₁.1
  have h₂ : Known K s (w₁.after f) := ⟨hinv, hK s w₁ _ h₁.1 hext h₁.2⟩
  rcases hans with ⟨-, rfl | rfl⟩ | ⟨-, rfl⟩
  · exact ⟨h₁.1, h₁⟩
  · exact ⟨hinv, h₂⟩
  · exact ⟨hinv, h₂⟩

theorem askKeeps_aside (hK : Steady K) (hf : Aside f) : AskKeeps office (Known K) (.transact f) :=
  askKeeps_transact hK fun _ h => h.after_aside hf

theorem askKeeps_harmless (hK : Steady K) {c : Call} (hc : Harmless c) :
    AskKeeps office (Known K) (.remote none c) := by
  intro s w w₁ rep w₂ h hr hans
  have h₁ := h.rely hK hr
  have hfiles := filesOf_harmless hc
  obtain rfl : w₂ = w₁ := by
    rcases hans with hw | ⟨-, hw⟩
    · rw [hw, hfiles, append_nil, append_nil]
    · rw [hw, hfiles, append_nil]
  exact ⟨h₁.1, h₁⟩

theorem askKeeps_replica (hK : Steady K) (i : ℕ) (c : Call) :
    AskKeeps office (Known K) (.remote (some i) c) := by
  intro s w w₁ rep w₂ h hr hans
  obtain rfl : w₂ = w₁ := hans
  have h₁ := h.rely hK hr
  exact ⟨h₁.1, h₁⟩

theorem quiet (hK : Steady K) (n : ℕ) :
    Quiet (Aw.atReplica office none) fun (d : Device) w => Known K (d.memory n) w where
  now := Aw.askKeeps_at n (askKeeps_harmless hK trivial)
  uuid := Aw.askKeeps_at n (askKeeps_harmless hK trivial)
  isAuthenticated := Aw.askKeeps_at n (askKeeps_harmless hK trivial)
  authenticate := Aw.askKeeps_at n (askKeeps_harmless hK trivial)
  readFile _ := Aw.askKeeps_at n (askKeeps_harmless hK trivial)
  listChanges := Aw.askKeeps_at n (askKeeps_harmless hK trivial)
  listMainline := Aw.askKeeps_at n (askKeeps_harmless hK trivial)
  ensureFolder _ := Aw.askKeeps_at n (askKeeps_harmless hK trivial)

/-- A method of a flush, for what is known before and after it. -/
abbrev Leads (K : Memory → Desk → Prop) (m : Aw α) (L : α → Memory → Desk → Prop) : Prop :=
  Proc.Leads office Inv K m L

theorem leads_transact (hK : Steady K) {L : LocalStore → Memory → Desk → Prop}
    (hf : ∀ s w, Inv w → K s w → Inv (w.after f) ∧ L w.store s (w.after f)) :
    Leads K (Aw.transact f) L := by
  intro s w hinv hk
  rw [Aw.wp_transact]
  intro w₁ hr found w₂ hans
  have h₁ : Known K s w₁ := Known.rely hK ⟨hinv, hk⟩ hr
  obtain ⟨hinv', hL⟩ := hf s w₁ h₁.1 h₁.2
  rcases hans with ⟨rfl, rfl | rfl⟩ | ⟨rfl, rfl⟩
  · exact ⟨h₁.1, fun _ hs => absurd hs (by simp), fun _ => h₁.1⟩
  · exact ⟨hinv', fun _ hs => absurd hs (by simp), fun _ => hinv'⟩
  · refine ⟨hinv', fun store hs => ?_, fun hn => absurd hn (by simp)⟩
    obtain rfl := Option.some.inj hs
    exact ⟨hinv', hL⟩

theorem leads_write (hK : Steady K) {L : Unit → Memory → Desk → Prop}
    (hf : ∀ s w, Inv w → K s w → Inv (w.after f) ∧ L () s (w.after f)) : Leads K (Aw.write f) L :=
  leads_bind (leads_transact hK (L := fun _ => L ()) hf) fun _ =>
    leads_pure _ fun _ _ _ h => h

theorem leads_read (hK : Steady K) {g : LocalStore → α} {L : α → Memory → Desk → Prop}
    (h : ∀ s w, Inv w → K s w → L (g w.store) s (w.after id)) : Leads K (Aw.read g) L := by
  refine leads_bind (leads_transact hK (L := fun found => L (g found)) fun s w hinv hk => ?_)
    fun found => leads_pure _ fun _ _ _ h => h
  exact ⟨(hinv.after_aside aside_id).1, h s w hinv hk⟩

theorem leads_aside (hK : Steady K) (hf : Aside f) : Leads K (Aw.write f) fun _ => K :=
  leads_of_keeps (Aw.keeps_write (askKeeps_aside hK hf))

theorem leads_look (hK : Steady K) (g : LocalStore → α) : Leads K (Aw.read g) fun _ => K :=
  leads_of_keeps (Aw.keeps_read (askKeeps_aside hK aside_id))

theorem leads_now (hK : Steady K) : Leads K Aw.now fun _ => K :=
  leads_of_keeps (Proc.keeps_ask (askKeeps_harmless hK trivial))

theorem leads_remotely {m : Eng α}
    (h : ∀ n, Proc.Keeps (Aw.atReplica office none) (fun (d : Device) w => Known K (d.memory n) w) m) :
    Leads K (Aw.remotely none m) fun _ => K :=
  leads_of_keeps (Aw.keeps_remotely h)

/-! ## The manifest -/

theorem steady_and {K' : Memory → Desk → Prop} (hK : Steady K) (hK' : Steady K') :
    Steady fun s w => K s w ∧ K' s w :=
  fun s w w₁ hinv hext h => ⟨hK s w w₁ hinv hext h.1, hK' s w w₁ hinv hext h.2⟩

theorem steady_member (meshId : Text) : Steady fun _ => Member meshId :=
  fun _ _ _ _ hext h => hext.member meshId h

theorem leads_assertExpectedMeshId (hK : Steady K) (manifest : Option Manifest) (meshId : Text) :
    Leads K (Aw.assertExpectedMeshId manifest meshId) fun _ s w => K s w ∧ Member meshId w := by
  rw [Aw.assertExpectedMeshId]
  split
  · exact Aw.leads_fail _
  rename_i hne
  split
  · exact Aw.leads_fail _
  intro s w hinv hk
  -- nobody else touches the mesh id between the comparison and the write
  have hset : ∀ s w, Inv w → K s w → meshConflict w.store.metadata.meshId meshId = none →
      (Aw.setMeta fun m => { m with meshId := some meshId }).wp office
        (fun _ s w => Inv w ∧ K s w ∧ Member meshId w) (fun _ _ => Inv) s w := by
    intro s w hinv hk hconflict
    rw [Aw.setMeta, Aw.write, wp_bind, Aw.wp_transact]
    intro w₁ hr found w₂ hans
    have h₁ : Known K s w₁ := Known.rely hK ⟨hinv, hk⟩ hr
    rw [← (hr hinv).2.2] at hconflict
    obtain ⟨hinv', hext, hmember⟩ := h₁.1.after_meshId hne hconflict
    rcases hans with ⟨rfl, rfl | rfl⟩ | ⟨rfl, rfl⟩
    · exact ⟨h₁.1, fun _ hs => absurd hs (by simp), fun _ => h₁.1⟩
    · exact ⟨hinv', fun _ hs => absurd hs (by simp), fun _ => hinv'⟩
    · exact ⟨hinv', fun _ _ => ⟨hinv', hK s w₁ _ h₁.1 hext h₁.2, hmember⟩,
        fun hn => absurd hn (by simp)⟩
  rw [wp_bind, Aw.getMeta, Aw.read, wp_bind, Aw.wp_transact]
  intro w₁ hr found w₂ hans
  have h₁ : Known K s w₁ := Known.rely hK ⟨hinv, hk⟩ hr
  obtain ⟨hinv', hext⟩ := h₁.1.after_aside aside_id
  rcases hans with ⟨rfl, rfl | rfl⟩ | ⟨rfl, rfl⟩
  · exact ⟨h₁.1, fun _ hs => absurd hs (by simp), fun _ => h₁.1⟩
  · exact ⟨hinv', fun _ hs => absurd hs (by simp), fun _ => hinv'⟩
  · refine ⟨hinv', fun store hs => ?_, fun hn => absurd hn (by simp)⟩
    obtain rfl := Option.some.inj hs
    show (_ : Aw Unit).wp office _ _ s (w₁.after id)
    split
    · exact hinv'
    · rename_i hconflict
      exact hset s _ hinv' (hK s w₁ _ h₁.1 hext h₁.2) hconflict

variable {N : Desk → Prop}

theorem leads_poisoned (e : EngineError) {L : α → Memory → Desk → Prop} :
    Leads (fun _ _ => True) (do Aw.fail (← Aw.poisonRemote e) : Aw α) L := by
  refine leads_bind (leads_of_keeps (Aw.keeps_remotely fun n => ?_)) fun _ =>
    Aw.leads_fail _
  exact Proc.keeps_bind (Proc.keeps_modify fun _ _ h => ⟨h.1, trivial⟩) fun _ => Proc.keeps_pure _

theorem leads_checkManifest (hN : Steady fun _ => N) (manifest : Manifest) :
    Leads (fun _ => N) (Aw.checkManifest true manifest) fun m _ w => N w ∧ Member m.meshId w := by
  rw [Aw.checkManifest]
  split
  · exact Aw.leads_fail _
  · rename_i m _
    refine leads_bind (M := fun _ _ w => N w ∧ Member m.meshId w)
      (leads_when (fun _ => ?_) fun hn => absurd rfl hn) fun _ => ?_
    · refine leads_get fun s => Proc.Leads.conseq (Aw.leads_attempt
        (leads_assertExpectedMeshId hN _ _) fun e => leads_poisoned e) (fun _ _ _ h => h.2)
          fun _ _ _ _ h => h
    · refine leads_bind (M := fun _ _ w => N w ∧ Member m.meshId w)
        (fun s w hinv hk => ⟨hinv, hk⟩) fun config => ?_
      split
      · exact Aw.leads_fail _
      · exact leads_pure _ fun _ _ _ h => h

theorem leads_bootstrapManifest (hN : Steady fun _ => N) :
    Leads (fun _ => N) Aw.bootstrapManifest fun _ _ => N := by
  refine leads_bind (leads_look hN _) fun meshId => ?_
  refine leads_bind (M := fun _ _ => N) ?_ fun lineage => leads_remotely fun n => ?_
  · rw [Aw.nextLineage]
    split
    · exact leads_bind (leads_look hN _) fun _ => leads_pure _ fun _ _ _ h => h
    · exact leads_pure _ fun _ _ _ h => h
  · exact keeps_createBootstrapManifest (fun c hc => Aw.askKeeps_at n (askKeeps_harmless hN hc)) _ _

theorem leads_doLoadOrCreateManifest (hN : Steady fun _ => N) (options : LoadOptions)
    (hoptions : options.assertLocalMeshId = true) :
    Leads (fun _ => N) (Aw.doLoadOrCreateManifest true options) fun _ s w =>
      N w ∧ ∃ m, s.manifest = some m ∧ Member m.meshId w := by
  refine leads_get fun s => ?_
  rw [if_neg (by simp)]
  refine Proc.Leads.conseq (K := fun _ => N) ?_ (fun _ _ _ h => h.2) fun _ _ _ _ h => h
  refine leads_bind (M := fun _ _ => N)
    (leads_remotely fun _ => Interocitor.keeps_requireAdapter) fun _ => ?_
  refine leads_bind (M := fun loaded _ w => N w ∧ Member loaded.1.meshId w) ?_ fun loaded => ?_
  · rw [hoptions]
    refine leads_bind (leads_remotely fun n => keeps_findPointer (quiet hN n) _) fun pointer => ?_
    split
    · refine leads_bind (leads_remotely fun n => keeps_readManifest ((quiet hN n).readFile _))
        fun manifest => ?_
      exact leads_bind (leads_checkManifest hN manifest) fun _ =>
        leads_pure _ fun _ _ _ h => h
    · refine leads_bind (leads_bootstrapManifest hN) fun manifest => ?_
      exact leads_bind (leads_checkManifest hN manifest) fun _ =>
        leads_pure _ fun _ _ _ h => h
  · refine leads_bind (M := fun _ s w => N w ∧ s.manifest = some loaded.1 ∧
      Member loaded.1.meshId w) (leads_modify fun s w h => ⟨h.1, rfl, h.2⟩) fun _ => ?_
    have hsteady : Steady fun s w => N w ∧ s.manifest = some loaded.1 ∧ Member loaded.1.meshId w :=
      fun s w w₁ hinv hext h => ⟨hN s w w₁ hinv hext h.1, h.2.1, hext.member _ h.2.2⟩
    refine leads_bind (leads_when (fun _ => leads_aside hsteady ?_)
      fun _ _ _ _ h => h) fun _ => leads_pure _ fun _ _ _ h => ⟨h.1, _, h.2⟩
    exact aside_setMeta (fun _ => rfl) fun _ => rfl

/-! ## Since a flush started -/

/-- The outbox holds what it held when a flush started and what was queued meanwhile, without
the entries that are gone. -/
structure Since (w₀ : Desk) (gone : List ChangeEntry) (w : Desk) : Prop where
  outbox : ∀ e, e ∈ w.store.outbox ↔
    e ∈ w.arrived ∧ (e ∈ w₀.store.outbox ∨ e ∉ w₀.arrived) ∧ e ∉ gone
  arrived : ∀ e ∈ w₀.arrived, e ∈ w.arrived
  gone : ∀ e ∈ gone, e ∈ w.arrived

/-- The change files that a flush has sent, all of them written. -/
structure Published (w₀ : Desk) (meshId : Text) (entries : List ChangeEntry) (w : Desk) : Prop where
  sent : w.sent = w₀.sent ++ entries.map (fileOf meshId)
  applied : w.applied = w₀.applied ++ entries.map (fileOf meshId)

/-- Entries are in the outbox. -/
def Queued (entries : List ChangeEntry) (w : Desk) : Prop := ∀ e ∈ entries, e ∈ w.store.outbox

/-- A flush that is done: it took out of the outbox what it published, or what it put into
the quarantine. -/
def Completed (w₀ w : Desk) : Prop :=
  ∃ published fenced meshId, Published w₀ meshId published w ∧ (∀ e ∈ fenced, e ∈ w.quarantined) ∧
    (published = [] ∨ fenced = []) ∧ Since w₀ (published ++ fenced) w

variable {w₀ : Desk} {entries gone : List ChangeEntry} {meshId : Text}

theorem since_start (h : Inv w) : Since w [] w where
  outbox e := by
    constructor
    · exact fun he => ⟨h.outbox e he, .inl he, not_mem_nil⟩
    · rintro ⟨harrived, hout | hnew, -⟩
      · exact hout
      · exact absurd harrived hnew
  arrived _ he := he
  gone _ he := absurd he not_mem_nil

theorem Since.extends (h : Since w₀ gone w) (hext : Extends w w₁) : Since w₀ gone w₁ where
  outbox e := by
    obtain ⟨new, hout, harrived, hnew⟩ := hext.outbox
    rw [hout, mem_append, h.outbox, harrived]
    constructor
    · rintro (⟨hold, hrest⟩ | he)
      · exact ⟨.inl hold, hrest⟩
      · exact ⟨.inr he, .inr fun h₀ => hnew e he (h.arrived e h₀), fun hg => hnew e he (h.gone e hg)⟩
    · rintro ⟨hold | he, hrest⟩
      · exact .inl ⟨hold, hrest⟩
      · exact .inr he
  arrived e he := hext.arrived (h.arrived e he)
  gone e he := hext.arrived (h.gone e he)

theorem Published.extends (h : Published w₀ meshId entries w) (hext : Extends w w₁) :
    Published w₀ meshId entries w₁ := ⟨hext.sent.trans h.sent, hext.applied.trans h.applied⟩

theorem Published.after (h : Published w₀ meshId entries w) :
    Published w₀ meshId entries (w.after f) := ⟨h.sent, h.applied⟩

theorem Queued.extends (h : Queued entries w) (hext : Extends w w₁) : Queued entries w₁ :=
  fun e he => hext.mem_outbox (h e he)

theorem Completed.extends (h : Completed w₀ w) (hext : Extends w w₁) : Completed w₀ w₁ := by
  obtain ⟨published, fenced, meshId, hpublished, hfenced, hone, hsince⟩ := h
  refine ⟨published, fenced, meshId, hpublished.extends hext, fun e he => ?_, hone,
    hsince.extends hext⟩
  rw [hext.quarantined]
  exact hfenced e he

theorem published_nil (hsent : w.sent = w₀.sent) (happlied : w.applied = w₀.applied)
    (meshId : Text) : Published w₀ meshId [] w :=
  ⟨hsent.trans (append_nil _).symm, happlied.trans (append_nil _).symm⟩

/-- A flush in progress, for some entries that it has read and some that it has sent. -/
structure Flushing (w₀ : Desk) (entries front : List ChangeEntry) (meshId : Text) (w : Desk) :
    Prop where
  since : Since w₀ [] w
  queued : Queued entries w
  published : Published w₀ meshId front w

variable {front : List ChangeEntry}

theorem Flushing.extends (h : Flushing w₀ entries front meshId w) (hext : Extends w w₁) :
    Flushing w₀ entries front meshId w₁ :=
  ⟨h.since.extends hext, h.queued.extends hext, h.published.extends hext⟩

theorem steady_flushing :
    Steady fun _ => Flushing w₀ entries front meshId := fun _ _ _ _ hext h => h.extends hext

theorem Flushing.completed (h : Flushing w₀ entries [] meshId w) : Completed w₀ w :=
  ⟨[], [], meshId, h.published, fun _ he => absurd he not_mem_nil, .inl rfl, h.since⟩

theorem Since.acknowledge (h : Since w₀ [] w) (hinv : Inv w) (hqueued : Queued gone w)
    (harrived : ∀ e, e ∈ (w.after fun store =>
      store.acknowledgeOutbox (gone.map ChangeEntry.id)).arrived ↔ e ∈ w.arrived) :
    Since w₀ gone (w.after fun store => store.acknowledgeOutbox (gone.map ChangeEntry.id)) where
  outbox e := by
    rw [harrived]
    show e ∈ (w.store.acknowledgeOutbox (gone.map ChangeEntry.id)).outbox ↔ _
    rw [hinv.mem_acknowledged fun x hx => hinv.outbox x (hqueued x hx), h.outbox]
    constructor
    · rintro ⟨⟨ha, hrest, -⟩, hgone⟩
      exact ⟨ha, hrest, hgone⟩
    · rintro ⟨ha, hrest, hgone⟩
      exact ⟨⟨ha, hrest, not_mem_nil⟩, hgone⟩
  arrived e he := (harrived e).mpr (h.arrived e he)
  gone e he := (harrived e).mpr (hinv.outbox e (hqueued e he))

/-! ## The quarantine -/

theorem leads_flushPendingBatch (hN : Steady fun _ => N) :
    Leads (fun _ => N) Aw.flushPendingBatch fun _ _ => N := by
  refine leads_bind (leads_of_keeps (Aw.keeps_transact
    (askKeeps_transact hN fun _ h => h.after_promote))) fun found => ?_
  exact leads_when (fun _ => leads_modify fun _ _ h => h) fun _ _ _ _ h => h

theorem leads_peekOutbox :
    Leads (fun _ => Flushing w₀ entries [] meshId) (Aw.read fun store => store.outbox)
      fun queued _ => Flushing w₀ queued [] meshId := by
  refine leads_read steady_flushing fun s w hinv h => ?_
  have h' := h.extends (hinv.after_aside aside_id).2
  exact ⟨h'.since, fun _ he => he, h'.published⟩

/-- The entries are in the quarantine. -/
structure Fencing (w₀ : Desk) (queued : List ChangeEntry) (w : Desk) : Prop where
  flushing : Flushing w₀ queued [] [] w
  fenced : ∀ e ∈ queued, e ∈ w.quarantined

theorem steady_fencing {queued : List ChangeEntry} : Steady fun _ => Fencing w₀ queued := by
  intro s w w₁ hinv hext h
  refine ⟨h.flushing.extends hext, fun e he => ?_⟩
  rw [hext.quarantined]
  exact h.fenced e he

theorem leads_fence (now last : ℕ) (limit : ℤ) :
    Leads (fun _ => Flushing w₀ entries [] []) (do
        Aw.flushPendingBatch
        let queued ← Aw.read fun store => store.outbox
        let existing ← Aw.getMeta fun m => m.quarantinedOfflineChanges
        Aw.setMeta fun m =>
          { m with
            quarantinedOfflineChanges := some (Aw.nextQuarantine existing queued now last limit) }
        Aw.setMeta fun m => { m with offlineRetentionExpiredAt := some now }
        Aw.write fun store => store.acknowledgeOutbox (queued.map ChangeEntry.id)
        Proc.modify fun s => { s with pendingBatch := false, pendingCount := 0 }
        pure true : Aw Bool) fun expired _ w => expired = true ∧ Completed w₀ w := by
  refine leads_bind (leads_flushPendingBatch steady_flushing) fun _ => ?_
  refine leads_bind leads_peekOutbox fun queued => ?_
  refine leads_bind (M := fun existing _ w => Flushing w₀ queued [] [] w ∧
    (Option.map (fun q => q.entries) existing).getD [] = w.quarantined)
    (leads_read steady_flushing fun s w hinv h => ⟨h.extends (hinv.after_aside aside_id).2, rfl⟩)
    fun existing => ?_
  refine leads_bind (M := fun _ _ => Fencing w₀ queued) (leads_write ?_ ?_) fun _ => ?_
  · rintro s w w₁ hinv hext ⟨h, hexisting⟩
    exact ⟨h.extends hext, hexisting.trans hext.quarantined.symm⟩
  · rintro s w hinv ⟨h, hexisting⟩
    obtain ⟨hinv', harrived, hmem⟩ := hinv.after_quarantine
      (fun e he => hinv.outbox e (h.queued e he)) hexisting now last limit
    refine ⟨hinv', ⟨⟨fun e => ?_, fun e he => ?_, fun e he => ?_⟩, h.queued, h.published.after⟩,
      fun e he => (hmem e).mpr (.inr he)⟩
    · rw [harrived]
      exact h.since.outbox e
    · exact (harrived e).mpr (h.since.arrived e he)
    · exact absurd he not_mem_nil
  refine leads_bind (leads_aside steady_fencing (aside_setMeta (fun _ => rfl) fun _ => rfl))
    fun _ => ?_
  refine leads_bind (M := fun _ _ => Completed w₀) (leads_write steady_fencing ?_) fun _ => ?_
  · intro s w hinv h
    obtain ⟨hinv', harrived⟩ := hinv.after_acknowledge
      (fun e he => hinv.outbox e (h.flushing.queued e he)) fun e he => .inr (h.fenced e he)
    refine ⟨hinv', [], queued, [], h.flushing.published.after, h.fenced, .inl rfl, ?_⟩
    exact h.flushing.since.acknowledge hinv h.flushing.queued harrived
  · refine leads_bind (leads_modify (L := fun _ _ => Completed w₀) fun _ _ h => h) fun _ => ?_
    exact leads_pure _ fun _ _ _ h => ⟨rfl, h⟩

/-- The manifest in memory is that of the store's mesh. -/
def Loaded (s : Memory) (w : Desk) : Prop := ∃ m, s.manifest = some m ∧ Member m.meshId w

theorem steady_loaded : Steady Loaded := by
  rintro s w w₁ - hext ⟨m, hm, hmember⟩
  exact ⟨m, hm, hext.member _ hmember⟩

theorem leads_quarantineExpiredOfflineWrites :
    Leads (fun s w => Flushing w₀ entries [] [] w ∧ Loaded s w) Aw.quarantineExpiredOfflineWrites
      fun expired s w => (expired = true → Completed w₀ w) ∧
        (expired = false → Flushing w₀ entries [] [] w ∧ Loaded s w) := by
  have hK : Steady fun s w => Flushing w₀ entries [] [] w ∧ Loaded s w :=
    steady_and steady_flushing steady_loaded
  refine leads_bind (leads_now hK) fun now => ?_
  refine leads_bind (M := fun _ s w => Flushing w₀ entries [] [] w ∧ Loaded s w) ?_ fun state => ?_
  · refine leads_bind (leads_remotely fun n => keeps_activeRetentionPolicy) fun policy => ?_
    refine leads_bind (leads_look hK _) fun last => ?_
    split
    · exact leads_pure _ fun _ _ _ h => h
    · exact leads_pure _ fun _ _ _ h => h
  split
  · rename_i last limit
    refine Proc.Leads.conseq (leads_fence now last limit) (fun _ _ _ h => h.1) ?_
    rintro expired s w - ⟨rfl, hdone⟩
    exact ⟨fun _ => hdone, fun hf => absurd hf (by simp)⟩
  · exact leads_pure _ fun _ _ _ h => ⟨fun hf => absurd hf (by simp), fun _ => h⟩

/-! ## Publication -/

theorem leads_recordFlushedChanges (hN : Steady fun _ => N) (entries : List ChangeEntry) :
    Leads (fun _ => N) (Aw.recordFlushedChanges entries) fun _ _ => N := by
  refine leads_bind (leads_look hN _) fun stored => ?_
  split
  · exact Aw.leads_fail _
  refine leads_bind (M := fun _ _ => N) ?_ fun persisted => ?_
  · refine leads_bind (leads_look hN _) fun generation => ?_
    split
    · exact leads_pure _ fun _ _ _ h => h
    refine leads_bind (leads_look hN _) fun durable => ?_
    split
    · exact leads_pure _ fun _ _ _ h => h
    · refine leads_bind (leads_aside hN (aside_setMeta (fun _ => rfl) fun _ => rfl)) fun _ => ?_
      exact leads_pure _ fun _ _ _ h => h
  · split
    · exact leads_pure _ fun _ _ _ h => h
    · exact Aw.leads_fail _

theorem leads_primary {m : Eng α} {L : α → Desk → Prop}
    (h : Proc.Leads (Aw.atReplica office none) Inv (fun _ => N) m fun a _ => L a) :
    Leads (fun _ => N) (Aw.remotely none m) fun a _ => L a := by
  intro s w hinv hn
  rw [Aw.wp_remotely]
  exact h _ w hinv hn

variable {manifest : Manifest}

theorem leads_writeChangeFile (hne : manifest.meshId ≠ []) {e : ChangeEntry} (he : e ∈ entries) :
    Proc.Leads (Aw.atReplica office none) Inv
      (fun _ w => Flushing w₀ entries front manifest.meshId w ∧ Member manifest.meshId w)
      (writeChangeFile (some manifest) e)
      fun _ _ w => Flushing w₀ entries (front ++ [e]) manifest.meshId w ∧
        Member manifest.meshId w := by
  intro d w hinv hk
  have htruthy : truthy ((some manifest).map fun m => m.meshId) = some manifest.meshId :=
    truthy_of_ne_nil hne
  rw [writeChangeFile, htruthy]
  show (Eng.writeFile _ _).wp _ _ _ d w
  rw [wp_writeFile]
  intro w₁ hr rep w₂ hans
  obtain ⟨hinv₁, hext, -⟩ := hr hinv
  have h₁ := hk.1.extends hext
  have hmember := hext.member _ hk.2
  have harrived := hinv₁.outbox e (h₁.queued e he)
  rcases hans with rfl | ⟨hrefused, rfl⟩
  · have hinv₂ := hinv₁.send harrived hmember (.inr rfl)
    refine ⟨hinv₂, ?_⟩
    cases rep with
    | ok _ =>
      refine ⟨hinv₂, ⟨⟨h₁.since.outbox, h₁.since.arrived, h₁.since.gone⟩, h₁.queued, ?_, ?_⟩,
        hmember⟩
      · show w₁.sent ++ [fileOf manifest.meshId e] = _
        rw [h₁.published.sent, map_append, append_assoc]
        rfl
      · show w₁.applied ++ [fileOf manifest.meshId e] = _
        rw [h₁.published.applied, map_append, append_assoc]
        rfl
    | error e => cases e <;> exact hinv₂
  · have hinv₂ := hinv₁.send harrived hmember (.inl rfl)
    refine ⟨hinv₂, ?_⟩
    cases rep with
    | ok _ => exact hrefused.elim
    | error e => cases e <;> exact hinv₂

theorem steady_sent :
    Steady fun _ w => Flushing w₀ entries front manifest.meshId w ∧ Member manifest.meshId w :=
  steady_and steady_flushing (steady_member _)

theorem leads_flushToAdapter (hne : manifest.meshId ≠ []) :
    Leads (fun _ w => Flushing w₀ entries [] manifest.meshId w ∧ Member manifest.meshId w)
      (Aw.remotely none (flushToAdapter (some manifest) entries))
      fun _ _ w => Flushing w₀ entries entries manifest.meshId w ∧ Member manifest.meshId w := by
  refine leads_primary ?_
  refine leads_bind (leads_of_keeps (keeps_ensureFolder
    ((quiet steady_sent 0).ensureFolder _))) fun _ => ?_
  refine leads_bind (Proc.leads_forEach (J := fun front _ w =>
    Flushing w₀ entries front manifest.meshId w ∧ Member manifest.meshId w)
    fun front e back hl => leads_writeChangeFile hne ?_) fun _ => ?_
  · rw [← hl]
    exact mem_append_right _ mem_cons_self
  have hsteady : Steady fun _ w => Flushing w₀ entries entries manifest.meshId w ∧
      Member manifest.meshId w := steady_sent
  have hquiet := quiet hsteady 0
  have hharmless : ∀ c, Harmless c → AskKeeps (Aw.atReplica office none)
      (fun (d : Device) w => Known (fun _ w => Flushing w₀ entries entries manifest.meshId w ∧
        Member manifest.meshId w) (d.memory 0) w) c :=
    fun c hc => Aw.askKeeps_at 0 (askKeeps_harmless hsteady hc)
  refine leads_bind (leads_when (fun _ => leads_of_keeps
    (keeps_writeHead hquiet (fun _ => hharmless _ trivial) _)) fun _ _ _ _ h => h) fun _ => ?_
  exact leads_of_keeps (keeps_upsertDeviceMetadata hquiet (fun _ _ => hharmless _ trivial) _)

theorem leads_markSuccessfulRemoteSync (hN : Steady fun _ => N) :
    Leads (fun _ => N) Aw.markSuccessfulRemoteSync fun _ _ => N := by
  refine leads_bind (leads_now hN) fun now => ?_
  refine leads_bind (leads_aside hN (aside_setMeta (fun _ => rfl) fun _ => rfl)) fun _ => ?_
  exact leads_aside hN (aside_setMeta (fun _ => rfl) fun _ => rfl)

theorem leads_publish :
    Leads (fun s w => Flushing w₀ entries [] [] w ∧ Loaded s w) (Aw.publish entries) fun _ _ =>
      Completed w₀ := by
  refine leads_get fun s => ?_
  intro s' w hinv hk
  obtain ⟨rfl, hflushing, manifest, hmanifest, hmember⟩ := hk
  -- the manifest is fixed from here on
  rw [hmanifest]
  have hrest : Leads (fun _ w => Flushing w₀ entries [] manifest.meshId w ∧
      Member manifest.meshId w) (do
        Aw.flushPrimary (some manifest) entries
        Aw.write fun store => store.acknowledgeOutbox (entries.map ChangeEntry.id)
        Aw.markSuccessfulRemoteSync) fun _ _ => Completed w₀ := by
    refine leads_bind (M := fun _ _ w => Flushing w₀ entries entries manifest.meshId w ∧
      Member manifest.meshId w) ?_ fun _ => ?_
    · refine leads_bind (leads_recordFlushedChanges steady_sent entries) fun _ => ?_
      refine leads_bind (leads_flushToAdapter hmember.1) fun _ => ?_
      refine leads_get fun s => Proc.Leads.conseq (leads_of_keeps
        (Proc.keeps_forEach fun replica _ => Aw.keeps_mirror_of_replica
          (askKeeps_replica steady_sent replica) _ _)) (fun _ _ _ h => h.2) fun _ _ _ _ h => h
    have hdone : Steady fun _ => Completed w₀ := fun _ _ _ _ hext h => h.extends hext
    refine leads_bind (M := fun _ _ => Completed w₀) (leads_write steady_sent ?_) fun _ =>
      leads_markSuccessfulRemoteSync hdone
    rintro s w hinv ⟨h, -⟩
    have hdelivered : ∀ e ∈ entries, w.Delivered e := by
      intro e he
      refine ⟨manifest.meshId, ?_⟩
      rw [h.published.applied]
      exact mem_append_right _ (mem_map.mpr ⟨e, he, rfl⟩)
    obtain ⟨hinv', harrived⟩ := hinv.after_acknowledge
      (fun e he => hinv.outbox e (h.queued e he)) fun e he => .inl (hdelivered e he)
    refine ⟨hinv', entries, [], manifest.meshId, h.published.after,
      fun _ he => absurd he not_mem_nil, .inr rfl, ?_⟩
    rw [append_nil]
    exact h.since.acknowledge hinv h.queued harrived
  refine hrest s' w hinv ⟨⟨hflushing.since, hflushing.queued, ?_⟩, hmember⟩
  exact ⟨hflushing.published.sent, hflushing.published.applied⟩

theorem leads_doFlush :
    Leads (fun _ => Flushing w₀ [] [] []) Aw.doFlush fun _ _ => Completed w₀ := by
  refine leads_get fun s => ?_
  split
  · exact leads_pure _ fun _ _ _ h => h.2.completed
  refine leads_bind (M := fun entries _ => Flushing w₀ entries [] []) ?_ fun entries => ?_
  · exact Proc.Leads.conseq leads_peekOutbox (fun _ _ _ h => h.2) fun _ _ _ _ h => h
  split
  · refine leads_bind (leads_modify (L := fun _ _ => Flushing w₀ entries [] [])
      fun _ _ h => h) fun _ => ?_
    exact leads_pure _ fun _ _ _ h => h.completed
  refine leads_bind (leads_doLoadOrCreateManifest steady_flushing {} rfl) fun _ => ?_
  refine leads_bind leads_quarantineExpiredOfflineWrites fun expired => ?_
  split
  · rename_i hexpired
    exact leads_pure _ fun _ _ _ h => h.1 hexpired
  · rename_i hexpired
    refine leads_bind (M := fun _ s w => Flushing w₀ entries [] [] w ∧ Loaded s w)
      (leads_modify fun s w h => h.2 (Bool.eq_false_iff.mpr hexpired)) fun _ => ?_
    refine leads_bind (Aw.leads_attempt leads_publish fun e => ?_) fun _ =>
      leads_pure _ fun _ _ _ h => h
    refine leads_bind (M := fun _ _ _ => True) (leads_of_keeps
      (Aw.keeps_handleRemoteAccessError (I := fun _ w => Inv w ∧ True) (fun _ _ _ _ h => h) e))
        fun _ => ?_
    exact leads_bind (leads_modify (L := fun _ _ _ => True) fun _ _ h => h) fun _ =>
      Aw.leads_fail _

/-- A flush that returns has taken out of the outbox what it published or fenced; one that
throws keeps the invariant. -/
theorem leads_flushQueued (includePendingBatch : Bool) :
    Leads (fun _ => Flushing w₀ [] [] []) (Aw.flushQueued includePendingBatch) fun _ _ =>
      Completed w₀ := by
  refine leads_bind (M := fun _ _ => Flushing w₀ [] [] []) (leads_when
    (fun _ => leads_flushPendingBatch steady_flushing) fun _ _ _ _ h => h) fun _ => ?_
  exact leads_bind leads_doFlush fun _ => leads_pure _ fun _ _ _ h => h

theorem flushing_start (h : Inv w) : Flushing w [] [] [] w :=
  ⟨since_start h, fun _ he => absurd he not_mem_nil, published_nil rfl rfl []⟩

/-! ## Sequences of flushes -/

theorem rely_of_others (h : Relation.ReflTransGen Others w w₁) : office.rely w w₁ := by
  intro hinv
  induction h with
  | refl => exact ⟨hinv, .refl w, rfl⟩
  | tail _ hstep ih =>
    obtain ⟨hinv', hext, hmesh⟩ := ih
    obtain ⟨hinv'', hext', hmesh'⟩ := hinv'.others hstep
    exact ⟨hinv'', hext.trans hext', hmesh'.trans hmesh⟩

/-- A flush, while others go on. -/
def floor : Env Await Answer Desk where
  rely := Relation.ReflTransGen Others
  answer := Answers
  guar _ _ := True

theorem inv_of_reachable {P : Pool Await Answer Memory (Except Failure Unit) Desk Unit}
    (h₀ : Inv w₀) (h : Pool.Reachable rules w₀ P) : Inv P.world := by
  let own : Unit → Desk → Desk → Prop := fun _ w w₁ =>
    Extends w w₁ ∧ w₁.store.metadata.meshId = w.store.metadata.meshId
  have hrefl : ∀ i w, own i w w := fun _ w => ⟨.refl w, rfl⟩
  have htrans : ∀ i w₀ w₁ w₂, own i w₀ w₁ → own i w₁ w₂ → own i w₀ w₂ :=
    fun _ _ _ _ h₁ h₂ => ⟨h₁.1.trans h₂.1, h₂.2.trans h₁.2⟩
  refine Pool.invariant hrefl htrans ?_ ?_ h₀ h
  · rintro i p w ⟨includePendingBatch, s, rfl⟩ hinv
    have hwp := leads_flushQueued includePendingBatch s w hinv (flushing_start hinv)
    refine Prog.wp_env (E := office) ?_ ?_ ?_ (Prog.wp_mono hwp fun _ _ _ _ => trivial)
    · exact fun w w₁ hr _ => ⟨hr.1, hr.2.1, hr.2.2⟩
    · exact fun _ _ _ _ ha => ha
    · exact fun w w₁ hg => ⟨hg, fun j hj => absurd rfl hj⟩
  · intro w w₁ hinv hothers
    obtain ⟨hinv', hext, hmesh⟩ := hinv.others hothers
    exact ⟨hinv', fun _ => ⟨hext, hmesh⟩⟩

theorem completed_of_run (h : Inv w) {includePendingBatch : Bool} {s' : Memory} {w' : Desk}
    (hrun : Prog.Run floor (Aw.flushQueued includePendingBatch s) w (.ok ()) s' w') :
    Completed w w' := by
  have hwp := leads_flushQueued includePendingBatch s w h (flushing_start h)
  have hfloor : (Aw.flushQueued includePendingBatch).wp floor
      (fun _ _ w' => Inv w' ∧ Completed w w') (fun _ _ => Inv) s w := by
    refine Prog.wp_env (E := office) ?_ ?_ ?_ hwp
    · exact fun _ _ hr => rely_of_others hr
    · exact fun _ _ _ _ ha => ha
    · exact fun _ _ _ => trivial
  exact (Proc.wp_run_ok hfloor hrun).2

/-- **A flush loses nothing.**  From any store with distinct ids, through any sequence of
flushes, whatever fails and wherever they stop, and whatever others queue meanwhile:

* every entry that was ever in the outbox is still there, or its change file was written, or
  it is in the quarantine;
* every change file that was sent bears the name of its entry, and any two that were sent for
  one entry are equal;
* a flush that completes leaves in the outbox exactly what was there or was queued
  meanwhile, without what it published and what it put into the quarantine.

And what the replicas answer makes no difference to a flush. -/
theorem flush_keeps_entries {store : LocalStore} (hids : Distinct (start store)) :
    (∀ P, Pool.Reachable rules (start store) P →
      (∀ e ∈ P.world.arrived,
        e ∈ P.world.store.outbox ∨ P.world.Delivered e ∨ e ∈ P.world.quarantined) ∧
      (∀ x ∈ P.world.sent, x.entry ∈ P.world.arrived ∧
        x.path = .change (changeFileName x.entry)) ∧
      (∀ x ∈ P.world.sent, ∀ y ∈ P.world.sent, x.entry.id = y.entry.id → x = y) ∧
      ∀ includePendingBatch s s' w',
        Prog.Run floor (Aw.flushQueued includePendingBatch s) P.world (.ok ()) s' w' →
          Completed P.world w') ∧
    ∀ (W : Type) (reply₁ reply₂ : W → (a : Await) → Answer a × W), Aw.Alike reply₁ reply₂ →
      Aw.ReplicasAnswer reply₁ → Aw.ReplicasAnswer reply₂ → ∀ includePendingBatch s w,
        (Aw.flushQueued includePendingBatch s).exec reply₁ w =
          (Aw.flushQueued includePendingBatch s).exec reply₂ w := by
  refine ⟨fun P hP => ?_, fun W reply₁ reply₂ h h₁ h₂ b => Aw.deaf_flushQueued h h₁ h₂ b⟩
  have hinv := inv_of_reachable (inv_start hids) hP
  refine ⟨hinv.kept, fun x hx => ?_, fun x hx y hy hid => ?_, fun b s s' w' hrun =>
    completed_of_run hinv hrun⟩
  · obtain ⟨e, he, meshId, -, rfl⟩ := hinv.sent x hx
    exact ⟨he, rfl⟩
  · obtain ⟨e, he, meshId, hmember, rfl⟩ := hinv.sent x hx
    obtain ⟨e', he', meshId', hmember', rfl⟩ := hinv.sent y hy
    -- one id, one entry; one store, one mesh
    have hentry : e = e' := hinv.distinct.known e (mem_append_left _ he) e'
      (mem_append_left _ he') hid
    have hmesh : meshId = meshId' := Option.some.inj (hmember.2.symm.trans hmember'.2)
    rw [hentry, hmesh]

/-! ## A device that was away -/

/-- A flush of a store that works, at a time, against the mailbox of `awayDevice`. -/
def answering (wall : ℕ) (w : Desk) : (a : Await) → Answer a × Desk
  | .transact f => (some w.store, w.after f)
  | .remote none c =>
    ((Mailbox.reply wall (fun _ => none) FenceState.awayMailbox c).1,
      { w with sent := w.sent ++ filesOf c, applied := w.applied ++ filesOf c })
  | .remote (some _) c => ((Mailbox.reply wall (fun _ => none) FenceState.awayMailbox c).1, w)

theorem answers_answering (wall : ℕ) (w : Desk) (a : Await) :
    Answers w a (w.answering wall a).1 (w.answering wall a).2 := by
  cases a with
  | transact f => exact .inr ⟨rfl, rfl⟩
  | remote replica c =>
    cases replica with
    | some i => rfl
    | none => exact .inl rfl

/-- The desk of `awayDevice`, before and after a flush at a time. -/
def away : Desk := start FenceState.awayDevice.store

theorem distinct_away : Distinct away where
  known a ha b hb _ := by
    have hall : ∀ e ∈ away.known, e = FenceState.awayEntry := fun e he => mem_singleton.mp he
    rw [hall a ha, hall b hb]
  pending p hp := absurd hp (by simp [away, start, FenceState.awayDevice, openEngine,
    LocalStore.empty])

def awayFlushed (wall : ℕ) : Desk :=
  ((Aw.flushQueued true (FenceState.awayDevice.memory 0)).exec (fun w => w.answering wall) away).2.2

theorem reachable_awayFlushed (wall : ℕ) :
    Pool.Reachable rules away ⟨awayFlushed wall, fun _ => none⟩ :=
  Pool.Reachable.start.exec (i := ()) (fun w a => answers_answering wall w a) rfl
    ⟨true, FenceState.awayDevice.memory 0, rfl⟩

/-- After five days the change is published. -/
theorem flush_keeps_entries_away :
    Distinct away ∧ (awayFlushed 432000000).store.outbox = [] ∧
      (awayFlushed 432000000).applied.map ChangeFile.entry = [FenceState.awayEntry] ∧
      (FenceState.awayEntry ∈ (awayFlushed 432000000).store.outbox ∨
        (awayFlushed 432000000).Delivered FenceState.awayEntry ∨
        FenceState.awayEntry ∈ (awayFlushed 432000000).quarantined) := by
  refine ⟨distinct_away, rfl, rfl, ?_⟩
  have h := (flush_keeps_entries distinct_away).1 _ (reachable_awayFlushed 432000000)
  have harrived : (awayFlushed 432000000).arrived.head? = some FenceState.awayEntry := rfl
  exact h.1 FenceState.awayEntry (mem_of_mem_head? harrived)

/-- **An entry may leave the outbox unpublished.**  After 31 days, with a limit of 30, the
queued change goes into the quarantine, and nothing is sent. -/
theorem expired_flush_publishes_nothing :
    ∃ P, Pool.Reachable rules away P ∧ FenceState.awayEntry ∈ away.store.outbox ∧
      P.world.store.outbox = [] ∧ P.world.sent = [] :=
  ⟨_, reachable_awayFlushed FenceState.awayUntil, mem_singleton.mpr rfl, rfl, rfl⟩

end Desk

end Interocitor
