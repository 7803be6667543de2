import Interocitor.Clock.Writes

/-!
# The stamps of one device

Several engines of one device share a local store and its clock record.  Every call
runs under the store's lock, so the calls come one after the other: writes, pulls and
replacements by any of the engines, with engines started and stopped in between.  The
remote is the one of `Clock.Inbox`, and any of its answers may be a failure.

A write takes over the stored clock before it ticks, but a pull does not: it starts
from the engine's own clock and writes that back.  An engine that has been idle while
another one wrote moves the stored clock back by pulling, and its next write repeats
the past.  A replacement clears the record, and until a pull has completed nothing is
left of it.

* `issued_increasing_of_careful`: in every run in which no engine pulls or replaces the
  local state while it is behind the stored clock, no replacement ends without a clock
  record, and every `put` has a column, the stamps strictly increase in the order in
  which they were issued.
* `idle_engine_repeats_the_past`: a run of two engines, of one pull of an empty folder,
  in which they do not.
-/

namespace Interocitor

open CodeUnits OrderedRecord Interaction HybridClock Eng List Option

/-! ## Runs -/

/-- The engines of a device, the store they share, the remote, and the stamps issued so
far. -/
structure Household where
  store : LocalStore
  engines : List Device
  inbox : Inbox
  issued : List Text

/-- An engine finds the shared store as it is now. -/
def Device.over (d : Device) (store : LocalStore) : Device := { d with store := store }

/-- The configuration of the device `"a"`. -/
def configOfA : Config := defaultConfig [97]

namespace Household

/-- Nothing has happened yet. -/
def initial : Household := ⟨.empty, [], ⟨none, []⟩, []⟩

/-- The calls on the engines of a device, by their number. -/
inductive Act where
  | start (config : Config) (wall : ℕ)
  | stop (i : ℕ)
  | put (i : ℕ) (table rowId : Text) (columns : List (Text × JsValue))
  | delete (i : ℕ) (table rowId : Text)
  | pull (i : ℕ)
  | rehydrate (i : ℕ)

/-- Engine `i` runs a method, which ends with `r`. -/
def Calls {α : Type} (s : Household) (i : ℕ) (m : Eng α) (r : Except Failure α) (s' : Household) :
    Prop :=
  ∃ d d' w', s.engines[i]? = some d ∧ Prog.Run Inbox.env (m (d.over s.store)) s.inbox r d' w' ∧
    s' = ⟨d'.store, s.engines.set i d', w', s.issued⟩

/-- One call.  A write adds the stamp that it issued; a pull or a replacement may end in
any way. -/
inductive Step (deviceId : Text) : Household → Act → Household → Prop
  | start {s : Household} {config : Config} {wall : ℕ} (h : config.deviceId = deviceId) :
      Step deviceId s (.start config wall)
        { s with engines := s.engines ++ [openEngine config wall s.store] }
  | stop {s : Household} {i : ℕ} :
      Step deviceId s (.stop i) { s with engines := s.engines.eraseIdx i }
  | put {s s' : Household} {i : ℕ} {table rowId stamp : Text} {columns : List (Text × JsValue)}
      (h : Calls s i (putNow table rowId columns) (.ok stamp) s') :
      Step deviceId s (.put i table rowId columns) { s' with issued := s'.issued ++ [stamp] }
  | delete {s s' : Household} {i : ℕ} {table rowId : Text} {stamp : Option Text}
      (h : Calls s i (deleteNow table rowId) (.ok stamp) s') :
      Step deviceId s (.delete i table rowId) { s' with issued := s'.issued ++ stamp.toList }
  | pull {s s' : Household} {i : ℕ} {r : Except Failure Unit} (h : Calls s i pullNow r s') :
      Step deviceId s (.pull i) s'
  | rehydrate {s s' : Household} {i : ℕ} {r : Except Failure Unit}
      (h : Calls s i flushAndRehydrateNow r s') : Step deviceId s (.rehydrate i) s'

/-- The runs of which every step is as `ok` demands. -/
inductive Reached (deviceId : Text) (ok : Household → Act → Household → Prop) : Household → Prop
  | initial : Reached deviceId ok .initial
  | step {s s' : Household} {a : Act} (h : Reached deviceId ok s) (hs : Step deviceId s a s')
      (hok : ok s a s') : Reached deviceId ok s'

/-- The stamps increase in the order in which they were issued. -/
def Increasing (issued : List Text) : Prop :=
  issued.Pairwise fun a b => isNeg (hlcCompareStr a b) = true

/-! ## Careful runs -/

/-- Engine `i`, over the store as it is now. -/
def OfEngine (P : Device → Prop) (s : Household) (i : ℕ) : Prop :=
  ∀ d, s.engines[i]? = some d → P (d.over s.store)

/-- What a step has to look out for. -/
def Careful (s : Household) : Act → Household → Prop
  | .start config _, _ => StampKeeping config.schema
  | .stop _, _ => True
  | .put i _ _ columns, _ => OfEngine HasRoom s i ∧ storedColumns columns ≠ []
  | .delete i _ _, _ => OfEngine HasRoom s i
  | .pull i, _ => OfEngine NotBehind s i
  | .rehydrate i, s' =>
    OfEngine NotBehind s i ∧ (s.store.metadata.hlc ≠ none → s'.store.metadata.hlc ≠ none)

/-- What can be said of an engine at any time. -/
structure GoodEngine (deviceId : Text) (d : Device) : Prop where
  device : d.config.deviceId = deviceId
  schema : StampKeeping d.config.schema
  clock : ∃ c : Stamp Text, d.hlc = .ofStamp c ∧ c.node = deviceId

/-- **The invariant of careful runs:** the stored clock is not behind any stamp that was
issued. -/
structure Orderly (deviceId : Text) (s : Household) : Prop where
  engines : ∀ d ∈ s.engines, GoodEngine deviceId d
  saved : ∀ t, s.store.metadata.hlc = some t → Serialized t
  batch : FitBatch s.store
  fits : FitRows s.store
  issued : ∀ t ∈ s.issued, Serialized t
  covers : ∀ t ∈ s.issued, SavedPast (stampOf t) s.store
  increasing : Increasing s.issued

section Steps

variable {deviceId : Text} {s s' : Household} {i : ℕ}

theorem orderly_initial : Orderly deviceId .initial where
  engines _ h := absurd h not_mem_nil
  saved _ h := absurd h (by simp [initial, LocalStore.empty, Metadata.empty])
  batch _ h := absurd h (by simp [initial, LocalStore.empty])
  fits _ := by
    rintro ⟨key, row, hget, -⟩
    exact absurd hget (by simp [initial, LocalStore.empty])
  issued _ h := absurd h not_mem_nil
  covers _ h := absurd h not_mem_nil
  increasing := List.Pairwise.nil

theorem Orderly.ready (h : Orderly deviceId s) {d : Device} (hd : s.engines[i]? = some d) :
    StampKeeping d.config.schema ∧ ∃ c, Ready (d.over s.store) c ∧ c.node = deviceId := by
  obtain ⟨hdevice, hschema, c, hclock, hnode⟩ := h.engines d (mem_of_getElem? hd)
  exact ⟨hschema, c, ⟨hclock, hnode.trans hdevice.symm, h.saved, h.batch, h.fits⟩, hnode⟩

theorem Orderly.engines_set (h : Orderly deviceId s) {d : Device} (hd : GoodEngine deviceId d) :
    ∀ d' ∈ s.engines.set i d, GoodEngine deviceId d' := by
  intro d' hd'
  rcases mem_or_eq_of_mem_set hd' with hold | rfl
  · exact h.engines d' hold
  · exact hd

theorem goodEngine_openEngine (h : Orderly deviceId s) {config : Config} {wall : ℕ}
    (hdevice : config.deviceId = deviceId) (hschema : StampKeeping config.schema) :
    GoodEngine deviceId (openEngine config wall s.store) := by
  refine ⟨hdevice, hschema, ?_⟩
  simp only [openEngine]
  split
  · rename_i saved htruthy
    have hsaved : s.store.metadata.hlc = some saved := (filter_eq_some_iff.mp htruthy).1
    rw [(h.saved saved hsaved).hlcParse_eq]
    exact ⟨⟨(stampOf saved).ts, (stampOf saved).counter, config.deviceId⟩, rfl, hdevice⟩
  · exact ⟨⟨wall, 0, config.deviceId⟩, rfl, hdevice⟩

theorem Orderly.increasing_append (h : Orderly deviceId s) {st : Stamp Text}
    (hlater : ∀ t, s.store.metadata.hlc = some t → (stampOf t).time < st.time) :
    Increasing (s.issued ++ [stampText st]) := by
  refine pairwise_append.mpr ⟨h.increasing, pairwise_singleton _ _, fun a ha b hb => ?_⟩
  obtain rfl := mem_singleton.mp hb
  obtain ⟨t, ht, hle⟩ := h.covers a ha
  rw [(h.issued a ha).isNeg_compare ⟨st, rfl⟩, stampOf_stampText]
  exact Stamp.lt_of_time_lt (hle.trans_lt (hlater t ht))

theorem Orderly.written (h : Orderly deviceId s) {d d' : Device} {c st : Stamp Text} {w' : Inbox}
    (hd : s.engines[i]? = some d) (hschema : StampKeeping d.config.schema)
    (hw : Written (d.over s.store) c st d') (hpast : SavedPast st d'.store) :
    Orderly deviceId ⟨d'.store, s.engines.set i d', w', s.issued ++ [stampText st]⟩ := by
  obtain ⟨hdevice, -, -⟩ := h.engines d (mem_of_getElem? hd)
  have hdevice' : d'.config.deviceId = deviceId :=
    (congrArg Config.deviceId hw.config).trans hdevice
  have hgood : GoodEngine deviceId d' := by
    refine ⟨hdevice', ?_, st, hw.ready.clock, hw.ready.node.trans hdevice'⟩
    rw [hw.config]
    exact hschema
  obtain ⟨t', ht', hle'⟩ := hpast
  refine ⟨h.engines_set hgood, hw.ready.saved, hw.ready.batch, hw.ready.fits, ?_, ?_,
    h.increasing_append hw.laterThanSaved⟩
  · intro t ht
    rcases mem_append.mp ht with hold | hnew
    · exact h.issued t hold
    · exact ⟨st, (mem_singleton.mp hnew).symm⟩
  · intro t ht
    rcases mem_append.mp ht with hold | hnew
    · obtain ⟨t₀, ht₀, hle₀⟩ := h.covers t hold
      exact ⟨t', ht', (hle₀.trans_lt (hw.laterThanSaved t₀ ht₀)).le.trans hle'⟩
    · rw [mem_singleton.mp hnew, stampOf_stampText]
      exact ⟨t', ht', hle'⟩

theorem Orderly.moved (h : Orderly deviceId s) {d' : Device} {w' : Inbox}
    (hd : GoodEngine deviceId d') (hsaved : ∀ t, d'.store.metadata.hlc = some t → Serialized t)
    (hbatch : FitBatch d'.store) (hfits : FitRows d'.store)
    (hforward : SavedForward s.store d'.store) :
    Orderly deviceId ⟨d'.store, s.engines.set i d', w', s.issued⟩ := by
  refine ⟨h.engines_set hd, hsaved, hbatch, hfits, h.issued, fun t ht => ?_, h.increasing⟩
  exact hforward.savedPast (h.covers t ht)

theorem covered_true (c : Stamp Text) (store : LocalStore) (w : Inbox) :
    Covered (fun _ => True) c store w := fun _ _ => .inl trivial

theorem orderly_put (h : Orderly deviceId s) {table rowId stamp : Text}
    {columns : List (Text × JsValue)} (hcall : Calls s i (putNow table rowId columns) (.ok stamp) s')
    (hroom : OfEngine HasRoom s i) (hne : storedColumns columns ≠ []) :
    Orderly deviceId { s' with issued := s'.issued ++ [stamp] } := by
  obtain ⟨d, d', w', hd, hrun, rfl⟩ := hcall
  obtain ⟨hschema, c, hready, -⟩ := h.ready hd
  obtain ⟨st, rfl, hw, hpast⟩ :=
    Proc.wp_run_ok (wp_putNow hready (hroom d hd) table rowId columns) hrun
  exact h.written hd hschema hw (hpast hne)

theorem orderly_delete (h : Orderly deviceId s) {table rowId : Text} {stamp : Option Text}
    (hcall : Calls s i (deleteNow table rowId) (.ok stamp) s') (hroom : OfEngine HasRoom s i) :
    Orderly deviceId { s' with issued := s'.issued ++ stamp.toList } := by
  obtain ⟨d, d', w', hd, hrun, rfl⟩ := hcall
  obtain ⟨hschema, c, hready, hnode⟩ := h.ready hd
  have hdeleted := Proc.wp_run_ok (wp_deleteNow hready (hroom d hd) table rowId) hrun
  cases stamp with
  | none =>
    obtain ⟨c₁, hr, rfl⟩ := hdeleted
    obtain ⟨hdevice, -, -⟩ := h.engines d (mem_of_getElem? hd)
    have hgood : GoodEngine deviceId { d.over s.store with hlc := .ofStamp c₁ } :=
      ⟨hdevice, hschema, c₁, rfl, hr.node.trans hdevice⟩
    rw [toList_none, append_nil]
    exact h.moved hgood h.saved h.batch h.fits (.of_eq rfl)
  | some stamp =>
    obtain ⟨st, rfl, hw, hpast⟩ := hdeleted
    exact h.written hd hschema hw hpast

theorem orderly_pull (h : Orderly deviceId s) {r : Except Failure Unit}
    (hcall : Calls s i pullNow r s') (hbehind : OfEngine NotBehind s i) : Orderly deviceId s' := by
  obtain ⟨d, d', w', hd, hrun, rfl⟩ := hcall
  obtain ⟨hschema, c, hready, hnode⟩ := h.ready hd
  obtain ⟨c', hmoved⟩ : ∃ c', ClockMoved (d.over s.store) c d' c' := by
    refine Proc.wp_run_ends (P := fun d' (_ : Inbox) => ∃ c', ClockMoved (d.over s.store) c d' c')
      ?_ hrun
    refine Proc.wp_mono (wp_pullNow hschema hready.clock h.fits (covered_true _ _ _)) ?_
      fun _ _ _ hx => hx
    exact fun _ _ _ ⟨c', hp⟩ => ⟨c', hp.moved⟩
  obtain ⟨hdevice, -, -⟩ := h.engines d (mem_of_getElem? hd)
  have hgood : GoodEngine deviceId d' := by
    refine ⟨(congrArg Config.deviceId hmoved.config).trans hdevice, ?_, c', hmoved.clock,
      hmoved.node.trans hnode⟩
    rw [hmoved.config]
    exact hschema
  have hbatch : FitBatch d'.store := fun p hp => h.batch p (hmoved.pending.symm.trans hp)
  rcases hmoved.saved with ⟨hsame, -⟩ | hsome
  · refine h.moved hgood (fun t ht => ?_) hbatch hmoved.fits (.of_eq hsame)
    exact h.saved t (hsame.symm.trans ht)
  · refine h.moved hgood (fun t ht => ?_) hbatch hmoved.fits
      (.of_notBehind hready (hbehind d hd) hmoved.forward hsome)
    exact ⟨c', some.inj (hsome.symm.trans ht)⟩

theorem orderly_rehydrate (h : Orderly deviceId s) {r : Except Failure Unit}
    (hcall : Calls s i flushAndRehydrateNow r s') (hbehind : OfEngine NotBehind s i)
    (hrecord : s.store.metadata.hlc ≠ none → s'.store.metadata.hlc ≠ none) :
    Orderly deviceId s' := by
  obtain ⟨d, d', w', hd, hrun, rfl⟩ := hcall
  obtain ⟨hschema, c, hready, hnode⟩ := h.ready hd
  have hr : Rehydrated (d.over s.store) c d' := by
    refine Proc.wp_run_ends (P := fun d' (_ : Inbox) => Rehydrated (d.over s.store) c d') ?_ hrun
    refine Proc.wp_mono (wp_flushAndRehydrateNow hschema hready.clock hready.node h.fits
      (covered_true _ _ _)) ?_ fun _ _ _ hx => hx.1
    exact fun _ _ _ hx => hx.1
  obtain ⟨hdevice, -, -⟩ := h.engines d (mem_of_getElem? hd)
  obtain ⟨c₁, hclock₁, hnode₁⟩ := hr.clock
  have hgood : GoodEngine deviceId d' := by
    refine ⟨(congrArg Config.deviceId hr.config).trans hdevice, ?_, c₁, hclock₁, hnode₁.trans hnode⟩
    rw [hr.config]
    exact hschema
  have hbatch : FitBatch d'.store := fun p hp => absurd (hr.pending.symm.trans hp) (by simp)
  rcases hr.saved with hsame | hnone | ⟨c', hsome, hle⟩
  · refine h.moved hgood (fun t ht => ?_) hbatch hr.fits (.of_eq hsame)
    exact h.saved t (hsame.symm.trans ht)
  · refine h.moved hgood (fun t ht => ?_) hbatch hr.fits fun t ht => ?_
    · exact absurd (hnone.symm.trans ht) (by simp)
    · exact absurd hnone (hrecord (by rw [ht]; simp))
  · refine h.moved hgood (fun t ht => ?_) hbatch hr.fits
      (.of_notBehind hready (hbehind d hd) hle hsome)
    exact ⟨c', some.inj (hsome.symm.trans ht)⟩

theorem orderly_step {a : Act} (h : Orderly deviceId s) (hs : Step deviceId s a s')
    (hcareful : Careful s a s') : Orderly deviceId s' := by
  cases hs with
  | start hdevice =>
    refine ⟨fun d hd => ?_, h.saved, h.batch, h.fits, h.issued, h.covers, h.increasing⟩
    rcases mem_append.mp hd with hold | hnew
    · exact h.engines d hold
    · rw [mem_singleton.mp hnew]
      exact goodEngine_openEngine h hdevice hcareful
  | stop =>
    refine ⟨fun d hd => ?_, h.saved, h.batch, h.fits, h.issued, h.covers, h.increasing⟩
    exact h.engines d (mem_of_mem_eraseIdx hd)
  | put hcall => exact orderly_put h hcall hcareful.1 hcareful.2
  | delete hcall => exact orderly_delete h hcall hcareful
  | pull hcall => exact orderly_pull h hcall hcareful
  | rehydrate hcall => exact orderly_rehydrate h hcall hcareful.1 hcareful.2

theorem orderly_of_reached (h : Reached deviceId Careful s) : Orderly deviceId s := by
  induction h with
  | initial => exact orderly_initial
  | step _ hs hok ih => exact orderly_step ih hs hok

/-- **In every careful run the stamps of a device strictly increase.** -/
theorem issued_increasing_of_careful (h : Reached deviceId Careful s) : Increasing s.issued :=
  (orderly_of_reached h).increasing

end Steps

/-! ## Two runs -/

/-- A call answered by a remote that holds nothing. -/
def call {α : Type} (s : Household) (wall i : ℕ) (m : Eng α) :
    Option (Except Failure α × Household) :=
  s.engines[i]?.map fun d =>
    let out := (m (d.over s.store)).exec (Inbox.emptyRemote wall) s.inbox
    (out.1, ⟨out.2.1.store, s.engines.set i out.2.1, out.2.2, s.issued⟩)

/-- Act out a step against that remote. -/
def play (s : Household) (wall : ℕ) : Act → Option Household
  | .start config _ => some { s with engines := s.engines ++ [openEngine config wall s.store] }
  | .stop i => some { s with engines := s.engines.eraseIdx i }
  | .put i table rowId columns =>
    match s.call wall i (putNow table rowId columns) with
    | some (.ok stamp, s') => some { s' with issued := s'.issued ++ [stamp] }
    | _ => none
  | .delete i table rowId =>
    match s.call wall i (deleteNow table rowId) with
    | some (.ok stamp, s') => some { s' with issued := s'.issued ++ stamp.toList }
    | _ => none
  | .pull i => (s.call wall i pullNow).map Prod.snd
  | .rehydrate i => (s.call wall i flushAndRehydrateNow).map Prod.snd

/-- The engine that a step starts belongs to the device. -/
def Act.OfDevice (deviceId : Text) (wall : ℕ) : Act → Prop
  | .start config wall' => config.deviceId = deviceId ∧ wall' = wall
  | _ => True

theorem calls_call {α : Type} {s s' : Household} {wall i : ℕ} {m : Eng α} {r : Except Failure α}
    (hwall : wall < 10 ^ 15) (h : s.call wall i m = some (r, s')) : Calls s i m r s' := by
  obtain ⟨d, hd, hout⟩ := map_eq_some_iff.mp h
  obtain ⟨rfl, rfl⟩ := Prod.mk.inj hout
  exact ⟨d, _, _, hd, Prog.run_exec (fun _ => rfl) (Inbox.answer_emptyRemote hwall) _ _, rfl⟩

theorem step_play {deviceId : Text} {s s' : Household} (wall : ℕ) (a : Act)
    (h : s.play wall a = some s') (hwall : wall < 10 ^ 15) (ha : a.OfDevice deviceId wall) :
    Step deviceId s a s' := by
  cases a with
  | start config wall' =>
    obtain ⟨hdevice, rfl⟩ := ha
    obtain rfl := some.inj h
    exact .start hdevice
  | stop i =>
    obtain rfl := some.inj h
    exact .stop
  | put i table rowId columns =>
    simp only [play] at h
    split at h
    · rename_i stamp s₁ hcall
      obtain rfl := some.inj h
      exact .put (calls_call hwall hcall)
    · exact absurd h (by simp)
  | delete i table rowId =>
    simp only [play] at h
    split at h
    · rename_i stamp s₁ hcall
      obtain rfl := some.inj h
      exact .delete (calls_call hwall hcall)
    · exact absurd h (by simp)
  | pull i =>
    obtain ⟨⟨r, s₁⟩, hcall, rfl⟩ := map_eq_some_iff.mp h
    exact .pull (calls_call hwall hcall)
  | rehydrate i =>
    obtain ⟨⟨r, s₁⟩, hcall, rfl⟩ := map_eq_some_iff.mp h
    exact .rehydrate (calls_call hwall hcall)

/-- A write of one column by engine `i`. -/
def putBy (i : ℕ) : Act := .put i [116] [49] [([120], .null)]

/-- One engine that writes, pulls and writes again: a careful run. -/
theorem one_engine_increasing :
    ∃ s, Reached [97] Careful s ∧
      s.issued = [stampText ⟨2, 0, [97]⟩, stampText ⟨2, 1, [97]⟩] ∧ Increasing s.issued := by
  have hroom : ∀ {n k : ℕ}, n < 10 ^ 15 → k + 1 < 16 ^ 4 → TickFits (stampText ⟨n, k, [97]⟩) := by
    intro n k hn hk
    rw [TickFits, stampOf_stampText]
    exact ⟨hn, hk⟩
  have hfirst : TickFits (stampText ⟨1, 0, [97]⟩) := hroom (by omega) (by omega)
  have hsecond : TickFits (stampText ⟨2, 0, [97]⟩) := hroom (by omega) (by omega)
  have h₀ : Reached [97] Careful .initial := .initial
  have h₁ := h₀.step (step_play 1 (.start configOfA 1) rfl (by omega) ⟨rfl, rfl⟩) stampKeeping_none
  have h₂ := h₁.step (step_play 2 (putBy 0) rfl (by omega) trivial)
    ⟨fun d hd => by
      obtain rfl := some.inj hd
      exact ⟨hfirst, fun t ht => absurd (show none = some t from ht) (by simp)⟩,
      cons_ne_nil _ _⟩
  have h₃ := h₂.step (step_play 2 (.pull 0) rfl (by omega) trivial) fun d hd => by
    obtain rfl := some.inj hd
    intro t ht
    obtain rfl : stampText ⟨2, 0, [97]⟩ = t := some.inj ht
    exact (isNonPos_compare ⟨_, rfl⟩ ⟨⟨2, 0, [97]⟩, rfl⟩).mpr (le_refl _)
  have h₄ := h₃.step (step_play 2 (putBy 0) rfl (by omega) trivial)
    ⟨fun d hd => by
      obtain rfl := some.inj hd
      refine ⟨hsecond, fun t ht => ?_⟩
      obtain rfl : stampText ⟨2, 0, [97]⟩ = t := some.inj ht
      exact hsecond, cons_ne_nil _ _⟩
  exact ⟨_, h₄, rfl, issued_increasing_of_careful h₄⟩

/-- **An idle engine repeats the past.**  Two engines of the device `"a"` start at 50 and
at 100.  The second writes; the first pulls an empty folder, which puts the stored clock
back to 50, and its write at 60 is stamped before the one of the other engine. -/
theorem idle_engine_repeats_the_past :
    ∃ s, Reached [97] (fun _ _ _ => True) s ∧
      s.issued = [stampText ⟨100, 1, [97]⟩, stampText ⟨60, 0, [97]⟩] ∧ ¬Increasing s.issued := by
  have h₀ : Reached [97] (fun _ _ _ => True) .initial := .initial
  have h₁ := h₀.step (step_play 50 (.start configOfA 50) rfl (by omega) ⟨rfl, rfl⟩) trivial
  have h₂ := h₁.step (step_play 100 (.start configOfA 100) rfl (by omega) ⟨rfl, rfl⟩) trivial
  have h₃ := h₂.step (step_play 100 (putBy 1) rfl (by omega) trivial) trivial
  have h₄ := h₃.step (step_play 50 (.pull 0) rfl (by omega) trivial) trivial
  have h₅ := h₄.step (step_play 60 (putBy 0) rfl (by omega) trivial) trivial
  refine ⟨_, h₅, rfl, fun hincreasing => ?_⟩
  have hlt : isNeg (hlcCompareStr (stampText ⟨100, 1, [97]⟩) (stampText ⟨60, 0, [97]⟩)) = true :=
    (pairwise_cons.mp hincreasing).1 _ mem_cons_self
  rw [isNeg_hlcCompareStr] at hlt
  exact absurd hlt (by decide)

end Household

end Interocitor
