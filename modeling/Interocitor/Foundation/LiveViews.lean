import Interocitor.Foundation.LoadCache
import Mathlib.Data.Set.Function

/-!
# Views of a cache of loads

A view shows what a cache has under the key of its query.  It does not look at the cache all the
time: it is rendered again when it has been told to, and it is told by two kinds of things.  Events
are one: an event starts the loads of its tag anew, and the views of the tag hear of it.  The end of
a load is the other, if the view has asked for that load and is waiting for it.

A view that misses one of them shows something old for ever.  So what has to be kept is that a view
is waiting for the load that its entry is waiting for, and that it shows what the cache has or is
due to be rendered: `Watches`.  Every load that an event starts keeps it, since the view that hears
the event asks again, and joins the load.  A load that somebody starts without an event does not;
`startsLoad` says when a request starts one.

* `Watches.settle`: a load ends, and the views that wait for it are due.
* `invalidate_hearAll`: an event, its loads, and the views that hear it.
* `Watches.of_resting`: at rest a view shows what the cache has.
-/

open OrderedRecord Option

namespace LoadCache

/-- What can be seen of a key: what is shown under it, and where its entry is. -/
structure Snapshot (ρ : Type) where
  answer : Option ρ
  status : Option Status

/-- A view: its query, whether it hears of events, what it shows, whether it is to be rendered
again, and the loads whose end it waits for. -/
structure View (δ ρ : Type) where
  query : δ
  subscribed : Bool
  shown : Snapshot ρ
  due : Bool
  waiting : List ℕ

variable {κ τ δ ρ : Type} [DecidableEq κ] [DecidableEq τ]

namespace Cache

/-- What can be seen of a key. -/
def snapshot (c : Cache κ τ δ ρ) (k : κ) : Snapshot ρ :=
  match c.entries.get k with
  | some e => ⟨e.answer, some e.status⟩
  | none => ⟨none, none⟩

/-- The load that an entry waits for. -/
def promiseOf (c : Cache κ τ δ ρ) (k : κ) : Option ℕ := (c.entries.get k).bind Entry.promise

/-- Whether a load has read and not ended. -/
def hasRead (c : Cache κ τ δ ρ) (i : ℕ) : Bool :=
  (c.loads.find? fun l => decide (l.id = i)).any fun l => l.result.isSome

/-- Whether a request starts a load. -/
def startsLoad (c : Cache κ τ δ ρ) (k : κ) (bypass : Bool) : Bool :=
  match c.entries.get k with
  | some e => bypass || !(decide (e.status = .pending) && e.promise.isSome ||
      decide (e.status = .ready) && e.answer.isSome)
  | none => true

end Cache

section Steps

variable (tag : δ → τ) (key : δ → κ)

/-- Ask for the query of a view.  The view waits for the load, or is due if there is nothing to
wait for. -/
def follow (c : Cache κ τ δ ρ) (v : View δ ρ) : Cache κ τ δ ρ × View δ ρ :=
  let c' := c.request tag v.query (key v.query) false
  match c'.promiseOf (key v.query) with
  | some i => (c', { v with waiting := i :: v.waiting })
  | none => (c', { v with due := true })

/-- An event reaches a view. -/
def hear (hears : δ → Bool) (c : Cache κ τ δ ρ) (v : View δ ρ) : Cache κ τ δ ρ × View δ ρ :=
  if v.subscribed && hears v.query then follow tag key c { v with due := true } else (c, v)

/-- An event reaches all views, one after the other. -/
def hearAll (hears : δ → Bool) :
    Cache κ τ δ ρ → List (View δ ρ) → Cache κ τ δ ρ × List (View δ ρ)
  | c, [] => (c, [])
  | c, v :: vs =>
    let r := hear tag key hears c v
    let rs := hearAll hears r.1 vs
    (rs.1, r.2 :: rs.2)

/-- A load ends. -/
def View.loadEnds (v : View δ ρ) (i : ℕ) : View δ ρ :=
  if v.waiting.contains i then { v with due := true, waiting := v.waiting.erase i } else v

/-- A view is rendered. -/
def View.render (c : Cache κ τ δ ρ) (v : View δ ρ) : View δ ρ :=
  { v with shown := c.snapshot (key v.query), due := false }

end Steps

/-! ## What a view keeps -/

/-- **A view watches its query**: it waits for the load that the entry waits for, and it shows what
the cache has or is due to be rendered. -/
structure Watches (key : δ → κ) (c : Cache κ τ δ ρ) (v : View δ ρ) : Prop where
  entry : ∃ e, c.entries.get (key v.query) = some e
  waits : ∀ i, c.promiseOf (key v.query) = some i → i ∈ v.waiting
  shows : v.due = true ∨ v.shown = c.snapshot (key v.query)

/-- The keys of a cache are keys of the queries `D`, under the tags of these queries. -/
structure Keyed (tag : δ → τ) (key : δ → κ) (D : Set δ) (c : Cache κ τ δ ρ) : Prop where
  entries : ∀ k e, c.entries.get k = some e → e.query ∈ D ∧ key e.query = k
  tags : ∀ t, ∀ k ∈ c.keysOf t, ∃ q ∈ D, key q = k ∧ tag q = t

variable {tag : δ → τ} {key : δ → κ} {D : Set δ} {answer : δ → Option ρ} {owed : τ → Prop}
  {c c' : Cache κ τ δ ρ} {v : View δ ρ} {k : κ} {i : ℕ}

omit [DecidableEq τ] in
theorem Watches.congr (h : Watches key c v)
    (heq : c'.entries.get (key v.query) = c.entries.get (key v.query)) : Watches key c' v where
  entry := by
    rw [heq]
    exact h.entry
  waits i hi := h.waits i (by rwa [Cache.promiseOf, heq] at hi)
  shows := by
    have hsnapshot : c'.snapshot (key v.query) = c.snapshot (key v.query) := by
      rw [Cache.snapshot, Cache.snapshot, heq]
    rw [hsnapshot]
    exact h.shows

omit [DecidableEq τ] in
theorem Watches.render (h : Watches key c v) : Watches key c (v.render key c) :=
  ⟨h.entry, h.waits, .inr rfl⟩

/-! ### Requests -/

variable {q : δ}

theorem request_of_not_startsLoad {bypass : Bool} (h : c.startsLoad k bypass = false) :
    c.request tag q k bypass = c := by
  unfold Cache.startsLoad at h
  unfold Cache.request
  cases he : c.entries.get k with
  | none =>
    rw [he] at h
    cases h
  | some e =>
    rw [he] at h
    dsimp only at h ⊢
    obtain ⟨hbypass, hkept⟩ := Bool.or_eq_false_iff.mp h
    rw [Bool.not_eq_false', Bool.or_eq_true, Bool.and_eq_true, Bool.and_eq_true,
      decide_eq_true_eq, decide_eq_true_eq] at hkept
    rcases hkept with hpending | hready
    · rw [if_pos ⟨hbypass, hpending⟩]
    · by_cases hpending : bypass = false ∧ e.status = .pending ∧ e.promise.isSome = true
      · rw [if_pos hpending]
      · rw [if_neg hpending, if_pos ⟨hbypass, hready⟩]

theorem get_request_ne {j : κ} (bypass : Bool) (h : k ≠ j) :
    (c.request tag q k bypass).entries.get j = c.entries.get j := by
  have hrun : (c.run tag q k).entries.get j = c.entries.get j := Record.get_set_ne _ _ h
  unfold Cache.request
  cases c.entries.get k with
  | none => exact hrun
  | some e =>
    dsimp only
    split_ifs
    · rfl
    · rfl
    · exact hrun

theorem exists_get_request (q : δ) (bypass : Bool) :
    ∃ e, (c.request tag q k bypass).entries.get k = some e := by
  have hrun : ∃ e, (c.run tag q k).entries.get k = some e := ⟨_, Record.get_set_self _ _ _⟩
  unfold Cache.request
  cases he : c.entries.get k with
  | none => exact hrun
  | some e =>
    dsimp only
    split_ifs
    · exact ⟨e, he⟩
    · exact ⟨e, he⟩
    · exact hrun

/-- **A request of somebody else**, which starts no load that the view would have to wait for. -/
theorem Watches.request (h : Watches key c v) {bypass : Bool}
    (hother : c.startsLoad k bypass = true → k ≠ key v.query) :
    Watches key (c.request tag q k bypass) v := by
  cases hstarts : c.startsLoad k bypass with
  | false =>
    rw [request_of_not_startsLoad hstarts]
    exact h
  | true => exact h.congr (get_request_ne bypass (hother hstarts))

theorem watches_follow (v : View δ ρ) (hdue : v.due = true) :
    Watches key (follow tag key c v).1 (follow tag key c v).2 := by
  have hentry : ∃ e, (c.request tag v.query (key v.query) false).entries.get (key v.query) =
      some e := exists_get_request v.query false
  unfold follow
  dsimp only
  cases hpromise : (c.request tag v.query (key v.query) false).promiseOf (key v.query) with
  | none =>
    refine ⟨hentry, fun i hi => ?_, .inl rfl⟩
    rw [hpromise] at hi
    cases hi
  | some j =>
    refine ⟨hentry, fun i hi => ?_, .inl hdue⟩
    rw [hpromise] at hi
    rw [some.inj hi]
    exact List.mem_cons_self

/-- The view that asks keeps its query. -/
@[simp] theorem query_follow (v : View δ ρ) : (follow tag key c v).2.query = v.query := by
  unfold follow
  dsimp only
  cases (c.request tag v.query (key v.query) false).promiseOf (key v.query) <;> rfl

@[simp] theorem fst_follow (v : View δ ρ) :
    (follow tag key c v).1 = c.request tag v.query (key v.query) false := by
  unfold follow
  dsimp only
  cases (c.request tag v.query (key v.query) false).promiseOf (key v.query) <;> rfl

/-! ### Loads -/

omit [DecidableEq τ] in
theorem Watches.read (h : Watches key c v) (i : ℕ) (f : δ → Option ρ) :
    Watches key (c.read i f) v :=
  h.congr rfl

omit [DecidableEq τ] in
theorem settle_of_not_hasRead (h : c.hasRead i = false) : c.settle i = c := by
  unfold Cache.hasRead at h
  unfold Cache.settle
  cases hfind : c.loads.find? fun l => decide (l.id = i) with
  | none => rfl
  | some l =>
    rw [hfind] at h
    have hresult : l.result = none :=
      isNone_iff_eq_none.mp (isSome_eq_false_iff.mp h)
    dsimp only
    rw [hresult]

/-- **What a load that ends does to an entry**: it brings its answer to the entry that waits for it,
and leaves the others as they are. -/
theorem get_settle (hfresh : c.Fresh tag answer owed) (i : ℕ) (k : κ) :
    (c.settle i).entries.get k = c.entries.get k ∧
        (c.hasRead i = true → c.promiseOf k ≠ some i) ∨
      ∃ e r, c.entries.get k = some e ∧ c.promiseOf k = some i ∧
        (c.settle i).entries.get k = some (Cache.settled e e.query r) := by
  unfold Cache.settle Cache.hasRead
  cases hfind : c.loads.find? fun l => decide (l.id = i) with
  | none => exact .inl ⟨rfl, nofun⟩
  | some l =>
    have hmem : l ∈ c.loads := List.mem_of_find?_eq_some hfind
    have hid : l.id = i := by simpa using List.find?_some hfind
    -- the entry that waits for this load is the one under its key
    have hkey : c.promiseOf k = some i → l.key = k := by
      intro hwaits
      obtain ⟨e, he, hp⟩ := bind_eq_some_iff.mp hwaits
      obtain ⟨l', hl', hp', hkey, -⟩ := hfresh.pending k e he
        (hfresh.promised k e he (by rw [hp]; exact some_ne_none i))
      rw [hfresh.distinct l hmem l' hl' (hid.trans (some.inj (hp.symm.trans hp'))), hkey]
    rw [any_some]
    dsimp only
    cases l.result with
    | none => exact .inl ⟨rfl, nofun⟩
    | some r =>
      dsimp only
      cases he : c.entries.get l.key with
      | none =>
        refine .inl ⟨rfl, fun _ hwaits => ?_⟩
        rw [Cache.promiseOf, ← hkey hwaits, he] at hwaits
        cases hwaits
      | some e =>
        dsimp only
        split_ifs with hp
        · by_cases hk : l.key = k
          · subst hk
            have hquery : l.query = e.query :=
              hfresh.query_of_promise hmem he (hp.trans (congrArg some hid.symm))
            refine .inr ⟨e, r, he, ?_, ?_⟩
            · rw [Cache.promiseOf, he]
              exact hp
            · rw [← hquery]
              exact Record.get_set_self _ _ _
          · exact .inl ⟨Record.get_set_ne _ _ hk, fun _ hwaits => hk (hkey hwaits)⟩
        · refine .inl ⟨rfl, fun _ hwaits => hp ?_⟩
          rw [Cache.promiseOf, ← hkey hwaits, he] at hwaits
          exact hwaits

theorem get_settle_of_promise_ne (hfresh : c.Fresh tag answer owed) (h : c.promiseOf k ≠ some i) :
    (c.settle i).entries.get k = c.entries.get k := by
  rcases get_settle hfresh i k with ⟨hsame, -⟩ | ⟨e, r, -, hp, -⟩
  · exact hsame
  · exact absurd hp h

/-- **The entry that waits for a load waits for nothing when it has ended.** -/
theorem promiseOf_settle (hfresh : c.Fresh tag answer owed) (hread : c.hasRead i = true)
    (h : c.promiseOf k = some i) :
    (∃ e, (c.settle i).entries.get k = some e) ∧ (c.settle i).promiseOf k = none := by
  rcases get_settle hfresh i k with ⟨-, hother⟩ | ⟨e, r, -, -, hentry⟩
  · exact absurd h (hother hread)
  · refine ⟨⟨_, hentry⟩, ?_⟩
    rw [Cache.promiseOf, hentry]
    cases r <;> rfl

@[simp] theorem View.query_loadEnds (v : View δ ρ) (i : ℕ) : (v.loadEnds i).query = v.query := by
  unfold View.loadEnds
  split_ifs <;> rfl

@[simp] theorem View.subscribed_loadEnds (v : View δ ρ) (i : ℕ) :
    (v.loadEnds i).subscribed = v.subscribed := by
  unfold View.loadEnds
  split_ifs <;> rfl

/-- **A load ends.**  Its end is what the view has waited for, or does not concern its entry. -/
theorem Watches.settle (h : Watches key c v) (hfresh : c.Fresh tag answer owed)
    (hread : c.hasRead i = true) : Watches key (c.settle i) (v.loadEnds i) := by
  by_cases hp : c.promiseOf (key v.query) = some i
  · obtain ⟨hentry, hnone⟩ := promiseOf_settle hfresh hread hp
    have hmem : v.waiting.contains i = true := List.contains_iff_mem.mpr (h.waits i hp)
    rw [View.loadEnds, if_pos hmem]
    refine ⟨hentry, fun j hj => ?_, .inl rfl⟩
    rw [hnone] at hj
    cases hj
  · have hkept : Watches key (c.settle i) v := h.congr (get_settle_of_promise_ne hfresh hp)
    unfold View.loadEnds
    split_ifs with hmem
    · refine ⟨hkept.entry, fun j hj => ?_, .inl rfl⟩
      have hne : j ≠ i := by
        rintro rfl
        rw [Cache.promiseOf, get_settle_of_promise_ne hfresh hp] at hj
        exact hp hj
      exact (List.mem_erase_of_ne hne).mpr (hkept.waits j hj)
    · exact hkept

/-! ### Events -/

variable {t : τ}

theorem get_invalidate_of_notMem (h : k ∉ c.keysOf t) :
    (c.invalidate tag t).entries.get k = c.entries.get k := by
  have hfoldl : ∀ (keys : List κ) (c : Cache κ τ δ ρ), k ∉ keys →
      (keys.foldl (Cache.rerun tag) c).entries.get k = c.entries.get k := by
    intro keys
    induction keys with
    | nil => exact fun c _ => rfl
    | cons j keys ih =>
      intro c hk
      obtain ⟨hne, hk⟩ := List.ne_and_not_mem_of_not_mem_cons hk
      rw [List.foldl_cons, ih _ hk]
      unfold Cache.rerun
      cases c.entries.get j with
      | none => rfl
      | some e => exact Record.get_set_ne _ _ hne.symm
  exact hfoldl _ c h

variable {e : Entry δ ρ}

theorem exists_get_foldl_rerun (keys : List κ) (he : c.entries.get k = some e) :
    ∃ e', (keys.foldl (Cache.rerun tag) c).entries.get k = some e' := by
  induction keys generalizing c e with
  | nil => exact ⟨e, he⟩
  | cons j keys ih =>
    rw [List.foldl_cons]
    by_cases hj : j = k
    · subst hj
      have hrerun : (c.rerun tag j).entries.get j =
          some ⟨e.query, .pending, (c.entries.get j).bind Entry.answer, some c.nextId⟩ := by
        rw [Cache.rerun, he]
        exact (Record.get_set_self c.entries j _).trans (by rw [he])
      exact ih hrerun
    · refine ih (e := e) ?_
      unfold Cache.rerun
      cases c.entries.get j with
      | none => exact he
      | some e₀ => exact (Record.get_set_ne _ _ hj).trans he

theorem exists_promise_invalidate (hfresh : c.Fresh tag answer owed) (he : c.entries.get k = some e)
    (ht : tag e.query = t) :
    ∃ e' i, (c.invalidate tag t).entries.get k = some e' ∧ e'.status = .pending ∧
      e'.promise = some i := by
  obtain ⟨hfresh', hreran, -⟩ := hfresh.reran (c.keysOf t)
  obtain ⟨e', he'⟩ : ∃ e', (c.invalidate tag t).entries.get k = some e' :=
    exists_get_foldl_rerun (c.keysOf t) he
  have hkey : k ∈ c.keysOf t := ht ▸ hfresh.indexed k e he
  have hpending := (hreran.anew k hkey e' he').1
  obtain ⟨l, -, hp, -⟩ := hfresh'.pending k e' he' hpending
  exact ⟨e', l.id, he', hpending, hp⟩

theorem Watches.invalidate_ne (h : Watches key c v) (hkeyed : Keyed tag key D c)
    (hinj : Set.InjOn key D) (hquery : v.query ∈ D) (ht : tag v.query ≠ t) :
    Watches key (c.invalidate tag t) v := by
  refine h.congr (get_invalidate_of_notMem fun hmem => ht ?_)
  obtain ⟨q, hq, hkey, htag⟩ := hkeyed.tags t _ hmem
  rw [← hinj hq hquery hkey, htag]

/-- **A view that hears an event joins the load** that the event has started: the cache does not
change. -/
theorem follow_of_pending (he : c.entries.get (key v.query) = some e)
    (hpending : e.status = .pending) (hp : e.promise = some i) :
    follow tag key c v = (c, { v with waiting := i :: v.waiting }) := by
  have hstarts : c.startsLoad (key v.query) false = false := by
    rw [Cache.startsLoad, he]
    dsimp only
    rw [hpending, hp]
    rfl
  have hpromise : c.promiseOf (key v.query) = some i := by
    rw [Cache.promiseOf, he]
    exact hp
  unfold follow
  rw [request_of_not_startsLoad hstarts]
  dsimp only
  rw [hpromise]

theorem hearAll_of_pending {hears : δ → Bool} {views : List (View δ ρ)}
    (h : ∀ v ∈ views, v.subscribed = true → hears v.query = true →
      ∃ e i, c.entries.get (key v.query) = some e ∧ e.status = .pending ∧ e.promise = some i) :
    hearAll tag key hears c views = (c, views.map fun v => (hear tag key hears c v).2) := by
  induction views with
  | nil => rfl
  | cons v views ih =>
    have hfst : (hear tag key hears c v).1 = c := by
      unfold hear
      split_ifs with hheard
      · rw [Bool.and_eq_true] at hheard
        obtain ⟨e, i, he, hpending, hp⟩ := h v List.mem_cons_self hheard.1 hheard.2
        rw [follow_of_pending (v := { v with due := true }) he hpending hp]
      · rfl
    unfold hearAll
    dsimp only
    rw [hfst, ih fun v hv => h v (List.mem_cons_of_mem _ hv)]
    rfl

/-- What a set of views keeps. -/
def WatchAll (key : δ → κ) (D : Set δ) (c : Cache κ τ δ ρ) (views : List (View δ ρ)) : Prop :=
  ∀ v ∈ views, v.subscribed = true → v.query ∈ D ∧ Watches key c v

/-- **An event.**  The loads of its tag start anew, the views of the tag hear of it and join them,
and every view watches its query as before. -/
theorem invalidate_hearAll (hfresh : c.Fresh tag answer owed) (hkeyed : Keyed tag key D c)
    (hinj : Set.InjOn key D) {hears : δ → Bool} (hhears : ∀ q, hears q = true ↔ tag q = t)
    {views : List (View δ ρ)} (h : WatchAll key D c views) :
    (hearAll tag key hears (c.invalidate tag t) views).1 = c.invalidate tag t ∧
      WatchAll key D (c.invalidate tag t)
        (hearAll tag key hears (c.invalidate tag t) views).2 := by
  have hpending : ∀ v ∈ views, v.subscribed = true → hears v.query = true →
      ∃ e i, (c.invalidate tag t).entries.get (key v.query) = some e ∧ e.status = .pending ∧
        e.promise = some i := by
    intro v hv hsubscribed hheard
    obtain ⟨hquery, hwatches⟩ := h v hv hsubscribed
    obtain ⟨e, he⟩ := hwatches.entry
    obtain ⟨hmem, hkey⟩ := hkeyed.entries _ e he
    have htag : tag e.query = t := by
      rw [hinj hmem hquery hkey]
      exact (hhears _).mp hheard
    exact exists_promise_invalidate hfresh he htag
  rw [hearAll_of_pending hpending]
  refine ⟨rfl, fun v' hv' hsubscribed' => ?_⟩
  obtain ⟨v, hv, rfl⟩ := List.mem_map.mp hv'
  unfold hear at hsubscribed' ⊢
  by_cases hheard : (v.subscribed && hears v.query) = true
  · rw [if_pos hheard] at hsubscribed' ⊢
    rw [Bool.and_eq_true] at hheard
    obtain ⟨e, i, he, hstatus, hp⟩ := hpending v hv hheard.1 hheard.2
    have hwatches : Watches key (follow tag key (c.invalidate tag t) { v with due := true }).1
        (follow tag key (c.invalidate tag t) { v with due := true }).2 := watches_follow _ rfl
    rw [follow_of_pending (v := { v with due := true }) he hstatus hp] at hwatches ⊢
    exact ⟨(h v hv hheard.1).1, hwatches⟩
  · rw [if_neg hheard] at hsubscribed' ⊢
    obtain ⟨hquery, hwatches⟩ := h v hv hsubscribed'
    refine ⟨hquery, hwatches.invalidate_ne hkeyed hinj hquery fun ht => hheard ?_⟩
    rw [Bool.and_eq_true]
    exact ⟨hsubscribed', (hhears _).mpr ht⟩

/-! ### Keys -/

theorem keyed_empty : Keyed tag key D (Cache.empty : Cache κ τ δ ρ) where
  entries k e hk := absurd hk (by simp [Cache.empty])
  tags t k hk := absurd hk (by simp [Cache.empty, Cache.keysOf])

theorem Keyed.run (h : Keyed tag key D c) (hq : q ∈ D) (hkey : key q = k) :
    Keyed tag key D (c.run tag q k) where
  entries j e hj := by
    have hget : (c.entries.set k _).get j = some e := hj
    rw [Record.get_set] at hget
    split_ifs at hget with hkj
    · rw [← some.inj hget]
      exact ⟨hq, hkey.trans hkj⟩
    · exact h.entries j e hget
  tags t j hj := by
    rcases Cache.Fresh.mem_keysOf_run.mp hj with hj | ⟨hj, ht⟩
    · exact h.tags t j hj
    · exact ⟨q, hq, hkey.trans hj.symm, ht.symm⟩

theorem Keyed.request (h : Keyed tag key D c) (hq : q ∈ D) (bypass : Bool) :
    Keyed tag key D (c.request tag q (key q) bypass) := by
  unfold Cache.request
  cases c.entries.get (key q) with
  | none => exact h.run hq rfl
  | some e =>
    dsimp only
    split_ifs
    · exact h
    · exact h
    · exact h.run hq rfl

theorem Keyed.read (h : Keyed tag key D c) (i : ℕ) (f : δ → Option ρ) :
    Keyed tag key D (c.read i f) :=
  ⟨h.entries, h.tags⟩

omit [DecidableEq τ] in
theorem byTag_settle (i : ℕ) : (c.settle i).byTag = c.byTag := by
  unfold Cache.settle
  cases c.loads.find? fun l => decide (l.id = i) with
  | none => rfl
  | some l =>
    dsimp only
    cases l.result with
    | none => rfl
    | some r =>
      dsimp only
      cases c.entries.get l.key with
      | none => rfl
      | some e =>
        dsimp only
        split_ifs <;> rfl

theorem Keyed.settle (h : Keyed tag key D c) (hfresh : c.Fresh tag answer owed) (i : ℕ) :
    Keyed tag key D (c.settle i) where
  entries k e' hk := by
    rcases get_settle hfresh i k with ⟨hsame, -⟩ | ⟨e, r, he, -, hentry⟩
    · exact h.entries k e' (hsame.symm.trans hk)
    · have hquery : e'.query = e.query := by
        rw [← some.inj (hentry.symm.trans hk)]
        cases r <;> rfl
      rw [hquery]
      exact h.entries k e he
  tags t k hk := h.tags t k (by rwa [Cache.keysOf, byTag_settle] at hk)

theorem Keyed.invalidate (h : Keyed tag key D c) (t : τ) :
    Keyed tag key D (c.invalidate tag t) := by
  have hfoldl : ∀ (keys : List κ) (c : Cache κ τ δ ρ), Keyed tag key D c →
      Keyed tag key D (keys.foldl (Cache.rerun tag) c) := by
    intro keys
    induction keys with
    | nil => exact fun c hc => hc
    | cons k keys ih =>
      intro c hc
      refine ih _ ?_
      unfold Cache.rerun
      cases he : c.entries.get k with
      | none => exact hc
      | some e => exact hc.run (hc.entries k e he).1 (hc.entries k e he).2
  exact hfoldl _ c h

/-! ### At rest -/

/-- **At rest a view shows what the cache has**: an answer that is the answer now, or a failure. -/
theorem Watches.of_resting (h : Watches key c v) (hfresh : c.Fresh tag answer owed)
    (hkeyed : Keyed tag key D c) (hinj : Set.InjOn key D) (hquery : v.query ∈ D)
    (hdue : v.due = false) (hloads : c.loads = []) (howed : ∀ t, ¬ owed t) :
    v.shown.status = some .error ∨
      ∃ a, v.shown = ⟨some a, some .ready⟩ ∧ answer v.query = some a := by
  obtain ⟨e, he⟩ := h.entry
  obtain ⟨hmem, hkey⟩ := hkeyed.entries _ e he
  have hsame : e.query = v.query := hinj hmem hquery hkey
  have hshown : v.shown = ⟨e.answer, some e.status⟩ := by
    rcases h.shows with hd | hshown
    · rw [hdue] at hd
      cases hd
    · rw [hshown, Cache.snapshot, he]
  cases hstatus : e.status with
  | pending =>
    obtain ⟨l, hl, -⟩ := hfresh.pending _ e he hstatus
    rw [hloads] at hl
    cases hl
  | error =>
    left
    rw [hshown, hstatus]
  | ready =>
    right
    obtain ⟨a, ha, hanswer⟩ := hfresh.of_resting howed he hstatus
    exact ⟨a, by rw [hshown, hstatus, ha], hsame ▸ hanswer⟩

end LoadCache
