import Interocitor.Foundation.LiveViews
import Interocitor.Queries.QueryCache

/-!
# `use-live-query.ts`: what a component shows of a query

A component that uses a live query shows what the engine's cache has of it.  React renders it when
it is told to, and `subscribe` tells it: at every change or deletion in the table of the query, and
at the end of the load that it has asked for then.  Between two renderings it shows what it has
shown.

The engine goes from one listener to the next after it has started the loads of the table anew, so
that a listener which asks for its query joins the load and starts none.  A load that is started
otherwise is not announced to anybody: with `bypassCache`, or by a component that comes later and
finds an error.  The components that already show the query are not told of its end.  With this
exception, and where the engine tells its listeners of what it writes, a component misses nothing.

A selector is applied to the rows and kept with them; it is left out, and so are the labels for
React's tools.

* `getSnapshot`: what a component shows, of what the cache has.
* `LiveWorld`: an engine, and the components that show queries of it.
* `live_step`: one step keeps that every component watches its query.
* `live_queries_are_current`: at rest.
-/

namespace Interocitor.Queries

open CodeUnits OrderedRecord Comparators LoadCache List

/-! ## Components -/

/-- `UseLiveQueryResult`; of an error, that there is one. -/
structure UseLiveQueryResult where
  data : Option (List Fetched)
  loading : Bool
  error : Bool

/-- `getSnapshot`, of what `peekCache` and `peekStatus` return. -/
def getSnapshot (s : LoadCache.Snapshot (List Fetched)) : UseLiveQueryResult :=
  let error := decide (s.status = some .error)
  let loaded := decide (s.status = some .ready)
  { data := s.answer
    loading := !s.answer.isSome && !loaded && !error
    error := error }

/-- A component that uses a live query. -/
abbrev LiveQuery := View QueryDescriptor (List Fetched)

/-- An engine, and the components that show queries of it. -/
structure LiveWorld where
  engine : CachingEngine
  components : List LiveQuery

/-- What happens: something in the engine, or to a component. -/
inductive LiveAction where
  | engine (a : Action)
  /-- A component is rendered for the first time. -/
  | mount (d : QueryDescriptor)
  /-- React calls `subscribe`. -/
  | subscribe (j : ℕ)
  | render (j : ℕ)
  | unmount (j : ℕ)

namespace LiveWorld

section Steps

variable (P : Platform) (S : ArraySort Fetched) (objects : Row → Text → ℕ)

/-- `emit`, of a change or a deletion in a table, with the listeners. -/
def emit (w : LiveWorld) (table : Text) : LiveWorld :=
  let engine := w.engine.emit table
  let told := hearAll QueryDescriptor.table (computeCacheKey P)
    (fun d => decide (d.table = table)) engine.queryCache w.components
  ⟨{ engine with queryCache := told.1 }, told.2⟩

/-- `emitAffectedRows`. -/
def emitAffectedRows (w : LiveWorld) (affected : List Row) : LiveWorld :=
  affected.foldl (fun w row => w.emit P row._meta.table) w

/-- One step. -/
def step (w : LiveWorld) : LiveAction → LiveWorld
  | .engine (.emitAffectedRows i) =>
    match w.engine.untold[i]? with
    | some affected =>
      let told := w.emitAffectedRows P affected
      { told with engine := { told.engine with untold := w.engine.untold.eraseIdx i } }
    | none => w
  | .engine (.settleQuery i) =>
    -- the listeners of the promise: `notifyWhenLoaded`
    { engine := w.engine.step P S objects (.settleQuery i)
      components := if w.engine.queryCache.hasRead i then
        w.components.map fun v => v.loadEnds i else w.components }
  | .engine a => { w with engine := w.engine.step P S objects a }
  | .mount d =>
    let engine := w.engine.loadQueryRows P d false
    ⟨engine, w.components ++
      [⟨d, false, engine.queryCache.snapshot (computeCacheKey P d), false, []⟩]⟩
  | .subscribe j =>
    match w.components[j]? with
    | some v =>
      if v.subscribed then w
      else
        -- React looks at the snapshot once more
        let r := follow QueryDescriptor.table (computeCacheKey P) w.engine.queryCache
          { v with subscribed := true, due := true }
        ⟨{ w.engine with queryCache := r.1 }, w.components.set j r.2⟩
    | none => w
  | .render j =>
    { w with components := w.components.modify j fun v =>
        v.render (computeCacheKey P) w.engine.queryCache }
  | .unmount j => { w with components := w.components.eraseIdx j }

/-- Many steps. -/
def run (w : LiveWorld) (actions : List LiveAction) : LiveWorld :=
  actions.foldl (step P S objects) w

/-- A request that starts no load of a query which is shown. -/
def Apart (w : LiveWorld) (d : QueryDescriptor) (bypass : Bool) : Prop :=
  w.engine.queryCache.startsLoad (computeCacheKey P d) bypass = true →
    ∀ v ∈ w.components, v.subscribed = true → computeCacheKey P v.query ≠ computeCacheKey P d

/-- **A step leaves no component untold**: the engine announces what it writes, the queries are
among `D`, and no load of a query that is shown is started without an event. -/
def Announced (D : Set QueryDescriptor) (w : LiveWorld) : LiveAction → Prop
  | .engine (.loadQueryRows d bypass) => d ∈ D ∧ w.Apart P d bypass
  | .engine a => w.engine.Announced a
  | .mount d => d ∈ D ∧ w.Apart P d false
  | .subscribe j => ∀ v, w.components[j]? = some v → w.Apart P v.query false
  | _ => True

/-- All steps of a run leave no component untold. -/
def AnnouncedRun (D : Set QueryDescriptor) : LiveWorld → List LiveAction → Prop
  | _, [] => True
  | w, a :: rest => w.Announced P D a ∧ AnnouncedRun D (w.step P S objects a) rest

end Steps

/-- An engine over a store, and no components. -/
def start (store : AnyStore) : LiveWorld := ⟨.start store, []⟩

/-- Nothing is under way, and no component is to be rendered. -/
def Resting (w : LiveWorld) : Prop := w.engine.Resting ∧ ∀ v ∈ w.components, v.due = false

/-! ## What is kept -/

/-- The caches are fresh, their keys are keys of `D`, and every component that hears of events
watches its query. -/
structure Inv (P : Platform) (S : ArraySort Fetched) (objects : Row → Text → ℕ)
    (D : Set QueryDescriptor) (w : LiveWorld) : Prop where
  fresh : CachingEngine.Fresh P S objects w.engine
  keyed : LoadCache.Keyed QueryDescriptor.table (computeCacheKey P) D w.engine.queryCache
  mounted : ∀ v ∈ w.components, v.query ∈ D
  watched : WatchAll (computeCacheKey P) D w.engine.queryCache w.components

variable {P : Platform} {S : ArraySort Fetched} {objects : Row → Text → ℕ}
  {D : Set QueryDescriptor} {w : LiveWorld}

theorem inv_start (store : AnyStore) : Inv P S objects D (start store) where
  fresh := CachingEngine.fresh_start store
  keyed := keyed_empty
  mounted _ hv := absurd hv not_mem_nil
  watched _ hv := absurd hv not_mem_nil

/-! ### An event, and the components that hear it -/

/-- What does not depend on the store: the keys, and who watches. -/
structure Watching (P : Platform) (D : Set QueryDescriptor) (w : LiveWorld) : Prop where
  fresh : w.engine.queryCache.Fresh QueryDescriptor.table (fun _ => none) fun _ => True
  keyed : LoadCache.Keyed QueryDescriptor.table (computeCacheKey P) D w.engine.queryCache
  mounted : ∀ v ∈ w.components, v.query ∈ D
  watched : WatchAll (computeCacheKey P) D w.engine.queryCache w.components

theorem query_of_mem_hearAll {c : Cache Text Text QueryDescriptor (List Fetched)}
    {hears : QueryDescriptor → Bool} {views : List LiveQuery} {v : LiveQuery}
    (h : v ∈ (hearAll QueryDescriptor.table (computeCacheKey P) hears c views).2) :
    ∃ v₀ ∈ views, v.query = v₀.query := by
  induction views generalizing c with
  | nil => exact absurd h not_mem_nil
  | cons v₀ views ih =>
    rcases mem_cons.mp h with rfl | h
    · refine ⟨v₀, mem_cons_self, ?_⟩
      unfold hear
      split_ifs
      · exact query_follow _
      · rfl
    · obtain ⟨v₁, hv₁, heq⟩ := ih h
      exact ⟨v₁, mem_cons_of_mem _ hv₁, heq⟩

/-- **An event starts the loads of its table, and the components join them.** -/
theorem Watching.emit (h : Watching P D w) (hinj : Set.InjOn (computeCacheKey P) D) (table : Text) :
    (w.emit P table).engine = w.engine.emit table ∧ Watching P D (w.emit P table) := by
  have hhears : ∀ d : QueryDescriptor, decide (d.table = table) = true ↔ d.table = table :=
    fun d => decide_eq_true_iff
  obtain ⟨hcache, hwatched⟩ := invalidate_hearAll h.fresh h.keyed hinj hhears h.watched
  have hengine : (w.emit P table).engine = w.engine.emit table := by
    unfold LiveWorld.emit
    dsimp only
    exact congrArg (fun c => { w.engine.emit table with queryCache := c }) hcache
  have hquery : (w.emit P table).engine.queryCache =
      w.engine.queryCache.invalidate QueryDescriptor.table table := by
    rw [hengine]
    rfl
  refine ⟨hengine, ?_, ?_, ?_, ?_⟩
  · rw [hquery]
    exact (h.fresh.invalidate table).mono fun _ _ _ _ => trivial
  · rw [hquery]
    exact h.keyed.invalidate table
  · intro v hv
    obtain ⟨v₀, hv₀, heq⟩ := query_of_mem_hearAll hv
    rw [heq]
    exact h.mounted v₀ hv₀
  · rw [hquery]
    exact hwatched

theorem Watching.emitAffectedRows (h : Watching P D w) (hinj : Set.InjOn (computeCacheKey P) D)
    (affected : List Row) :
    (w.emitAffectedRows P affected).engine = w.engine.emitAffectedRows affected ∧
      Watching P D (w.emitAffectedRows P affected) := by
  induction affected generalizing w with
  | nil => exact ⟨rfl, h⟩
  | cons row affected ih =>
    obtain ⟨hengine, hwatching⟩ := h.emit hinj row._meta.table
    obtain ⟨hengine', hwatching'⟩ := ih hwatching
    refine ⟨hengine'.trans ?_, hwatching'⟩
    rw [hengine]
    rfl

theorem Inv.watching (h : Inv P S objects D w) : Watching P D w where
  fresh := h.fresh.queries.change (fun _ _ => trivial) fun _ _ _ => .inl trivial
  keyed := h.keyed
  mounted := h.mounted
  watched := h.watched

/-! ### One step -/

theorem Inv.keep (h : Inv P S objects D w) {e : CachingEngine}
    (hfresh : CachingEngine.Fresh P S objects e)
    (hcache : e.queryCache = w.engine.queryCache) : Inv P S objects D { w with engine := e } where
  fresh := hfresh
  keyed := by
    rw [hcache]
    exact h.keyed
  mounted := h.mounted
  watched := by
    rw [hcache]
    exact h.watched

theorem Inv.read (h : Inv P S objects D w) {e : CachingEngine}
    (hfresh : CachingEngine.Fresh P S objects e) {i : ℕ}
    {f : QueryDescriptor → Option (List Fetched)}
    (hcache : e.queryCache = w.engine.queryCache.read i f) :
    Inv P S objects D { w with engine := e } where
  fresh := hfresh
  keyed := by
    rw [hcache]
    exact h.keyed.read i f
  mounted := h.mounted
  watched v hv hsubscribed := by
    rw [hcache]
    exact ⟨(h.watched v hv hsubscribed).1, (h.watched v hv hsubscribed).2.read i f⟩

theorem Inv.request (h : Inv P S objects D w) {d : QueryDescriptor} {bypass : Bool} (hd : d ∈ D)
    (hapart : w.Apart P d bypass) :
    Inv P S objects D { w with engine := w.engine.loadQueryRows P d bypass } where
  fresh := CachingEngine.fresh_step (a := .loadQueryRows d bypass) h.fresh trivial
  keyed := h.keyed.request hd bypass
  mounted := h.mounted
  watched v hv hsubscribed := by
    obtain ⟨hquery, hwatches⟩ := h.watched v hv hsubscribed
    exact ⟨hquery, hwatches.request fun hstarts => (hapart hstarts v hv hsubscribed).symm⟩

/-- **An event of the engine.** -/
theorem engine_step (h : Inv P S objects D w) (hinj : Set.InjOn (computeCacheKey P) D) {a : Action}
    (ha : w.Announced P D (.engine a)) : Inv P S objects D (w.step P S objects (.engine a)) := by
  cases a with
  | loadQueryRows d bypass => exact h.request ha.1 ha.2
  | loadRow pair bypass => exact h.keep (CachingEngine.fresh_step h.fresh ha) rfl
  | readQuery i => exact h.read (CachingEngine.fresh_step h.fresh ha) rfl
  | readRow i => exact h.keep (CachingEngine.fresh_step h.fresh ha) rfl
  | failQuery i => exact h.read (f := fun _ => none) (CachingEngine.fresh_step h.fresh ha) rfl
  | failRow i => exact h.keep (CachingEngine.fresh_step h.fresh ha) rfl
  | settleRow i => exact h.keep (CachingEngine.fresh_step h.fresh ha) rfl
  | throws i => exact h.keep (CachingEngine.fresh_step h.fresh ha) rfl
  | mergeThrows rows => exact h.keep (CachingEngine.fresh_step h.fresh ha) rfl
  | clearAll => exact h.keep (CachingEngine.fresh_step h.fresh ha) rfl
  | restore rows => exact h.keep (CachingEngine.fresh_step h.fresh ha) rfl
  | replaced => exact h.keep (CachingEngine.fresh_step h.fresh ha) rfl
  | write rows =>
    refine h.keep (CachingEngine.fresh_step (a := .write rows) h.fresh ha) ?_
    rw [CachingEngine.step]
    cases w.engine.store.putRows rows with
    | none => rfl
    | some store => rfl
  | settleQuery i =>
    have hfresh := CachingEngine.fresh_step (a := .settleQuery i) h.fresh ha
    have hkeyed := h.keyed.settle h.fresh.queries i
    cases hread : w.engine.queryCache.hasRead i with
    | true =>
      have hstep : w.step P S objects (.engine (.settleQuery i)) =
          ⟨w.engine.step P S objects (.settleQuery i),
            w.components.map fun v => v.loadEnds i⟩ := by
        simp only [step, hread, if_true]
      rw [hstep]
      refine ⟨hfresh, hkeyed, fun v hv => ?_, fun v hv hsubscribed => ?_⟩
      · obtain ⟨v₀, hv₀, rfl⟩ := mem_map.mp hv
        rw [View.query_loadEnds]
        exact h.mounted v₀ hv₀
      · obtain ⟨v₀, hv₀, rfl⟩ := mem_map.mp hv
        rw [View.subscribed_loadEnds] at hsubscribed
        obtain ⟨hquery, hwatches⟩ := h.watched v₀ hv₀ hsubscribed
        rw [View.query_loadEnds]
        exact ⟨hquery, hwatches.settle h.fresh.queries hread⟩
    | false =>
      have hstep : w.step P S objects (.engine (.settleQuery i)) =
          { w with engine := w.engine.step P S objects (.settleQuery i) } := by
        simp only [step, hread, Bool.false_eq_true, if_false]
      rw [hstep]
      exact h.keep hfresh (settle_of_not_hasRead hread)
  | emitAffectedRows i =>
    cases hi : w.engine.untold[i]? with
    | none =>
      have hstep : w.step P S objects (.engine (.emitAffectedRows i)) = w := by
        simp only [step, hi]
      rw [hstep]
      exact h
    | some affected =>
      have hstep : w.step P S objects (.engine (.emitAffectedRows i)) =
          { w.emitAffectedRows P affected with
            engine := { (w.emitAffectedRows P affected).engine with
              untold := w.engine.untold.eraseIdx i } } := by
        simp only [step, hi]
      obtain ⟨hengine, hwatching⟩ := h.watching.emitAffectedRows hinj affected
      have hfresh := h.fresh.told hi
      rw [← hengine] at hfresh
      rw [hstep]
      exact { hwatching with fresh := hfresh }

theorem mem_modify {α : Type} {l : List α} {f : α → α} {j : ℕ} {a : α} (h : a ∈ l.modify j f) :
    ∃ b ∈ l, a = b ∨ a = f b := by
  obtain ⟨n, hn⟩ := mem_iff_getElem?.mp h
  rw [List.getElem?_modify] at hn
  obtain ⟨b, hb, heq⟩ := Option.map_eq_some_iff.mp hn
  refine ⟨b, mem_of_getElem? hb, ?_⟩
  split_ifs at heq
  · exact .inr heq.symm
  · exact .inl heq.symm

/-- **One step keeps that every component watches its query.** -/
theorem live_step (h : Inv P S objects D w) (hinj : Set.InjOn (computeCacheKey P) D)
    {a : LiveAction} (ha : w.Announced P D a) : Inv P S objects D (w.step P S objects a) := by
  cases a with
  | engine a => exact engine_step h hinj ha
  | mount d =>
    have hrequest := h.request ha.1 ha.2
    refine ⟨hrequest.fresh, hrequest.keyed, fun v hv => ?_, fun v hv hsubscribed => ?_⟩
    · rcases mem_append.mp hv with hv | hv
      · exact h.mounted v hv
      · rw [mem_singleton.mp hv]
        exact ha.1
    · rcases mem_append.mp hv with hv | hv
      · exact hrequest.watched v hv hsubscribed
      · rw [mem_singleton.mp hv] at hsubscribed
        cases hsubscribed
  | subscribe j =>
    cases hj : w.components[j]? with
    | none =>
      have hstep : w.step P S objects (.subscribe j) = w := by simp only [step, hj]
      rw [hstep]
      exact h
    | some v =>
      have hmem : v ∈ w.components := mem_of_getElem? hj
      cases hsubscribed : v.subscribed with
      | true =>
        have hstep : w.step P S objects (.subscribe j) = w := by
          simp only [step, hj, hsubscribed, if_true]
        rw [hstep]
        exact h
      | false =>
        -- the component asks for its query, and waits for the load
        have hstep : w.step P S objects (.subscribe j) =
            ⟨w.engine.loadQueryRows P v.query false, w.components.set j
              (follow QueryDescriptor.table (computeCacheKey P) w.engine.queryCache
                { v with subscribed := true, due := true }).2⟩ := by
          simp only [step, hj, hsubscribed, Bool.false_eq_true, if_false, fst_follow]
          rfl
        have hrequest := h.request (h.mounted v hmem) (ha v hj)
        rw [hstep]
        refine ⟨hrequest.fresh, hrequest.keyed, fun v' hv' => ?_, fun v' hv' hsubscribed' => ?_⟩
        · rcases mem_or_eq_of_mem_set hv' with hv' | rfl
          · exact h.mounted v' hv'
          · rw [query_follow]
            exact h.mounted v hmem
        · rcases mem_or_eq_of_mem_set hv' with hv' | rfl
          · exact hrequest.watched v' hv' hsubscribed'
          · refine ⟨by rw [query_follow]; exact h.mounted v hmem, ?_⟩
            have hfollow : Watches (computeCacheKey P)
                (follow QueryDescriptor.table (computeCacheKey P) w.engine.queryCache
                  { v with subscribed := true, due := true }).1
                (follow QueryDescriptor.table (computeCacheKey P) w.engine.queryCache
                  { v with subscribed := true, due := true }).2 := watches_follow _ rfl
            rw [fst_follow] at hfollow
            exact hfollow
  | render j =>
    refine ⟨h.fresh, h.keyed, fun v hv => ?_, fun v hv hsubscribed => ?_⟩
    · obtain ⟨v₀, hv₀, rfl | rfl⟩ := mem_modify hv
      · exact h.mounted v hv₀
      · exact h.mounted v₀ hv₀
    · obtain ⟨v₀, hv₀, rfl | rfl⟩ := mem_modify hv
      · exact h.watched v hv₀ hsubscribed
      · obtain ⟨hquery, hwatches⟩ := h.watched v₀ hv₀ hsubscribed
        exact ⟨hquery, hwatches.render⟩
  | unmount j =>
    exact ⟨h.fresh, h.keyed, fun v hv => h.mounted v (mem_of_mem_eraseIdx hv),
      fun v hv => h.watched v (mem_of_mem_eraseIdx hv)⟩

/-- **Whole runs.** -/
theorem live_run (h : Inv P S objects D w) (hinj : Set.InjOn (computeCacheKey P) D)
    {actions : List LiveAction} (ha : AnnouncedRun P S objects D w actions) :
    Inv P S objects D (w.run P S objects actions) := by
  induction actions generalizing w with
  | nil => exact h
  | cons a actions ih => exact ih (live_step h hinj ha.1) ha.2

/-- **Live queries are current.**  Let the queries that are asked have keys of their own, let the
engine tell its listeners of what it writes, and let nobody start a load of a query that is shown
without an event.  Then, whatever is written, loaded, mounted and rendered, and in whatever order
loads and notifications arrive: once nothing is under way, every component shows the rows that the
store answers to its query then, or that its last load has failed. -/
theorem live_queries_are_current (P : Platform) (S : ArraySort Fetched) (objects : Row → Text → ℕ)
    (D : Set QueryDescriptor) (hinj : Set.InjOn (computeCacheKey P) D) (store : AnyStore)
    (actions : List LiveAction) (ha : AnnouncedRun P S objects D (start store) actions)
    (hrest : Resting ((start store).run P S objects actions)) :
    ∀ v ∈ ((start store).run P S objects actions).components, v.subscribed = true →
      (getSnapshot v.shown).error = true ∨
        ∃ rows, getSnapshot v.shown = ⟨some rows, false, false⟩ ∧
          answer P S objects ((start store).run P S objects actions).engine.store v.query =
            some rows := by
  intro v hv hsubscribed
  have hinv := live_run (inv_start store) hinj ha
  obtain ⟨⟨hloads, -, huntold, -⟩, hdue⟩ := hrest
  have hnone : ∀ t, ¬ CachingEngine.Owed
      ((start store).run P S objects actions).engine.untold t := by
    rintro t ⟨rows, hrows, -⟩
    rw [huntold] at hrows
    cases hrows
  obtain ⟨hquery, hwatches⟩ := hinv.watched v hv hsubscribed
  rcases hwatches.of_resting hinv.fresh.queries hinv.keyed hinj hquery (hdue v hv) hloads hnone with
    herror | ⟨rows, hshown, hanswer⟩
  · left
    rw [getSnapshot, herror]
    rfl
  · exact .inr ⟨rows, by rw [hshown]; rfl, hanswer⟩

/-! ### A component that sees a row appear -/

/-- A component is mounted over an empty table, and then a row is written. -/
def rowAppears : List LiveAction :=
  [.mount CachingEngine.wholeTable, .subscribe 0, .engine (.readQuery 0), .engine (.settleQuery 0),
    .render 0, .engine (.write [CachingEngine.tableRow]), .engine (.emitAffectedRows 0), .render 0,
    .engine (.readQuery 1), .engine (.settleQuery 1), .render 0]

/-- The world after that. -/
def afterRowAppears : LiveWorld :=
  (start CachingEngine.noRows).run strokePlatform (insertionSort Fetched) (fun _ _ => 0) rowAppears

theorem announced_rowAppears : AnnouncedRun strokePlatform (insertionSort Fetched) (fun _ _ => 0)
    {CachingEngine.wholeTable} (start CachingEngine.noRows) rowAppears := by
  refine ⟨⟨rfl, fun _ v hv => absurd hv not_mem_nil⟩, fun v hv => ?_, trivial, trivial,
    trivial, ⟨fun row _ old hold => ?_, fun row _ k entry hk => ?_⟩, trivial, trivial, trivial,
    trivial, trivial, trivial⟩
  · intro hstarts
    obtain rfl := Option.some.inj hv
    exact absurd hstarts (by decide)
  · have hnone : (none : Option Row) = some old := hold
    cases hnone
  · have hnone : (none : Option (Entry (Text × Text) (Option Row))) = some entry := hk
    cases hnone

theorem live_queries_are_current_rowAppears :
    (afterRowAppears.components.map fun v => (getSnapshot v.shown).error) = [false] ∧
      ∀ v ∈ afterRowAppears.components, v.subscribed = true →
        (getSnapshot v.shown).error = true ∨
          ∃ rows, getSnapshot v.shown = ⟨some rows, false, false⟩ ∧
            answer strokePlatform (insertionSort Fetched) (fun _ _ => 0)
              afterRowAppears.engine.store v.query = some rows := by
  refine ⟨rfl, live_queries_are_current strokePlatform (insertionSort Fetched) (fun _ _ => 0)
    {CachingEngine.wholeTable} (Set.injOn_singleton _ _) CachingEngine.noRows rowAppears
    announced_rowAppears ⟨⟨rfl, rfl, rfl, rfl⟩, fun v hv => ?_⟩⟩
  have hall : ∀ v ∈ afterRowAppears.components, v.due = false := by
    intro v hv
    rcases mem_singleton.mp hv with rfl
    rfl
  exact hall v hv

end LiveWorld

end Interocitor.Queries
