import Interocitor.Foundation.Record

/-!
# A cache that shows what it had while it loads anew

A cache keeps the answers to queries.  A query that is asked for the first time starts a load; what
comes back is kept, and shown from then on without asking again.  Every query has a tag, and the
cache is told of a tag when the answers of its queries may have changed: it then starts all of them
anew, and goes on to show what it had until the new answer is there.

Loads take time, and the store may change between the asking and the reading, and between the
reading and the arrival.  A load does not know.  It is the entry that knows which load it waits for:
one that was started later takes its place, and what an older one brings is thrown away.  So an
answer can be old only if the store changed after it was read and the cache was not told, or not
yet told.

* `request`, `invalidate`, `read`, `settle`: what happens to a cache.
* `Fresh`: no answer is older than what the cache has been told, but for tags that are still owed.
* `Fresh.run`, `Fresh.invalidate`, `Fresh.read`, `Fresh.settle`, `Fresh.change`: the steps.
* `Fresh.of_resting`: at rest, what is shown is what the store answers.
-/

open OrderedRecord List Option

namespace LoadCache

/-- Where an entry is. -/
inductive Status where
  | pending
  | ready
  | error
  deriving DecidableEq

/-- An entry: what it answers, what it shows, and the load that it waits for. -/
structure Entry (δ ρ : Type) where
  query : δ
  status : Status
  answer : Option ρ
  promise : Option ℕ

/-- A load, and what it has read: an answer or a failure. -/
structure Load (κ δ ρ : Type) where
  id : ℕ
  key : κ
  query : δ
  result : Option (Option ρ)

/-- The entries, the keys of each tag, and the loads that are under way. -/
structure Cache (κ τ δ ρ : Type) where
  entries : Record κ (Entry δ ρ)
  byTag : Record τ (List κ)
  loads : List (Load κ δ ρ)
  nextId : ℕ

namespace Cache

variable {κ τ δ ρ : Type} [DecidableEq κ] [DecidableEq τ]

/-- A cache that nothing was asked of. -/
def empty : Cache κ τ δ ρ := ⟨∅, ∅, [], 0⟩

/-- The keys of a tag. -/
def keysOf (c : Cache κ τ δ ρ) (t : τ) : List κ := (c.byTag.get t).getD []

/-- Put a key into a set. -/
def insertKey (k : κ) (keys : List κ) : List κ := if keys.contains k then keys else keys ++ [k]

section Steps

variable (tag : δ → τ)

/-- Start a load: the entry waits for it, and shows what it showed. -/
def run (c : Cache κ τ δ ρ) (q : δ) (k : κ) : Cache κ τ δ ρ where
  entries := c.entries.set k ⟨q, .pending, (c.entries.get k).bind Entry.answer, some c.nextId⟩
  byTag := c.byTag.set (tag q) (insertKey k (c.keysOf (tag q)))
  loads := c.loads ++ [⟨c.nextId, k, q, none⟩]
  nextId := c.nextId + 1

/-- Ask a query, past what is cached or not. -/
def request (c : Cache κ τ δ ρ) (q : δ) (k : κ) (bypass : Bool) : Cache κ τ δ ρ :=
  match c.entries.get k with
  | some e =>
    if bypass = false ∧ e.status = .pending ∧ e.promise.isSome = true then c
    else if bypass = false ∧ e.status = .ready ∧ e.answer.isSome = true then c
    else c.run tag q k
  | none => c.run tag q k

/-- Start the load of an entry anew. -/
def rerun (c : Cache κ τ δ ρ) (k : κ) : Cache κ τ δ ρ :=
  match c.entries.get k with
  | some e => c.run tag e.query k
  | none => c

/-- The answers of a tag may have changed. -/
def invalidate (c : Cache κ τ δ ρ) (t : τ) : Cache κ τ δ ρ := (c.keysOf t).foldl (rerun tag) c

end Steps

/-- A load reads. -/
def read (c : Cache κ τ δ ρ) (i : ℕ) (f : δ → Option ρ) : Cache κ τ δ ρ :=
  { c with loads := c.loads.map fun l =>
      if l.id = i ∧ l.result.isNone = true then { l with result := some (f l.query) } else l }

/-- What a load brings, to an entry that waits for it. -/
def settled (e : Entry δ ρ) (q : δ) : Option ρ → Entry δ ρ
  | some a => ⟨q, .ready, some a, none⟩
  | none => ⟨q, .error, e.answer, none⟩

/-- What a load has read arrives, and counts if the entry still waits for it. -/
def settle (c : Cache κ τ δ ρ) (i : ℕ) : Cache κ τ δ ρ :=
  match c.loads.find? fun l => decide (l.id = i) with
  | none => c
  | some l =>
    match l.result with
    | none => c
    | some r =>
      let loads := c.loads.filter fun l => decide (l.id ≠ i)
      match c.entries.get l.key with
      | none => { c with loads := loads }
      | some e =>
        if e.promise = some i then
          { c with loads := loads, entries := c.entries.set l.key (settled e l.query r) }
        else { c with loads := loads }

/-! ## What a cache keeps -/

/-- **No answer is older than what the cache has been told**, but for tags of which it is owed
word. -/
structure Fresh (tag : δ → τ) (answer : δ → Option ρ) (owed : τ → Prop) (c : Cache κ τ δ ρ) :
    Prop where
  below : ∀ l ∈ c.loads, l.id < c.nextId
  distinct : ∀ l ∈ c.loads, ∀ l' ∈ c.loads, l.id = l'.id → l = l'
  indexed : ∀ k e, c.entries.get k = some e → k ∈ c.keysOf (tag e.query)
  pending : ∀ k e, c.entries.get k = some e → e.status = .pending →
    ∃ l ∈ c.loads, e.promise = some l.id ∧ l.key = k ∧ l.query = e.query
  promised : ∀ k e, c.entries.get k = some e → e.promise ≠ none → e.status = .pending
  ready : ∀ k e, c.entries.get k = some e → e.status = .ready →
    owed (tag e.query) ∨ ∃ a, e.answer = some a ∧ answer e.query = some a
  reads : ∀ l ∈ c.loads, ∀ a, l.result = some (some a) → ∀ e, c.entries.get l.key = some e →
    e.promise = some l.id → owed (tag l.query) ∨ answer l.query = some a

namespace Fresh

variable {tag : δ → τ} {answer : δ → Option ρ} {owed : τ → Prop} {c : Cache κ τ δ ρ}

theorem empty : Fresh tag answer owed (Cache.empty : Cache κ τ δ ρ) where
  below l hl := absurd hl not_mem_nil
  distinct l hl := absurd hl not_mem_nil
  indexed k e hk := absurd hk (by simp [Cache.empty])
  pending k e hk := absurd hk (by simp [Cache.empty])
  promised k e hk := absurd hk (by simp [Cache.empty])
  ready k e hk := absurd hk (by simp [Cache.empty])
  reads l hl := absurd hl not_mem_nil

theorem query_of_promise (h : Fresh tag answer owed c) {l : Load κ δ ρ} (hl : l ∈ c.loads)
    {e : Entry δ ρ} (he : c.entries.get l.key = some e) (hp : e.promise = some l.id) :
    l.query = e.query := by
  have hpending := h.promised l.key e he (by rw [hp]; exact some_ne_none _)
  obtain ⟨l', hl', hp', -, hquery⟩ := h.pending l.key e he hpending
  rw [h.distinct l hl l' hl' (some.inj (hp.symm.trans hp'))]
  exact hquery

theorem mono {owed' : τ → Prop} (h : Fresh tag answer owed c)
    (hle : ∀ k e, c.entries.get k = some e → owed (tag e.query) → owed' (tag e.query)) :
    Fresh tag answer owed' c :=
  { h with
    ready := fun k e hk hready => (h.ready k e hk hready).imp_left (hle k e hk)
    reads := fun l hl a ha e he hp => by
      have hquery := h.query_of_promise hl he hp
      exact (h.reads l hl a ha e he hp).imp_left (hquery ▸ hle l.key e he) }

/-- **The store changes.**  Word is owed of the tags whose queries are answered otherwise. -/
theorem change {answer' : δ → Option ρ} {owed' : τ → Prop} (h : Fresh tag answer owed c)
    (hle : ∀ t, owed t → owed' t)
    (hsame : ∀ k e, c.entries.get k = some e → owed' (tag e.query) ∨
      answer' e.query = answer e.query) :
    Fresh tag answer' owed' c :=
  { h with
    ready := fun k e hk hready => by
      rcases hsame k e hk with howed | heq
      · exact .inl howed
      · rw [heq]
        exact (h.ready k e hk hready).imp_left (hle _)
    reads := fun l hl a ha e he hp => by
      rw [h.query_of_promise hl he hp]
      rcases hsame l.key e he with howed | heq
      · exact .inl howed
      · rw [heq, ← h.query_of_promise hl he hp]
        exact (h.reads l hl a ha e he hp).imp_left (hle _) }

theorem mem_insertKey {k j : κ} {keys : List κ} : j ∈ insertKey k keys ↔ j = k ∨ j ∈ keys := by
  rw [insertKey]
  split_ifs with h
  · refine ⟨.inr, ?_⟩
    rintro (rfl | hj)
    · exact contains_iff_mem.mp h
    · exact hj
  · rw [mem_append, mem_singleton, or_comm]

theorem mem_keysOf_run {q : δ} {k j : κ} {t : τ} :
    j ∈ (c.run tag q k).keysOf t ↔ j ∈ c.keysOf t ∨ j = k ∧ t = tag q := by
  show j ∈ ((c.byTag.set (tag q) _).get t).getD [] ↔ _
  rw [Record.get_set]
  split_ifs with ht
  · rw [getD_some, mem_insertKey, ht]
    tauto
  · have hne : t ≠ tag q := Ne.symm ht
    show j ∈ c.keysOf t ↔ _
    tauto

/-- **A load is started.** -/
theorem run (h : Fresh tag answer owed c) (q : δ) (k : κ) :
    Fresh tag answer owed (c.run tag q k) where
  below l hl := by
    rcases mem_append.mp hl with hl | hl
    · exact Nat.lt_succ_of_lt (h.below l hl)
    · rw [mem_singleton.mp hl]
      exact Nat.lt_succ_self _
  distinct l hl l' hl' hid := by
    rcases mem_append.mp hl with hl | hl
    · rcases mem_append.mp hl' with hl' | hl'
      · exact h.distinct l hl l' hl' hid
      · rw [mem_singleton.mp hl'] at hid
        exact absurd hid (Nat.ne_of_lt (h.below l hl))
    · rcases mem_append.mp hl' with hl' | hl'
      · rw [mem_singleton.mp hl] at hid
        exact absurd hid.symm (Nat.ne_of_lt (h.below l' hl'))
      · rw [mem_singleton.mp hl, mem_singleton.mp hl']
  indexed j e hj := by
    rw [mem_keysOf_run]
    have hget : (c.entries.set k _).get j = some e := hj
    rw [Record.get_set] at hget
    split_ifs at hget with hjk
    · rw [← some.inj hget]
      exact .inr ⟨hjk.symm, rfl⟩
    · exact .inl (h.indexed j e hget)
  pending j e hj hstatus := by
    have hget : (c.entries.set k _).get j = some e := hj
    rw [Record.get_set] at hget
    split_ifs at hget with hjk
    · rw [← some.inj hget]
      exact ⟨_, mem_append_right _ mem_cons_self, rfl, hjk, rfl⟩
    · obtain ⟨l, hl, hrest⟩ := h.pending j e hget hstatus
      exact ⟨l, mem_append_left _ hl, hrest⟩
  promised j e hj hp := by
    have hget : (c.entries.set k _).get j = some e := hj
    rw [Record.get_set] at hget
    split_ifs at hget with hjk
    · rw [← some.inj hget]
    · exact h.promised j e hget hp
  ready j e hj hstatus := by
    have hget : (c.entries.set k _).get j = some e := hj
    rw [Record.get_set] at hget
    split_ifs at hget with hjk
    · rw [← some.inj hget] at hstatus
      cases hstatus
    · exact h.ready j e hget hstatus
  reads l hl a ha e he hp := by
    rcases mem_append.mp hl with hl | hl
    · have hget : (c.entries.set k _).get l.key = some e := he
      rw [Record.get_set] at hget
      split_ifs at hget with hjk
      · -- the entry waits for the new load, and not for this one
        rw [← some.inj hget] at hp
        exact absurd (some.inj hp).symm (Nat.ne_of_lt (h.below l hl))
      · exact h.reads l hl a ha e hget hp
    · rw [mem_singleton.mp hl] at ha
      cases ha

/-- **A query is asked.** -/
theorem request (h : Fresh tag answer owed c) (q : δ) (k : κ) (bypass : Bool) :
    Fresh tag answer owed (c.request tag q k bypass) := by
  rw [Cache.request]
  cases c.entries.get k with
  | none => exact h.run q k
  | some e =>
    dsimp only
    split_ifs
    · exact h
    · exact h
    · exact h.run q k

/-- **A load reads** what the store answers, or fails. -/
theorem read (h : Fresh tag answer owed c) (i : ℕ) {f : δ → Option ρ}
    (hf : ∀ q a, f q = some a → answer q = some a) : Fresh tag answer owed (c.read i f) := by
  have hload : ∀ {l}, l ∈ (c.read i f).loads → ∃ l₀ ∈ c.loads, l₀.id = l.id ∧ l₀.key = l.key ∧
      l₀.query = l.query ∧ (l.result = l₀.result ∨ l.result = some (f l.query)) := by
    intro l hl
    obtain ⟨l₀, hl₀, rfl⟩ := mem_map.mp hl
    refine ⟨l₀, hl₀, ?_⟩
    split_ifs
    · exact ⟨rfl, rfl, rfl, .inr rfl⟩
    · exact ⟨rfl, rfl, rfl, .inl rfl⟩
  exact {
    below := fun l hl => by
      obtain ⟨l₀, hl₀, hid, -⟩ := hload hl
      rw [← hid]
      exact h.below l₀ hl₀
    distinct := fun l hl l' hl' hid => by
      obtain ⟨l₀, hl₀, rfl⟩ := mem_map.mp hl
      obtain ⟨l₁, hl₁, rfl⟩ := mem_map.mp hl'
      have hsame : l₀ = l₁ := by
        refine h.distinct l₀ hl₀ l₁ hl₁ ?_
        split_ifs at hid <;> exact hid
      rw [hsame]
    indexed := h.indexed
    pending := fun k e hk hstatus => by
      obtain ⟨l, hl, hp, hkey, hquery⟩ := h.pending k e hk hstatus
      refine ⟨_, mem_map_of_mem hl, ?_⟩
      split_ifs
      · exact ⟨hp, hkey, hquery⟩
      · exact ⟨hp, hkey, hquery⟩
    promised := h.promised
    ready := h.ready
    reads := fun l hl a ha e he hp => by
      obtain ⟨l₀, hl₀, hid, hkey, hquery, hresult⟩ := hload hl
      rw [← hkey] at he
      rw [← hid] at hp
      rw [← hquery]
      rcases hresult with hresult | hresult
      · exact h.reads l₀ hl₀ a (hresult.symm.trans ha) e he hp
      · rw [ha, some_inj, ← hquery] at hresult
        exact .inr (hf _ _ hresult.symm) }

/-- **What a load has read arrives.** -/
theorem settle (h : Fresh tag answer owed c) (i : ℕ) : Fresh tag answer owed (c.settle i) := by
  rw [Cache.settle]
  cases hfind : c.loads.find? fun l => decide (l.id = i) with
  | none => exact h
  | some l =>
    have hmem : l ∈ c.loads := mem_of_find?_eq_some hfind
    have hid : l.id = i := by simpa using List.find?_some hfind
    dsimp only
    cases hresult : l.result with
    | none => exact h
    | some r =>
      dsimp only
      have hloads : ∀ {l' : Load κ δ ρ}, l' ∈ c.loads.filter (fun l => decide (l.id ≠ i)) ↔
          l' ∈ c.loads ∧ l'.id ≠ i := by
        intro l'
        rw [mem_filter, decide_eq_true_eq]
      -- an entry that waits for another load goes on to wait for it
      have hrest : (∀ e, c.entries.get l.key = some e → e.promise ≠ some i) →
          Fresh tag answer owed { c with loads := c.loads.filter fun l => decide (l.id ≠ i) } :=
        fun hnot => {
          below := fun l' hl' => h.below l' (hloads.mp hl').1
          distinct := fun l' hl' l'' hl'' => h.distinct l' (hloads.mp hl').1 l'' (hloads.mp hl'').1
          indexed := h.indexed
          pending := fun k e hk hstatus => by
            obtain ⟨l', hl', hp, hkey, hquery⟩ := h.pending k e hk hstatus
            refine ⟨l', hloads.mpr ⟨hl', fun heq => ?_⟩, hp, hkey, hquery⟩
            obtain rfl := h.distinct l' hl' l hmem (heq.trans hid.symm)
            exact hnot e (hkey ▸ hk) (hp.trans (congrArg some heq))
          promised := h.promised
          ready := h.ready
          reads := fun l' hl' => h.reads l' (hloads.mp hl').1 }
      cases he : c.entries.get l.key with
      | none => exact hrest fun e he' => by rw [he] at he'; cases he'
      | some e =>
        dsimp only
        split_ifs with hp
        · have hquery : l.query = e.query := h.query_of_promise hmem he (by rw [hp, hid])
          have hget : ∀ k e', (c.entries.set l.key (settled e l.query r)).get k = some e' →
              l.key = k ∧ e' = settled e l.query r ∨ l.key ≠ k ∧ c.entries.get k = some e' := by
            intro k e' hk
            rw [Record.get_set] at hk
            split_ifs at hk with hkey
            · exact .inl ⟨hkey, (some.inj hk).symm⟩
            · exact .inr ⟨hkey, hk⟩
          have hsettled : (settled e l.query r).query = l.query ∧
              (settled e l.query r).status ≠ .pending ∧ (settled e l.query r).promise = none := by
            cases r with
            | none => exact ⟨rfl, by rintro ⟨⟩, rfl⟩
            | some a => exact ⟨rfl, by rintro ⟨⟩, rfl⟩
          exact {
            below := fun l' hl' => h.below l' (hloads.mp hl').1
            distinct := fun l' hl' l'' hl'' =>
              h.distinct l' (hloads.mp hl').1 l'' (hloads.mp hl'').1
            indexed := fun k e' hk => by
              rcases hget k e' hk with ⟨rfl, rfl⟩ | ⟨-, hk⟩
              · rw [hsettled.1, hquery]
                exact h.indexed l.key e he
              · exact h.indexed k e' hk
            pending := fun k e' hk hstatus => by
              rcases hget k e' hk with ⟨rfl, rfl⟩ | ⟨hkey, hk⟩
              · exact absurd hstatus hsettled.2.1
              · obtain ⟨l', hl', hp', hkey', hquery'⟩ := h.pending k e' hk hstatus
                refine ⟨l', hloads.mpr ⟨hl', fun heq => hkey ?_⟩, hp', hkey', hquery'⟩
                rw [← hkey', h.distinct l' hl' l hmem (heq.trans hid.symm)]
            promised := fun k e' hk hp' => by
              rcases hget k e' hk with ⟨rfl, rfl⟩ | ⟨-, hk⟩
              · exact absurd hsettled.2.2 hp'
              · exact h.promised k e' hk hp'
            ready := fun k e' hk hstatus => by
              rcases hget k e' hk with ⟨rfl, rfl⟩ | ⟨-, hk⟩
              · cases r with
                | none => cases hstatus
                | some a =>
                  exact (h.reads l hmem a hresult e he (by rw [hp, hid])).imp_right
                    fun hanswer => ⟨a, rfl, hanswer⟩
              · exact h.ready k e' hk hstatus
            reads := fun l' hl' a ha e' he' hp' => by
              rcases hget l'.key e' he' with ⟨-, rfl⟩ | ⟨-, he'⟩
              · rw [hsettled.2.2] at hp'
                cases hp'
              · exact h.reads l' (hloads.mp hl').1 a ha e' he' hp' }
        · refine hrest fun e' he' hp' => hp ?_
          rw [some.inj (he.symm.trans he')]
          exact hp'

/-! ## Being told of a tag -/

/-- The entry of a key waits for a load that has not read. -/
def Anew (c : Cache κ τ δ ρ) (k : κ) : Prop :=
  ∀ e, c.entries.get k = some e → e.status = .pending ∧
    ∀ l ∈ c.loads, e.promise = some l.id → l.result = none

/-- What the keys' loads anew change, and what they do not. -/
structure Reran (tag : δ → τ) (c c' : Cache κ τ δ ρ) (keys : List κ) : Prop where
  query : ∀ k e', c'.entries.get k = some e' → ∃ e, c.entries.get k = some e ∧ e'.query = e.query
  anew : ∀ k ∈ keys, Anew c' k

/-- A key is loaded anew, and what was anew stays so. -/
theorem anew_rerun (h : Fresh tag answer owed c) (k : κ) :
    Fresh tag answer owed (c.rerun tag k) ∧ Anew (c.rerun tag k) k ∧
      (∀ j, Anew c j → Anew (c.rerun tag k) j) ∧
      ∀ j e', (c.rerun tag k).entries.get j = some e' →
        ∃ e, c.entries.get j = some e ∧ e'.query = e.query := by
  rw [rerun]
  cases he : c.entries.get k with
  | none =>
    refine ⟨h, fun e hk => ?_, fun j hj => hj, fun j e' hj => ⟨e', hj, rfl⟩⟩
    rw [he] at hk
    cases hk
  | some e =>
    dsimp only
    have hnew : Anew (c.run tag e.query k) k := by
      intro e' hk
      have hget : (c.entries.set k _).get k = some e' := hk
      rw [Record.get_set_self] at hget
      rw [← some.inj hget]
      refine ⟨rfl, fun l hl hp => ?_⟩
      rcases mem_append.mp hl with hl | hl
      · exact absurd (some.inj hp).symm (Nat.ne_of_lt (h.below l hl))
      · rw [mem_singleton.mp hl]
    refine ⟨h.run e.query k, hnew, fun j hj => ?_, fun j e' hj => ?_⟩
    · by_cases hkj : k = j
      · exact hkj ▸ hnew
      · intro e' hk
        have hget : (c.entries.set k _).get j = some e' := hk
        rw [Record.get_set_ne _ _ hkj] at hget
        obtain ⟨hstatus, hunread⟩ := hj e' hget
        refine ⟨hstatus, fun l hl hp => ?_⟩
        rcases mem_append.mp hl with hl | hl
        · exact hunread l hl hp
        · rw [mem_singleton.mp hl]
    · have hget : (c.entries.set k _).get j = some e' := hj
      rw [Record.get_set] at hget
      split_ifs at hget with hkj
      · rw [← some.inj hget]
        exact ⟨e, hkj ▸ he, rfl⟩
      · exact ⟨e', hget, rfl⟩

theorem reran (h : Fresh tag answer owed c) (keys : List κ) :
    Fresh tag answer owed (keys.foldl (rerun tag) c) ∧
      Reran tag c (keys.foldl (rerun tag) c) keys ∧
      ∀ j, Anew c j → Anew (keys.foldl (rerun tag) c) j := by
  induction keys generalizing c with
  | nil =>
    exact ⟨h, ⟨fun k e hk => ⟨e, hk, rfl⟩, fun k hk => absurd hk not_mem_nil⟩, fun j hj => hj⟩
  | cons k keys ih =>
    obtain ⟨hfresh, hnew, hstays, hquery⟩ := h.anew_rerun k
    obtain ⟨hfresh', hreran, hstays'⟩ := ih hfresh
    rw [foldl_cons]
    refine ⟨hfresh', ⟨fun j e' hj => ?_, fun j hj => ?_⟩, fun j hj => hstays' j (hstays j hj)⟩
    · obtain ⟨e, he, heq⟩ := hreran.query j e' hj
      obtain ⟨e₀, he₀, heq₀⟩ := hquery j e he
      exact ⟨e₀, he₀, heq.trans heq₀⟩
    · rcases mem_cons.mp hj with rfl | hj
      · exact hstays' j hnew
      · exact hreran.anew j hj

/-- **The cache is told of a tag**, of which no word is owed any more. -/
theorem invalidate (h : Fresh tag answer owed c) (t : τ) :
    Fresh tag answer (fun t' => owed t' ∧ t' ≠ t) (c.invalidate tag t) := by
  obtain ⟨hfresh, hreran, -⟩ := h.reran (c.keysOf t)
  rw [Cache.invalidate]
  -- an entry of the tag stands under one of its keys, and so it was started anew
  have hanew : ∀ k e, ((c.keysOf t).foldl (rerun tag) c).entries.get k = some e →
      tag e.query = t → Anew ((c.keysOf t).foldl (rerun tag) c) k := by
    intro k e hk ht
    obtain ⟨e₀, he₀, heq⟩ := hreran.query k e hk
    refine hreran.anew k ?_
    rw [← ht, heq]
    exact h.indexed k e₀ he₀
  exact { hfresh with
    ready := fun k e hk hstatus => by
      rcases hfresh.ready k e hk hstatus with howed | hanswer
      · refine .inl ⟨howed, fun ht => ?_⟩
        rw [((hanew k e hk ht) e hk).1] at hstatus
        cases hstatus
      · exact .inr hanswer
    reads := fun l hl a ha e he hp => by
      rcases hfresh.reads l hl a ha e he hp with howed | hanswer
      · refine .inl ⟨howed, fun ht => ?_⟩
        have hquery := hfresh.query_of_promise hl he hp
        have hunread := ((hanew l.key e he (hquery ▸ ht)) e he).2 l hl hp
        rw [hunread] at ha
        cases ha
      · exact .inr hanswer }

theorem invalidateAll (h : Fresh tag answer owed c) (tags : List τ) :
    Fresh tag answer (fun t => owed t ∧ t ∉ tags) (tags.foldl (Cache.invalidate tag) c) := by
  induction tags generalizing c owed with
  | nil => exact h.mono fun k e _ ht => ⟨ht, not_mem_nil⟩
  | cons t tags ih =>
    refine (ih (h.invalidate t)).mono fun k e _ ht' => ⟨ht'.1.1, ?_⟩
    rw [mem_cons, not_or]
    exact ⟨ht'.1.2, ht'.2⟩

/-- **At rest, what is shown is what the store answers.** -/
theorem of_resting (h : Fresh tag answer owed c) (howed : ∀ t, ¬ owed t) {k : κ} {e : Entry δ ρ}
    (hk : c.entries.get k = some e) (hready : e.status = .ready) :
    ∃ a, e.answer = some a ∧ answer e.query = some a :=
  (h.ready k e hk hready).resolve_left (howed _)

end Fresh

end Cache

end LoadCache
