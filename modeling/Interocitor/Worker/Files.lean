import Interocitor.Worker.Semantic

/-!
# `worker.ts`, `ops.ts`: the files of one mount

A mount is a table of files by path, and in every data centre a cache of manifest snapshots,
the one kind of object that is never deleted on its own.  Requests come one after the other,
each through some data centre.

How a `PUT` writes depends on what the path is for.  The pointer, the head and the heartbeats
of devices are overwritten.  All other objects are inserted *if there is none*, and the request
succeeds in either case; the status tells the two cases apart, and no client looks at it.  So a
successful `PUT` need not have stored anything, and what it has stored need not be what a cache
has.

* `readsBack_iff_stores`: a successful `PUT` can be read back exactly if it stores.
-/

namespace Interocitor.Worker

open CodeUnits OrderedRecord Function

/-! ## The mount -/

/-- The size limits of `ResolvedRuntimeConfig`. -/
structure Limits where
  maxControlBytes : ℕ
  maxChangeBytes : ℕ
  maxMainlineBytes : ℕ
  maxGenericFileBytes : ℕ

/-- `fileSizeLimitForPathType`. -/
def fileSizeLimitForPathType (limits : Limits) : PathType → ℕ
  | .manifestPointer => limits.maxControlBytes
  | .manifestSnapshot => limits.maxControlBytes
  | .head => limits.maxControlBytes
  | .deviceHeartbeat => limits.maxControlBytes
  | .changeFile => limits.maxChangeBytes
  | .mainlineSnapshot => limits.maxMainlineBytes
  | .evictionRecord => limits.maxGenericFileBytes
  | .other => limits.maxGenericFileBytes

/-- What a worker runs with. -/
structure Runtime where
  reading : Reading
  limits : Limits

/-- The files of a mount, and the cached ones at each data centre. -/
structure Mount (Colo : Type) where
  files : Record Path Bytes
  cache : Colo → Record Path Bytes

/-- A request, and the data centre it comes through.  The body of a `PUT` may fail to arrive;
a `GET` of an eviction record finds what `readEvictionRecord` makes of the tables then.  The
last is no request: a cache drops an entry when it likes. -/
inductive Request (Colo : Type) where
  | put (colo : Colo) (path : Path) (body : Option Bytes)
  | get (colo : Colo) (path : Path) (record : Option Bytes)
  | delete (colo : Colo) (path : Path)
  | forget (colo : Colo) (path : Path)

/-- The status of a response and its body. -/
structure Response where
  status : ℕ
  body : Option Bytes
  deriving DecidableEq

/-- `status >= 200 && status < 300`. -/
def Response.ok (r : Response) : Bool := decide (200 ≤ r.status ∧ r.status < 300)

/-- `isCacheableImmutablePathType`. -/
def isCacheableImmutablePathType (pathType : PathType) : Bool :=
  decide (pathType = .manifestSnapshot)

/-- `"\uFFFF"`. -/
def lastUnit : Char := Char.ofNat 0xFFFF

/-- The paths that a `DELETE` selects: all, or the path and a range of paths after it. -/
def selected (path candidate : Path) : Bool :=
  decide (path = ['/']) ||
    decide (candidate = path ∨
      path ++ ['/'] ≤ candidate ∧ candidate < path ++ ['/'] ++ [lastUnit])

namespace Mount

variable {Colo : Type} [DecidableEq Colo]

/-- `cachePut`. -/
def cachePut (m : Mount Colo) (colo : Colo) (path : Path) (bytes : Bytes) : Mount Colo :=
  { m with cache := update m.cache colo ((m.cache colo).set path bytes) }

/-- `cacheDelete`, of some paths. -/
def cacheDelete (m : Mount Colo) (colo : Colo) (drop : Path → Bool) : Mount Colo :=
  { m with cache := update m.cache colo ((m.cache colo).filter fun p _ => !drop p) }

/-- `opPutImmutable`. -/
def opPutImmutable (m : Mount Colo) (colo : Colo) (path : Path) (bytes : Bytes)
    (pathType : PathType) : Response × Mount Colo :=
  match m.files.get path with
  | some _ => (⟨200, none⟩, m)
  | none =>
    let stored : Mount Colo := { m with files := m.files.set path bytes }
    (⟨201, none⟩,
      if isCacheableImmutablePathType pathType then stored.cachePut colo path bytes else stored)

/-- `opPutSemantic`. -/
def opPutSemantic (run : Runtime) (m : Mount Colo) (path : Path) (bytes : Bytes)
    (pathType : PathType) : Response × Mount Colo :=
  if (m.files.get path).any fun existing => run.reading.stale pathType existing bytes then
    (⟨409, none⟩, m)
  else (⟨204, none⟩, { m with files := m.files.set path bytes })

/-- `opPutOverwrite`. -/
def opPutOverwrite (m : Mount Colo) (path : Path) (bytes : Bytes) : Response × Mount Colo :=
  (⟨204, none⟩, { m with files := m.files.set path bytes })

/-- `handleWriteFile`. -/
def handleWriteFile (run : Runtime) (m : Mount Colo) (colo : Colo) (path : Path) :
    Option Bytes → Response × Mount Colo
  | none => (⟨400, none⟩, m)
  | some bytes =>
    let pathType := classifyPath path
    if pathType = .evictionRecord then (⟨405, none⟩, m)
    else if fileSizeLimitForPathType run.limits pathType < bytes.length then (⟨413, none⟩, m)
    else if pathType = .manifestPointer ∨ pathType = .head then
      m.opPutSemantic run path bytes pathType
    else if pathType = .deviceHeartbeat then m.opPutOverwrite path bytes
    else m.opPutImmutable colo path bytes pathType

/-- `opGetFile`: the bytes found, and the mount after it. -/
def opGetFile (m : Mount Colo) (colo : Colo) (path : Path) (pathType : PathType) :
    Option Bytes × Mount Colo :=
  if isCacheableImmutablePathType pathType then
    match (m.cache colo).get path with
    | some bytes => (some bytes, m)
    | none =>
      match m.files.get path with
      | some bytes => (some bytes, m.cachePut colo path bytes)
      | none => (none, m)
  else (m.files.get path, m)

/-- `handleGetFile`. -/
def handleGetFile (m : Mount Colo) (colo : Colo) (path : Path) (record : Option Bytes) :
    Response × Mount Colo :=
  match if classifyPath path = .evictionRecord then record else none with
  | some bytes => (⟨200, some bytes⟩, m)
  | none =>
    match m.opGetFile colo path (classifyPath path) with
    | (some bytes, m') => (⟨200, some bytes⟩, m')
    | (none, m') => (⟨404, none⟩, m')

/-- `opDeletePath`: whether it deleted something, and the mount after it. -/
def opDeletePath (m : Mount Colo) (colo : Colo) (path : Path) : Bool × Mount Colo :=
  let deletedFiles := m.files.keys.filter (selected path)
  if path ≠ ['/'] ∧ deletedFiles = [] then (false, m)
  else
    (true, Mount.cacheDelete { m with files := m.files.filter fun p _ => !selected path p } colo
      fun p => decide (p ∈ deletedFiles))

/-- `handleDelete`. -/
def handleDelete (m : Mount Colo) (colo : Colo) (path : Path) : Response × Mount Colo :=
  if classifyPath path = .evictionRecord then (⟨405, none⟩, m)
  else if (m.opDeletePath colo path).1 then (⟨204, none⟩, (m.opDeletePath colo path).2)
  else (⟨404, none⟩, (m.opDeletePath colo path).2)

/-- The answer to a request, and the mount after it. -/
def handle (run : Runtime) (m : Mount Colo) : Request Colo → Response × Mount Colo
  | .put colo path body => m.handleWriteFile run colo (normalizePath path) body
  | .get colo path record => m.handleGetFile colo (normalizePath path) record
  | .delete colo path => m.handleDelete colo (normalizePath path)
  | .forget colo path => (⟨200, none⟩, m.cacheDelete colo fun p => decide (p = path))

/-- The mount after some requests. -/
def after (run : Runtime) (m : Mount Colo) (requests : List (Request Colo)) : Mount Colo :=
  requests.foldl (fun m r => (m.handle run r).2) m

end Mount

/-! ## Reading back -/

/-- A path, or a folder that it lies in. -/
def Covers (path target : Path) : Prop :=
  path = ['/'] ∨ target = path ∨ path ++ ['/'] <+: target

/-- A request that was answered like this puts other bytes at a path, or deletes it. -/
def Replaces {Colo : Type} (path : Path) (answer : Response) : Request Colo → Prop
  | .put _ target _ => normalizePath target = path ∧ answer.ok = true
  | .delete _ target => Covers (normalizePath target) path ∧ answer.ok = true
  | .get _ _ _ => False
  | .forget _ _ => False

/-- What lies between two texts of which the second is one character longer starts with the
first. -/
theorem starts_of_between {α : Type} [LinearOrder α] {s t : List α} {c : α} (h : s ≤ t)
    (h' : t < s ++ [c]) : s <+: t := by
  induction s generalizing t with
  | nil => exact List.nil_prefix
  | cons a s ih =>
    have hnot : ¬ t < a :: s := not_lt.mpr h
    cases t with
    | nil => exact absurd (List.nil_lt_cons a s) hnot
    | cons b t =>
      rw [List.cons_lt_cons_iff, not_or, not_and] at hnot
      rw [List.cons_append, List.cons_lt_cons_iff] at h'
      rcases h' with hba | ⟨rfl, hts⟩
      · exact absurd hba hnot.1
      · exact (List.prefix_cons_inj b).mpr (ih (not_lt.mp (hnot.2 rfl)) hts)

theorem covers_of_selected {path candidate : Path} (h : selected path candidate = true) :
    Covers path candidate := by
  rw [selected, Bool.or_eq_true, decide_eq_true_eq, decide_eq_true_eq] at h
  rcases h with h | h | ⟨hle, hlt⟩
  · exact .inl h
  · exact .inr (.inl h)
  · exact .inr (.inr (starts_of_between hle hlt))

namespace Mount

variable {Colo : Type} [DecidableEq Colo] {run : Runtime} {m : Mount Colo} {path : Path}
  {bytes : Bytes}

/-- No request of these replaces or deletes what is at a path. -/
def Undisturbed (run : Runtime) (path : Path) : Mount Colo → List (Request Colo) → Prop
  | _, [] => True
  | m, r :: rest =>
    ¬ Replaces path (m.handle run r).1 r ∧ Undisturbed run path (m.handle run r).2 rest

/-- Every `GET` of a path, up to the next request that replaces or deletes it, returns these
bytes. -/
def ReadsBack (run : Runtime) (m : Mount Colo) (path : Path) (bytes : Bytes) : Prop :=
  ∀ requests, Undisturbed run path m requests → ∀ colo target record, normalizePath target = path →
    ((m.after run requests).handle run (.get colo target record)).1 = ⟨200, some bytes⟩

/-- The table has the bytes, and no cache that is asked has other ones. -/
structure Shows (m : Mount Colo) (path : Path) (bytes : Bytes) : Prop where
  file : m.files.get path = some bytes
  cached : classifyPath path = .manifestSnapshot →
    ∀ colo, (m.cache colo).get path = none ∨ (m.cache colo).get path = some bytes

/-- Before a `PUT`: its bytes are going to be stored, and no cache that is asked is going to
have other ones. -/
def Stores (m : Mount Colo) (colo : Colo) (path : Path) (bytes : Bytes) : Prop :=
  match classifyPath path with
  | .manifestPointer => True
  | .head => True
  | .deviceHeartbeat => True
  | .manifestSnapshot =>
    (m.files.get path = none ∨ m.files.get path = some bytes) ∧
      ∀ k, k = colo ∧ m.files.get path = none ∨
        (m.cache k).get path = none ∨ (m.cache k).get path = some bytes
  | _ => m.files.get path = none ∨ m.files.get path = some bytes

/-! ## What a request does to one path -/

theorem get_cachePut (m : Mount Colo) (colo k : Colo) (target path : Path) (bytes : Bytes) :
    ((m.cachePut colo target bytes).cache k).get path =
      if k = colo ∧ target = path then some bytes else (m.cache k).get path := by
  by_cases hk : k = colo
  · subst hk
    simp only [cachePut, update_self, Record.get_set, true_and]
  · simp only [cachePut, update_of_ne hk, hk, false_and, if_false]

theorem get_cacheDelete (m : Mount Colo) (colo k : Colo) (drop : Path → Bool) (path : Path) :
    ((m.cacheDelete colo drop).cache k).get path =
      if k = colo ∧ drop path = true then none else (m.cache k).get path := by
  by_cases hk : k = colo
  · subst hk
    simp only [cacheDelete, update_self, Record.get_filter]
    cases hp : drop path <;> cases (m.cache k).get path <;> simp [Option.filter]
  · simp only [cacheDelete, update_of_ne hk, hk, false_and, if_false]

theorem Shows.cacheDelete (h : m.Shows path bytes) (colo : Colo) (drop : Path → Bool) :
    (m.cacheDelete colo drop).Shows path bytes where
  file := h.file
  cached hT k := by
    rw [get_cacheDelete]
    split_ifs with hk
    · exact .inl rfl
    · exact h.cached hT k

/-- The mount looks the same at a path. -/
structure SameAt (path : Path) (m m' : Mount Colo) : Prop where
  file : m'.files.get path = m.files.get path
  cache : ∀ colo, (m'.cache colo).get path = (m.cache colo).get path

omit [DecidableEq Colo] in
theorem SameAt.rfl (path : Path) (m : Mount Colo) :
    SameAt path m m := ⟨Eq.refl _, fun _ => Eq.refl _⟩

omit [DecidableEq Colo] in
theorem SameAt.shows {m' : Mount Colo} (h : SameAt path m m') (hs : m.Shows path bytes) :
    m'.Shows path bytes := by
  refine ⟨h.file.trans hs.file, fun hT colo => ?_⟩
  rw [h.cache]
  exact hs.cached hT colo

variable {target : Path}

omit [DecidableEq Colo] in
theorem sameAt_set (h : target ≠ path) (b : Bytes) :
    SameAt path m { m with files := m.files.set target b } :=
  ⟨Record.get_set_ne _ _ h, fun _ => Eq.refl _⟩

theorem sameAt_cachePut (h : target ≠ path) (colo : Colo) (b : Bytes) :
    SameAt path m (m.cachePut colo target b) where
  file := Eq.refl _
  cache k := by rw [get_cachePut, if_neg fun hk => h hk.2]

omit [DecidableEq Colo] in
theorem SameAt.trans {m₁ m₂ : Mount Colo} (h : SameAt path m m₁) (h' : SameAt path m₁ m₂) :
    SameAt path m m₂ :=
  ⟨h'.file.trans h.file, fun colo => (h'.cache colo).trans (h.cache colo)⟩

/-- What a `PUT` may do: nothing, and then it is refused or there is a file already; overwrite;
or insert. -/
theorem handleWriteFile_cases (run : Runtime) (m : Mount Colo) (colo : Colo) (target : Path)
    (body : Option Bytes) :
    ((m.handleWriteFile run colo target body).1.ok = false ∧
      (m.handleWriteFile run colo target body).2 = m) ∨
    ∃ b, body = some b ∧ classifyPath target ≠ .evictionRecord ∧
      (m.handleWriteFile run colo target body).1.ok = true ∧
      (((classifyPath target = .manifestPointer ∨ classifyPath target = .head ∨
          classifyPath target = .deviceHeartbeat) ∧
        (m.handleWriteFile run colo target body).2 = { m with files := m.files.set target b }) ∨
      (¬ (classifyPath target = .manifestPointer ∨ classifyPath target = .head ∨
          classifyPath target = .deviceHeartbeat) ∧
        (m.handleWriteFile run colo target body).2 =
          (m.opPutImmutable colo target b (classifyPath target)).2)) := by
  cases body with
  | none => exact .inl ⟨rfl, rfl⟩
  | some b =>
    simp only [handleWriteFile]
    split_ifs with hevict hsize hsem hbeat
    · exact .inl ⟨rfl, rfl⟩
    · exact .inl ⟨rfl, rfl⟩
    · rw [opPutSemantic]
      split_ifs with hstale
      · exact .inl ⟨rfl, rfl⟩
      · exact .inr ⟨b, rfl, hevict, rfl, .inl ⟨by tauto, rfl⟩⟩
    · exact .inr ⟨b, rfl, hevict, rfl, .inl ⟨by tauto, rfl⟩⟩
    · refine .inr ⟨b, rfl, hevict, ?_, .inr ⟨by tauto, rfl⟩⟩
      cases hrow : m.files.get target with
      | none => simp only [opPutImmutable, hrow]; rfl
      | some x => simp only [opPutImmutable, hrow]; rfl

theorem sameAt_opPutImmutable (h : target ≠ path) (colo : Colo) (b : Bytes) (pathType : PathType) :
    SameAt path m (m.opPutImmutable colo target b pathType).2 := by
  cases hrow : m.files.get target with
  | some x => simpa only [opPutImmutable, hrow] using SameAt.rfl path m
  | none =>
    simp only [opPutImmutable, hrow]
    split_ifs with hT
    · exact (sameAt_set h b).trans (sameAt_cachePut h colo b)
    · exact sameAt_set h b

variable {colo : Colo}

/-- A `PUT` that is refused, or goes to another path, leaves a path as it is. -/
theorem sameAt_handleWriteFile {body : Option Bytes}
    (h : ¬ (target = path ∧ (m.handleWriteFile run colo target body).1.ok = true)) :
    SameAt path m (m.handleWriteFile run colo target body).2 := by
  rcases m.handleWriteFile_cases run colo target body with ⟨-, hm⟩ | ⟨b, -, -, hok, hput⟩
  · rw [hm]
    exact SameAt.rfl path m
  · have hne : target ≠ path := fun heq => h ⟨heq, hok⟩
    rcases hput with ⟨-, hm⟩ | ⟨-, hm⟩
    · rw [hm]
      exact sameAt_set hne b
    · rw [hm]
      exact sameAt_opPutImmutable hne colo b _

theorem Shows.handleGetFile (h : m.Shows path bytes) (hT : classifyPath path ≠ .evictionRecord)
    (colo : Colo) (record : Option Bytes) :
    (m.handleGetFile colo path record).1 = ⟨200, some bytes⟩ ∧
      (m.handleGetFile colo path record).2.Shows path bytes := by
  rw [Mount.handleGetFile, if_neg hT]
  by_cases hsnap : classifyPath path = .manifestSnapshot
  · have hyes : isCacheableImmutablePathType (classifyPath path) = true := decide_eq_true hsnap
    rcases h.cached hsnap colo with hc | hc
    · simp only [opGetFile, hyes, if_true, hc, h.file, true_and]
      refine ⟨h.file, fun _ k => ?_⟩
      rw [get_cachePut]
      split_ifs with hk
      · exact .inr rfl
      · exact h.cached hsnap k
    · simp only [opGetFile, hyes, if_true, hc, true_and]
      exact h
  · have hno : isCacheableImmutablePathType (classifyPath path) = false := decide_eq_false hsnap
    simp only [opGetFile, hno, Bool.false_eq_true, if_false, h.file, true_and]
    exact h

theorem sameAt_handleGetFile (h : target ≠ path) (colo : Colo) (record : Option Bytes) :
    SameAt path m (m.handleGetFile colo target record).2 := by
  rw [Mount.handleGetFile]
  split
  · exact SameAt.rfl path m
  · rw [opGetFile]
    split_ifs
    · cases hc : (m.cache colo).get target with
      | some x => exact SameAt.rfl path m
      | none =>
        cases hrow : m.files.get target with
        | none => exact SameAt.rfl path m
        | some x => exact sameAt_cachePut h colo x
    · cases hrow : m.files.get target with
      | none => exact SameAt.rfl path m
      | some x => exact SameAt.rfl path m

/-- A `DELETE` that fails, or does not cover a path, leaves it shown. -/
theorem Shows.handleDelete (h : m.Shows path bytes)
    (hr : ¬ (Covers target path ∧ (m.handleDelete colo target).1.ok = true)) :
    (m.handleDelete colo target).2.Shows path bytes := by
  rw [Mount.handleDelete] at hr ⊢
  split_ifs at hr ⊢ with hevict hdel
  · exact h
  · have hsel : selected target path = false := by
      by_contra hne
      exact hr ⟨covers_of_selected (by simpa using hne), rfl⟩
    simp only [opDeletePath]
    split_ifs with hnone
    · exact h
    · have hfiles : Shows { m with files := m.files.filter fun p _ => !selected target p } path
          bytes := by
        refine ⟨?_, h.cached⟩
        simp only [Record.get_filter, h.file, Option.filter_some, hsel, Bool.not_false, if_true]
      exact hfiles.cacheDelete colo _
  · simp only [opDeletePath] at hdel ⊢
    split_ifs at hdel ⊢ with hnone
    · exact h
    · simp at hdel

/-- **A request keeps a path as it shows, unless it replaces or deletes it.** -/
theorem Shows.handle (h : m.Shows path bytes) (hT : classifyPath path ≠ .evictionRecord)
    {r : Request Colo} (hr : ¬ Replaces path (m.handle run r).1 r) :
    (m.handle run r).2.Shows path bytes := by
  cases r with
  | put colo target body => exact (sameAt_handleWriteFile hr).shows h
  | get colo target record =>
    by_cases heq : normalizePath target = path
    · subst heq
      exact (h.handleGetFile hT colo record).2
    · exact (sameAt_handleGetFile heq colo record).shows h
  | delete colo target => exact h.handleDelete hr
  | forget colo target => exact h.cacheDelete colo _

theorem Shows.after (h : m.Shows path bytes) (hT : classifyPath path ≠ .evictionRecord)
    {requests : List (Request Colo)} (hr : Undisturbed run path m requests) :
    (m.after run requests).Shows path bytes := by
  induction requests generalizing m with
  | nil => exact h
  | cons r rest ih => exact ih (h.handle hT hr.1) hr.2

theorem opGetFile_of_cold {pathType : PathType} (h : (m.cache colo).get path = none) :
    (m.opGetFile colo path pathType).1 = m.files.get path := by
  rw [opGetFile]
  split_ifs with hT
  · cases hrow : m.files.get path with
    | none => simp only [h]
    | some x => simp only [h]
  · rfl

theorem readsBack_iff_shows (hn : normalizePath target = path) (colo : Colo)
    (hT : classifyPath path ≠ .evictionRecord) :
    m.ReadsBack run path bytes ↔ m.Shows path bytes := by
  constructor
  · intro h
    -- a read through a data centre that has just dropped the path finds the table
    have hforget := h [.forget colo path] ⟨id, trivial⟩ colo target none hn
    have hread := fun k => h [] trivial k target none hn
    have hask : ∀ (m' : Mount Colo) k, ((m'.handle run (.get k target none)).1 = ⟨200, some bytes⟩) →
        (m'.opGetFile k path (classifyPath path)).1 = some bytes := by
      intro m' k hget
      rw [Mount.handle, hn, Mount.handleGetFile, ite_self] at hget
      dsimp only at hget
      cases hfound : m'.opGetFile k path (classifyPath path) with
      | mk found m'' =>
        rw [hfound] at hget
        cases found with
        | none => exact absurd hget (by simp)
        | some x => simpa using hget
    have hcold := hask (m.cacheDelete colo fun p => decide (p = path)) colo hforget
    have hnone : ((m.cacheDelete colo fun p => decide (p = path)).cache colo).get path = none := by
      rw [get_cacheDelete, if_pos ⟨rfl, decide_eq_true rfl⟩]
    rw [opGetFile_of_cold hnone] at hcold
    refine ⟨hcold, fun hsnap k => ?_⟩
    have hwarm := hask m k (hread k)
    have hyes : isCacheableImmutablePathType (classifyPath path) = true := decide_eq_true hsnap
    cases hc : (m.cache k).get path with
    | none => exact .inl rfl
    | some x =>
      simp only [opGetFile, hyes, if_true, hc] at hwarm
      exact .inr hwarm
  · intro h requests hr k target' record hn'
    have hget := ((h.after hT hr).handleGetFile hT k record).1
    rw [Mount.handle, hn']
    exact hget

/-! ## What a `PUT` leaves -/

omit [DecidableEq Colo] in
theorem shows_set (hT : classifyPath path ≠ .manifestSnapshot) :
    Shows { m with files := m.files.set path bytes } path bytes :=
  ⟨Record.get_set_self _ _ _, fun h => absurd h hT⟩

/-- After an insertion of a manifest snapshot, the data centre of the request has it in its
cache. -/
theorem shows_opPutImmutable_snapshot (hT : classifyPath path = .manifestSnapshot) :
    (m.opPutImmutable colo path bytes (classifyPath path)).2.Shows path bytes ↔
      (m.files.get path = none ∨ m.files.get path = some bytes) ∧
        ∀ k, k = colo ∧ m.files.get path = none ∨
          (m.cache k).get path = none ∨ (m.cache k).get path = some bytes := by
  have hyes : isCacheableImmutablePathType (classifyPath path) = true := decide_eq_true hT
  cases hrow : m.files.get path with
  | some x =>
    simp only [opPutImmutable, hrow, reduceCtorEq, false_or, and_false]
    constructor
    · intro h
      exact ⟨hrow.symm.trans h.file, h.cached hT⟩
    · intro h
      exact ⟨hrow.trans h.1, fun _ => h.2⟩
  | none =>
    simp only [opPutImmutable, hrow, hyes, if_true, true_or, true_and, and_true]
    constructor
    · intro h k
      have hk := h.cached hT k
      rw [get_cachePut] at hk
      by_cases heq : k = colo
      · exact .inl heq
      · rw [if_neg fun hand => heq hand.1] at hk
        exact .inr hk
    · intro h
      refine ⟨Record.get_set_self _ _ _, fun _ k => ?_⟩
      rw [get_cachePut]
      split_ifs with heq
      · exact .inr rfl
      · exact (h k).resolve_left fun hk => heq ⟨hk, rfl⟩

theorem shows_opPutImmutable (hT : classifyPath path ≠ .manifestSnapshot) :
    (m.opPutImmutable colo path bytes (classifyPath path)).2.Shows path bytes ↔
      m.files.get path = none ∨ m.files.get path = some bytes := by
  have hno : isCacheableImmutablePathType (classifyPath path) = false := decide_eq_false hT
  cases hrow : m.files.get path with
  | some x =>
    simp only [opPutImmutable, hrow, reduceCtorEq, false_or]
    exact ⟨fun h => hrow.symm.trans h.file, fun h => ⟨hrow.trans h, fun hT' => absurd hT' hT⟩⟩
  | none =>
    simp only [opPutImmutable, hrow, hno, Bool.false_eq_true, if_false, true_or, iff_true]
    exact shows_set hT

/-- What a successful `PUT` leaves shows its bytes exactly if it stores. -/
theorem shows_handleWriteFile_iff (hok : (m.handleWriteFile run colo path (some bytes)).1.ok =
      true) :
    (m.handleWriteFile run colo path (some bytes)).2.Shows path bytes ↔ m.Stores colo path bytes := by
  rcases m.handleWriteFile_cases run colo path (some bytes) with ⟨hno, -⟩ | ⟨b, hb, hevict, -, hput⟩
  · rw [hok] at hno
    exact absurd hno (by simp)
  · obtain rfl := Option.some.inj hb
    rcases hput with ⟨hT, hm⟩ | ⟨hT, hm⟩
    · rw [hm]
      have hshows : Shows { m with files := m.files.set path bytes } path bytes :=
        shows_set (by rcases hT with h | h | h <;> rw [h] <;> simp)
      rcases hT with h | h | h <;> simp only [Stores, h, iff_true] <;> exact hshows
    · rw [hm]
      by_cases hsnap : classifyPath path = .manifestSnapshot
      · rw [shows_opPutImmutable_snapshot hsnap, Stores, hsnap]
      · rw [shows_opPutImmutable hsnap, Stores]
        cases hcl : classifyPath path <;> simp_all

/-- **A successful `PUT` can be read back exactly if it stores.**  For every mount and every
`PUT` that is answered with a success: all later `GET`s of the path, whatever comes between up
to the next request that replaces or deletes it, return its bytes, if and only if the path is
one that is overwritten, or had no file, or had these bytes; and, for a manifest snapshot, no
data centre has other bytes of it in its cache --- except for the one that the request came
through, if there was no file. -/
theorem readsBack_iff_stores (run : Runtime) (m : Mount Colo) (colo : Colo) (target : Path)
    (bytes : Bytes) (hok : (m.handle run (.put colo target (some bytes))).1.ok = true) :
    (m.handle run (.put colo target (some bytes))).2.ReadsBack run (normalizePath target) bytes ↔
      m.Stores colo (normalizePath target) bytes := by
  have hevict : classifyPath (normalizePath target) ≠ .evictionRecord := by
    rcases m.handleWriteFile_cases run colo (normalizePath target) (some bytes) with
      ⟨hno, -⟩ | ⟨b, -, hevict, -⟩
    · rw [Mount.handle, hno] at hok
      exact absurd hok (by simp)
    · exact hevict
  exact (readsBack_iff_shows rfl colo hevict).trans (shows_handleWriteFile_iff hok)

end Mount

/-! ## A snapshot sent twice -/

/-- `"/m/mainline/s"`. -/
def snapshotPath : Path := ['/', 'm', '/'] ++ mainlineName ++ ['/', 's']

/-- A worker with room for all these objects. -/
def sampleRuntime : Runtime := ⟨sampleReading, ⟨100, 100, 100, 100⟩⟩

/-- A mount that one `PUT` of a mainline snapshot has reached. -/
def onceSent : Mount Unit :=
  (Mount.handle sampleRuntime ⟨∅, fun _ => ∅⟩ (.put () snapshotPath (some [1]))).2

/-- The snapshot is sent again, with other bytes.  The answer is a success, and a `GET` returns
the bytes of the first `PUT`. -/
theorem resent_snapshot_not_readsBack :
    (onceSent.handle sampleRuntime (.put () snapshotPath (some [2]))).1.ok = true ∧
    ((onceSent.handle sampleRuntime (.put () snapshotPath (some [2]))).2.handle sampleRuntime
      (.get () snapshotPath none)).1 = ⟨200, some [1]⟩ ∧
    ¬ (onceSent.handle sampleRuntime (.put () snapshotPath (some [2]))).2.ReadsBack sampleRuntime
      (normalizePath snapshotPath) [2] := by
  have hget : ((onceSent.handle sampleRuntime (.put () snapshotPath (some [2]))).2.handle
      sampleRuntime (.get () snapshotPath none)).1 = ⟨200, some [1]⟩ := by decide
  refine ⟨by decide, hget, fun h => ?_⟩
  have hback := h [] trivial () snapshotPath none rfl
  rw [Mount.after, List.foldl_nil, hget] at hback
  exact absurd hback (by decide)

/-- The same snapshot, sent again with the same bytes, can be read back. -/
theorem readsBack_of_same_bytes :
    (onceSent.handle sampleRuntime (.put () snapshotPath (some [1]))).2.ReadsBack sampleRuntime
      (normalizePath snapshotPath) [1] := by
  rw [Mount.readsBack_iff_stores sampleRuntime onceSent () snapshotPath [1] (by decide)]
  have hT : classifyPath (normalizePath snapshotPath) = .mainlineSnapshot := by decide
  rw [Mount.Stores, hT]
  exact .inr (by decide)

end Interocitor.Worker
