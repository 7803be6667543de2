import Interocitor.Foundation.Record
import Interocitor.Worker.Paths

/-!
# `maintenance.ts`: meshes that nobody writes

The host deletes meshes that have been idle for too long.  A sweep reads the table of mesh
roots once, picks those whose last recorded write is old enough, and then deletes their rows,
one root after the other, each root in one batch: the row at the root, and the rows whose path
is `LIKE` the root followed by a slash and anything.

Three things decide whether a row that goes is really idle.

* `LIKE` takes `_` and `%` in the *name of the root* for wildcards and letters without their
  case, and it knows nothing of roots inside of roots.
* Writes arrive between the choice of a root and its deletion.
* A write is recorded only when it is to an object that is written once; the pointer, the head
  and the heartbeats of devices are not recorded as writes.

`Attentive` is a step where none of the three happens, and `spares_of_attentiveRun` says that
in a run of such steps every row that a sweep deletes belongs to the root that it sweeps, and
nobody has written to that root for the time that the sweep waits.
-/

namespace Interocitor.Worker

open OrderedRecord List Option

/-! ## Patterns -/

/-- `LIKE`: the pattern first.  `%` matches anything, `_` one character, and a letter of ASCII
also its other case. -/
def like : Path → Path → Bool
  | [], s => s.isEmpty
  | c :: rest, s =>
    if c = '%' then s.tails.any (like rest)
    else
      match s with
      | [] => false
      | d :: s' => (decide (c = '_') || decide (c.toLower = d.toLower)) && like rest s'

/-- `path = root OR path LIKE root || '/%'`. -/
def swept (root path : Path) : Bool := decide (path = root) || like (root ++ ['/', '%']) path

/-! ## Tables -/

/-- The sums that the host keeps of a mesh. -/
structure Metrics where
  fileCount : ℕ
  totalBytes : ℕ
  changeBytes : ℕ
  mainlineBytes : ℕ
  deriving DecidableEq

/-- `MetricsDelta`. -/
structure MetricsDelta where
  fileCountDelta : ℤ
  totalBytesDelta : ℤ
  changeBytesDelta : ℤ
  mainlineBytesDelta : ℤ

/-- `metricsDelta`, of an object that is there afterwards. -/
def metricsDelta (pathType : PathType) (prevSize : Option ℕ) (nextSize : ℕ) : MetricsDelta :=
  let bytesDelta : ℤ := nextSize - prevSize.getD 0
  { fileCountDelta := if prevSize = none then 1 else 0
    totalBytesDelta := bytesDelta
    changeBytesDelta := if pathType = .changeFile then bytesDelta else 0
    mainlineBytesDelta := if pathType = .mainlineSnapshot then bytesDelta else 0 }

/-- Add, and stay at zero or above. -/
def Metrics.add (m : Metrics) (d : MetricsDelta) : Metrics where
  fileCount := (m.fileCount + d.fileCountDelta).toNat
  totalBytes := (m.totalBytes + d.totalBytesDelta).toNat
  changeBytes := (m.changeBytes + d.changeBytesDelta).toNat
  mainlineBytes := (m.mainlineBytes + d.mainlineBytesDelta).toNat

/-- A row of `mesh_paths`.  Times are milliseconds; `opsDay` is a day. -/
structure MeshRecord where
  createdAt : ℕ
  updatedAt : ℕ
  lastOperationAt : Option ℕ
  lastReadAt : Option ℕ
  lastWriteAt : Option ℕ
  lastTtlDeleteAt : Option ℕ
  deletedAt : Option ℕ
  opsDay : ℕ
  opsCountDay : ℕ
  writesCountDay : ℕ
  current : Metrics
  deriving DecidableEq

/-- The size of a file and the time of its last change. -/
structure FileRow where
  size : ℕ
  modifiedTime : ℕ
  deriving DecidableEq

/-- A mount and a path in it. -/
abbrev Key := Path × Path

/-- The tables that the sweep deletes from, and the table of mesh roots. -/
structure Database where
  files : Record Key FileRow
  folders : Record Key ℕ
  meshPaths : Record Key MeshRecord

/-- `INSERT OR IGNORE`. -/
def insertOrIgnore {V : Type} (r : Record Key V) (k : Key) (v : V) : Record Key V :=
  if (r.get k).isSome then r else r.set k v

/-- The folders that a path lies in, from the outside in. -/
def folderTree (path : Path) : List Path :=
  let segments := ((beforeLastSlash path).splitOn '/').filter fun seg => decide (seg ≠ [])
  (segments.scanl (fun cur seg => cur ++ '/' :: seg) []).tail

/-- `folderTreeStatements`. -/
def Database.addFolders (db : Database) (mount path : Path) (now : ℕ) : Database :=
  { db with folders := (folderTree path).foldl (fun f p => insertOrIgnore f (mount, p) now) db.folders }

/-- The row that `meshDeltaStatements` starts from. -/
def freshRecord (now : ℕ) : MeshRecord where
  createdAt := now
  updatedAt := now
  lastOperationAt := none
  lastReadAt := none
  lastWriteAt := none
  lastTtlDeleteAt := none
  deletedAt := none
  opsDay := now / 86400000
  opsCountDay := 0
  writesCountDay := 0
  current := ⟨0, 0, 0, 0⟩

/-- The update of `meshDeltaStatements`, for a `PUT`. -/
def MeshRecord.touch (r : MeshRecord) (delta : MetricsDelta) (now : ℕ) (touchWrite : Bool) :
    MeshRecord :=
  let today := now / 86400000
  let writes := if touchWrite then 1 else 0
  { r with
    updatedAt := now
    deletedAt := if touchWrite then none else r.deletedAt
    lastOperationAt := some now
    lastWriteAt := if touchWrite then some now else r.lastWriteAt
    opsCountDay := if r.opsDay = today then r.opsCountDay + 1 else 1
    writesCountDay := if r.opsDay = today then r.writesCountDay + writes else writes
    opsDay := today
    current := r.current.add delta }

/-- `meshDeltaStatements`, for a `PUT`. -/
def Database.addDelta (db : Database) (mount : Path) (root : Option Path) (delta : MetricsDelta)
    (now : ℕ) (touchWrite : Bool) : Database :=
  match root with
  | none => db
  | some root =>
    let record := (db.meshPaths.get (mount, root)).getD (freshRecord now)
    { db with meshPaths := db.meshPaths.set (mount, root) (record.touch delta now touchWrite) }

/-- The paths whose writes are recorded as writes. -/
def counted (pathType : PathType) : Bool :=
  decide (pathType ≠ .manifestPointer ∧ pathType ≠ .head ∧ pathType ≠ .deviceHeartbeat)

/-- The batch of a `PUT` to a normalized path: `opPutImmutable`, `opPutSemantic` or
`opPutOverwrite`.  The previous size is what `opPutSemantic` has read before. -/
def Database.put (db : Database) (mount path : Path) (size : ℕ) (prevSize : Option ℕ) (now : ℕ) :
    Database :=
  let pathType := classifyPath path
  let db := db.addFolders mount path now
  if counted pathType then
    Database.addDelta { db with files := insertOrIgnore db.files (mount, path) ⟨size, now⟩ } mount
      (meshRootForPath path) (metricsDelta pathType none size) now true
  else
    let db : Database := { db with files := db.files.set (mount, path) ⟨size, now⟩ }
    if pathType = .deviceHeartbeat then db
    else db.addDelta mount (meshRootForPath path) (metricsDelta pathType prevSize size) now false

/-! ## The sweep -/

/-- `idleSince`. -/
def idleSince (r : MeshRecord) : ℕ := r.lastWriteAt.getD r.createdAt

/-- The candidates of a sweep of one mount or of all: roots that are not deleted, and idle since
the threshold or longer. -/
def candidates (db : Database) (mount : Option Path) (ttl now : ℕ) : List Key :=
  (db.meshPaths.entries.filter fun e =>
    (mount.all fun m => decide (e.1.1 = m)) && decide (e.2.deletedAt = none) &&
      decide (idleSince e.2 + ttl ≤ now)).map Prod.fst

/-- The update of `mesh_paths` by the sweep. -/
def MeshRecord.evict (r : MeshRecord) (now : ℕ) : MeshRecord :=
  { r with
    deletedAt := some now
    lastTtlDeleteAt := some now
    current := ⟨0, 0, 0, 0⟩
    updatedAt := now }

/-- The batch of the sweep for one root. -/
def Database.sweepRoot (db : Database) (key : Key) (now : ℕ) : Database where
  files := db.files.filter fun k _ => !(decide (k.1 = key.1) && swept key.2 k.2)
  folders := db.folders.filter fun k _ => !(decide (k.1 = key.1) && swept key.2 k.2)
  meshPaths :=
    match db.meshPaths.get key with
    | some r => db.meshPaths.set key (r.evict now)
    | none => db.meshPaths

/-! ## The host -/

/-- A run of `runMaintenance` that has chosen its candidates. -/
structure Sweep where
  ttl : ℕ
  now : ℕ
  pending : List Key

/-- A `PUT` that was stored: its mesh root, the time it has from the host, and whether the host
recorded it as a write. -/
structure Write where
  key : Key
  time : ℕ
  recorded : Bool

/-- The tables, the clock, the running sweeps, and all writes so far. -/
structure Keeper where
  db : Database
  clock : ℕ
  sweeps : List Sweep
  log : List Write

/-- What happens at a host.  Requests and sweeps take the time when they start; their batches
come some time later. -/
inductive Event where
  | tick (ms : ℕ)
  | put (mount path : Path) (size : ℕ) (prevSize : Option ℕ) (age : ℕ)
  | select (mount : Option Path) (ttl age : ℕ)
  | sweep (i : ℕ)
  | stop (i : ℕ)

namespace Keeper

/-- One event. -/
def step (h : Keeper) : Event → Keeper
  | .tick ms => { h with clock := h.clock + ms }
  | .put mount path size prevSize age =>
    { h with
      db := h.db.put mount path size prevSize (h.clock - age)
      log := ((meshRootForPath path).toList.map fun root =>
        ⟨(mount, root), h.clock - age, counted (classifyPath path)⟩) ++ h.log }
  | .select mount ttl age =>
    -- a time to live that is not positive disables the sweep
    if ttl = 0 then h
    else
      { h with
        sweeps := ⟨ttl, h.clock - age, candidates h.db mount ttl (h.clock - age)⟩ :: h.sweeps }
  | .sweep i =>
    match h.sweeps[i]? with
    | none => h
    | some s =>
      match s.pending with
      | [] => h
      | key :: rest =>
        { h with
          db := h.db.sweepRoot key s.now
          sweeps := h.sweeps.set i { s with pending := rest } }
  | .stop i => { h with sweeps := h.sweeps.eraseIdx i }

/-- Many events. -/
def run (h : Keeper) (events : List Event) : Keeper := events.foldl step h

/-! ## Who owns a row -/

/-- The path is the root or lies under it. -/
def Under (root path : Path) : Prop := path = root ∨ root = ['/'] ∨ root ++ ['/'] <+: path

/-- A file belongs to the root that its path gives. -/
def FileOf (k key : Key) : Prop := k.1 = key.1 ∧ meshRootForPath k.2 = some key.2

/-- A folder belongs to the innermost root that it lies in. -/
def FolderOf (db : Database) (k key : Key) : Prop :=
  k.1 = key.1 ∧ Under key.2 k.2 ∧ (db.meshPaths.get key).isSome ∧
    ∀ root, (db.meshPaths.get (k.1, root)).isSome → Under root k.2 → root.length ≤ key.2.length

/-- Nobody has written to the root for this time. -/
def Idle (h : Keeper) (key : Key) (ttl : ℕ) : Prop :=
  ∀ w ∈ h.log, w.key = key → w.time + ttl ≤ h.clock

/-- The rows of a table that are gone belong to an idle root; other rows are left. -/
def RowsSpared {V : Type} (h : Keeper) (key : Key) (ttl : ℕ) (owned : Key → Prop)
    (before after : Record Key V) : Prop :=
  ∀ k row, before.get k = some row →
    after.get k = some row ∨ after.get k = none ∧ owned k ∧ h.Idle key ttl

/-- What the deletion of a root is for: what is gone belongs to it, and it is idle; the records
of all other roots are the same. -/
structure Spares (h h' : Keeper) (key : Key) (ttl : ℕ) : Prop where
  files : h.RowsSpared key ttl (fun k => FileOf k key) h.db.files h'.db.files
  folders : h.RowsSpared key ttl (fun k => FolderOf h.db k key) h.db.folders h'.db.folders
  records : ∀ k, k ≠ key → h'.db.meshPaths.get k = h.db.meshPaths.get k

/-- The step is not one of the three that go wrong.  A write that is recorded does not meet a
sweep that has chosen its root, and does not come after a later one; the root that is swept has
had no write of late that is not recorded; and the rows that match it are its own. -/
def Attentive (h : Keeper) : Event → Prop
  | .put mount path _ _ age =>
    counted (classifyPath path) = true → ∀ root, meshRootForPath path = some root →
      (∀ s ∈ h.sweeps, (mount, root) ∉ s.pending) ∧
        ∀ r, h.db.meshPaths.get (mount, root) = some r →
          ∀ t, r.lastWriteAt = some t → t ≤ h.clock - age
  | .sweep i => ∀ s, h.sweeps[i]? = some s → ∀ key ∈ s.pending.head?,
      (∀ w ∈ h.log, w.key = key → w.recorded = false → w.time + s.ttl ≤ h.clock) ∧
      (∀ k row, h.db.files.get k = some row → k.1 = key.1 → swept key.2 k.2 = true →
        FileOf k key) ∧
      ∀ k row, h.db.folders.get k = some row → k.1 = key.1 → swept key.2 k.2 = true →
        FolderOf h.db k key
  | _ => True

/-- All steps of a run are attentive. -/
def AttentiveRun : Keeper → List Event → Prop
  | _, [] => True
  | h, e :: rest => h.Attentive e ∧ AttentiveRun (h.step e) rest

/-! ## The invariant -/

/-- Recorded writes are not later than the record says, and the roots that a sweep has chosen
have had no recorded write of late. -/
structure Recorded (h : Keeper) : Prop where
  written : ∀ w ∈ h.log, w.recorded = true →
    ∃ r t, h.db.meshPaths.get w.key = some r ∧ r.lastWriteAt = some t ∧ w.time ≤ t
  chosen : ∀ s ∈ h.sweeps, ∀ key ∈ s.pending, ∀ w ∈ h.log, w.key = key → w.recorded = true →
    w.time + s.ttl ≤ h.clock

variable {h : Keeper}

theorem Recorded.tick (hr : h.Recorded) (ms : ℕ) : (h.step (.tick ms)).Recorded where
  written := hr.written
  chosen s hs key hkey w hw hwk hrec := by
    have hold := hr.chosen s hs key hkey w hw hwk hrec
    show w.time + s.ttl ≤ h.clock + ms
    omega

theorem Recorded.stop (hr : h.Recorded) (i : ℕ) : (h.step (.stop i)).Recorded where
  written := hr.written
  chosen s hs := hr.chosen s (mem_of_mem_eraseIdx hs)

variable {db : Database} {now : ℕ} {key : Key}

theorem exists_record_of_mem_candidates {mount : Option Path} {ttl : ℕ}
    (hkey : key ∈ candidates db mount ttl now) :
    ∃ r, db.meshPaths.get key = some r ∧ idleSince r + ttl ≤ now := by
  rw [candidates, List.mem_map] at hkey
  obtain ⟨e, he, rfl⟩ := hkey
  obtain ⟨hmem, hcond⟩ := mem_filter.mp he
  rw [Bool.and_eq_true, decide_eq_true_eq] at hcond
  exact ⟨e.2, Record.mem_entries_iff.mp hmem, hcond.2⟩

theorem Recorded.select (hr : h.Recorded) (mount : Option Path) (ttl age : ℕ) :
    (h.step (.select mount ttl age)).Recorded := by
  rw [step]
  split_ifs with hzero
  · exact hr
  · refine ⟨hr.written, fun s hs key hkey w hw hwk hrec => ?_⟩
    rcases mem_cons.mp hs with rfl | hs
    · obtain ⟨r, hget, hidle⟩ := exists_record_of_mem_candidates hkey
      obtain ⟨r', t, hget', hlast, hle⟩ := hr.written w hw hrec
      rw [hwk, hget, some.injEq] at hget'
      subst hget'
      rw [idleSince, hlast, getD_some] at hidle
      show w.time + ttl ≤ h.clock
      omega
    · exact hr.chosen s hs key hkey w hw hwk hrec

theorem lastWriteAt_sweepRoot {k : Key} {r : MeshRecord} (hget : db.meshPaths.get k = some r) :
    ∃ r', (db.sweepRoot key now).meshPaths.get k = some r' ∧ r'.lastWriteAt = r.lastWriteAt := by
  cases hkey : db.meshPaths.get key with
  | none => exact ⟨r, by simp only [Database.sweepRoot, hkey, hget], rfl⟩
  | some q =>
    simp only [Database.sweepRoot, hkey, Record.get_set]
    by_cases heq : key = k
    · subst heq
      rw [hget, some.injEq] at hkey
      subst hkey
      exact ⟨r.evict now, by rw [if_pos rfl], rfl⟩
    · exact ⟨r, by rw [if_neg heq, hget], rfl⟩

theorem step_sweep_eq {i : ℕ} {s : Sweep} {rest : List Key} (hs : h.sweeps[i]? = some s)
    (hp : s.pending = key :: rest) :
    h.step (.sweep i) = { h with
      db := h.db.sweepRoot key s.now
      sweeps := h.sweeps.set i { s with pending := rest } } := by
  simp only [step, hs, hp]

theorem Recorded.sweep (hr : h.Recorded) (i : ℕ) : (h.step (.sweep i)).Recorded := by
  cases hs : h.sweeps[i]? with
  | none => simpa only [step, hs] using hr
  | some s =>
    cases hp : s.pending with
    | nil => simpa only [step, hs, hp] using hr
    | cons key rest =>
      rw [step_sweep_eq hs hp]
      refine ⟨fun w hw hrec => ?_, fun s' hs' key' hkey' w hw hwk hrec => ?_⟩
      · obtain ⟨r, t, hget, hlast, hle⟩ := hr.written w hw hrec
        obtain ⟨r', hget', hlast'⟩ := lastWriteAt_sweepRoot hget
        exact ⟨r', t, hget', hlast'.trans hlast, hle⟩
      · rcases mem_or_eq_of_mem_set hs' with hmem | rfl
        · exact hr.chosen s' hmem key' hkey' w hw hwk hrec
        · refine hr.chosen s (mem_of_getElem? hs) key' ?_ w hw hwk hrec
          rw [hp]
          exact mem_cons_of_mem _ hkey'

theorem get_addDelta_ne {mount root : Path} {delta : MetricsDelta} {touchWrite : Bool} {k : Key}
    (hk : (mount, root) ≠ k) :
    (db.addDelta mount (some root) delta now touchWrite).meshPaths.get k = db.meshPaths.get k :=
  Record.get_set_ne _ _ hk

/-- A `PUT` that is recorded sets the last write of its root. -/
theorem get_put_of_counted (db : Database) (mount : Path) {path root : Path} (size : ℕ)
    (prevSize : Option ℕ) (now : ℕ) (hc : counted (classifyPath path) = true)
    (hroot : meshRootForPath path = some root) (k : Key) :
    ((mount, root) = k → ∃ r, (db.put mount path size prevSize now).meshPaths.get k = some r ∧
      r.lastWriteAt = some now) ∧
    ((mount, root) ≠ k →
      (db.put mount path size prevSize now).meshPaths.get k = db.meshPaths.get k) := by
  simp only [Database.put, hc, if_true, hroot]
  constructor
  · rintro rfl
    exact ⟨_, Record.get_set_self _ _ _, rfl⟩
  · intro hk
    rw [get_addDelta_ne hk]
    rfl

variable {prevSize : Option ℕ} {mount path : Path}

theorem put_of_no_root {size : ℕ} (hroot : meshRootForPath path = none) :
    (db.put mount path size prevSize now).meshPaths = db.meshPaths := by
  simp only [Database.put, hroot, Database.addDelta]
  split_ifs <;> rfl

/-- A `PUT` that is not recorded keeps the last write of every root. -/
theorem get_put_of_not_counted {size : ℕ} (hc : counted (classifyPath path) = false) {k : Key}
    {r : MeshRecord} (hget : db.meshPaths.get k = some r) :
    ∃ r', (db.put mount path size prevSize now).meshPaths.get k = some r' ∧
      r'.lastWriteAt = r.lastWriteAt := by
  cases hroot : meshRootForPath path with
  | none =>
    rw [put_of_no_root hroot]
    exact ⟨r, hget, rfl⟩
  | some root =>
    simp only [Database.put, hc, Bool.false_eq_true, if_false, hroot]
    split_ifs with hbeat
    · exact ⟨r, hget, rfl⟩
    · by_cases hk : (mount, root) = k
      · subst hk
        refine ⟨_, Record.get_set_self _ _ _, ?_⟩
        have hsame : (db.addFolders mount path now).meshPaths.get (mount, root) = some r := hget
        show (((db.addFolders mount path now).meshPaths.get (mount, root)).getD _).lastWriteAt = _
        rw [hsame]
        rfl
      · exact ⟨r, by rw [get_addDelta_ne hk]; exact hget, rfl⟩

theorem Recorded.put (hr : h.Recorded) {size age : ℕ}
    (ha : h.Attentive (.put mount path size prevSize age)) :
    (h.step (.put mount path size prevSize age)).Recorded := by
  cases hroot : meshRootForPath path with
  | none =>
    have hlog : (h.step (.put mount path size prevSize age)).log = h.log := by
      simp only [step, hroot, toList_none, map_nil, nil_append]
    refine ⟨fun w hw hrec => ?_, fun s hs key hkey w hw => ?_⟩
    · rw [hlog] at hw
      obtain ⟨r, t, hget, hrest⟩ := hr.written w hw hrec
      exact ⟨r, t, by rw [← hget]; exact congrArg (Record.get · w.key) (put_of_no_root hroot), hrest⟩
    · rw [hlog] at hw
      exact hr.chosen s hs key hkey w hw
  | some root =>
    have hlog : (h.step (.put mount path size prevSize age)).log =
        ⟨(mount, root), h.clock - age, counted (classifyPath path)⟩ :: h.log := by
      simp only [step, hroot, toList_some, map_cons, map_nil, cons_append, nil_append]
    cases hc : counted (classifyPath path) with
    | false =>
      -- the new write is not recorded, and the records keep their last writes
      rw [hc] at hlog
      refine ⟨fun w hw hrec => ?_, fun s hs key hkey w hw hwk hrec => ?_⟩
      · rw [hlog] at hw
        rcases mem_cons.mp hw with rfl | hw
        · exact absurd hrec (by simp)
        · obtain ⟨r, t, hget, hlast, hle⟩ := hr.written w hw hrec
          obtain ⟨r', hget', hlast'⟩ := get_put_of_not_counted hc hget
          exact ⟨r', t, hget', hlast'.trans hlast, hle⟩
      · rw [hlog] at hw
        rcases mem_cons.mp hw with rfl | hw
        · exact absurd hrec (by simp)
        · exact hr.chosen s hs key hkey w hw hwk hrec
    | true =>
      obtain ⟨hfree, horder⟩ := ha hc root hroot
      rw [hc] at hlog
      refine ⟨fun w hw hrec => ?_, fun s hs key hkey w hw hwk hrec => ?_⟩
      · rw [hlog] at hw
        obtain ⟨hhit, hmiss⟩ :=
          get_put_of_counted h.db mount size prevSize (h.clock - age) hc hroot w.key
        rcases mem_cons.mp hw with rfl | hw
        · obtain ⟨r, hget, hlast⟩ := hhit rfl
          exact ⟨r, _, hget, hlast, le_rfl⟩
        · obtain ⟨r, t, hget, hlast, hle⟩ := hr.written w hw hrec
          by_cases hk : (mount, root) = w.key
          · obtain ⟨r', hget', hlast'⟩ := hhit hk
            rw [← hk] at hget
            exact ⟨r', _, hget', hlast', hle.trans (horder r hget t hlast)⟩
          · exact ⟨r, t, (hmiss hk).trans hget, hlast, hle⟩
      · rw [hlog] at hw
        rcases mem_cons.mp hw with rfl | hw
        · have hk : (mount, root) = key := hwk
          subst hk
          exact absurd hkey (hfree s hs)
        · exact hr.chosen s hs key hkey w hw hwk hrec

/-- **An attentive step keeps the records right.** -/
theorem Recorded.step (hr : h.Recorded) {e : Event} (ha : h.Attentive e) : (h.step e).Recorded := by
  cases e with
  | tick ms => exact hr.tick ms
  | put mount path size prevSize age => exact hr.put ha
  | select mount ttl age => exact hr.select mount ttl age
  | sweep i => exact hr.sweep i
  | stop i => exact hr.stop i

theorem Recorded.run (hr : h.Recorded) {events : List Event} (ha : h.AttentiveRun events) :
    (h.run events).Recorded := by
  induction events generalizing h with
  | nil => exact hr
  | cons e rest ih => exact ih (hr.step ha.1) ha.2

/-! ## What a sweep deletes -/

/-- Rows that a sweep of a root takes from a table match the root. -/
theorem rowsSpared_filter {V : Type} {ttl : ℕ} {owned : Key → Prop} {table : Record Key V}
    (hidle : h.Idle key ttl)
    (hown : ∀ k row, table.get k = some row → k.1 = key.1 → swept key.2 k.2 = true → owned k) :
    h.RowsSpared key ttl owned table
      (table.filter fun k _ => !(decide (k.1 = key.1) && swept key.2 k.2)) := by
  intro k row hget
  rw [Record.get_filter, hget, filter_some]
  split_ifs with hkeep
  · exact .inl rfl
  · rw [Bool.not_eq_true', Bool.not_eq_false, Bool.and_eq_true, decide_eq_true_eq] at hkeep
    exact .inr ⟨rfl, hown k row hget hkeep.1 hkeep.2, hidle⟩

/-- **Attentive runs spare what is not idle.**  Take any tables, any log of writes that the
records agree with, and any run of requests and sweeps, all steps of which are attentive.  When
a sweep then deletes a root, every file and every folder that goes belongs to that root, all
writes to the root, recorded or not, are as old as the sweep waits for, all other rows stay,
and the records of other roots stay as they are. -/
theorem spares_of_attentiveRun (h₀ : Keeper) (hr : h₀.Recorded) (events : List Event)
    (ha : h₀.AttentiveRun events) (i : ℕ) (s : Sweep) (key : Key) (rest : List Key)
    (hs : (h₀.run events).sweeps[i]? = some s) (hp : s.pending = key :: rest)
    (hlast : (h₀.run events).Attentive (.sweep i)) :
    (h₀.run events).Spares ((h₀.run events).step (.sweep i)) key s.ttl := by
  have hrec : (h₀.run events).Recorded := hr.run ha
  have hhead : key ∈ s.pending.head? := by rw [hp]; exact rfl
  obtain ⟨hquiet, hfiles, hfolders⟩ := hlast s hs key hhead
  have hidle : (h₀.run events).Idle key s.ttl := by
    intro w hw hwk
    cases hwr : w.recorded with
    | false => exact hquiet w hw hwk hwr
    | true =>
      exact hrec.chosen s (mem_of_getElem? hs) key (by rw [hp]; exact mem_cons_self ..) w hw hwk hwr
  rw [step_sweep_eq hs hp]
  refine ⟨rowsSpared_filter hidle hfiles, rowsSpared_filter hidle hfolders, fun k hk => ?_⟩
  cases hkey : (h₀.run events).db.meshPaths.get key with
  | none => simp only [Database.sweepRoot, hkey]
  | some r => simp only [Database.sweepRoot, hkey, Record.get_set_ne _ _ (Ne.symm hk)]

/-! ## Three sweeps that go wrong, and one that does not -/

/-- A host with nothing on it. -/
def blank : Keeper := ⟨⟨∅, ∅, ∅⟩, 1000, [], []⟩

/-- A `PUT` of ten bytes that were not there. -/
def putAt (path : Path) : Event := .put ['x'] path 10 none 0

/-- What the deletion of the first root of the last sweep leaves, after some events. -/
def sweptAfter (events : List Event) : Keeper := (blank.run events).step (.sweep 0)

/-- A root named `/a_b` is swept, and a fresh file of the root `/axb` goes. -/
def wildcard : List Event :=
  [putAt ['/', 'a', '_', 'b', '/', 'f'], .tick 100, putAt ['/', 'a', 'x', 'b', '/', 'f'],
    .select none 50 0]

/-- A file is written to a root between its choice and its deletion. -/
def overtaken : List Event :=
  [putAt ['/', 'a', '/', 'f'], .tick 100, .select none 50 0, putAt ['/', 'a', '/', 'g']]

/-- A device writes its heartbeat before the sweep. -/
def heartbeat : List Event :=
  [putAt ['/', 'a', '/', 'f'], .tick 100, putAt (['/', 'a', '/'] ++ devicesName ++ ['/', 'd']),
    .select none 50 0]

theorem not_spares_of_gone {h' : Keeper} {k : Key} {ttl : ℕ} {row : FileRow}
    (hrow : h.db.files.get k = some row) (hgone : h'.db.files.get k = none)
    (hbad : ¬ (FileOf k key ∧ h.Idle key ttl)) : ¬ h.Spares h' key ttl := by
  intro hs
  rcases hs.files k row hrow with hkept | ⟨-, hlost⟩
  · exact absurd (hgone.symm.trans hkept) (by simp)
  · exact hbad hlost

/-- Rows of a mesh that has just been written go in all three. -/
theorem sweeps_of_busy_meshes :
    ¬ (blank.run wildcard).Spares (sweptAfter wildcard) (['x'], ['/', 'a', '_', 'b']) 50 ∧
    ¬ (blank.run overtaken).Spares (sweptAfter overtaken) (['x'], ['/', 'a']) 50 ∧
    ¬ (blank.run heartbeat).Spares (sweptAfter heartbeat) (['x'], ['/', 'a']) 50 := by
  refine ⟨?_, ?_, ?_⟩
  · have hrow : (blank.run wildcard).db.files.get (['x'], ['/', 'a', 'x', 'b', '/', 'f']) =
        some ⟨10, 1100⟩ := by decide
    exact not_spares_of_gone hrow (by decide) fun hbad => absurd hbad.1.2 (by decide)
  · have hrow : (blank.run overtaken).db.files.get (['x'], ['/', 'a', '/', 'g']) =
        some ⟨10, 1100⟩ := by decide
    refine not_spares_of_gone hrow (by decide) fun hbad => ?_
    exact absurd (hbad.2 ⟨(['x'], ['/', 'a']), 1100, true⟩ (mem_cons_self ..) rfl) (by decide)
  · have hrow : (blank.run heartbeat).db.files.get (['x'], ['/', 'a', '/', 'f']) =
        some ⟨10, 1000⟩ := by decide
    refine not_spares_of_gone hrow (by decide) fun hbad => ?_
    exact absurd (hbad.2 ⟨(['x'], ['/', 'a']), 1100, false⟩ (mem_cons_self ..) rfl) (by decide)

/-- A file is written, and is old when the sweep comes. -/
def abandoned : List Event := [putAt ['/', 'a', '/', 'f'], .tick 100, .select none 50 0]

theorem spares_of_abandoned :
    (blank.run abandoned).Spares (sweptAfter abandoned) (['x'], ['/', 'a']) 50 := by
  have hkeys : (blank.run abandoned).db.meshPaths.keys = [(['x'], ['/', 'a'])] := by decide
  have hfiles : (blank.run abandoned).db.files.keys = [(['x'], ['/', 'a', '/', 'f'])] := by decide
  have hfolders : (blank.run abandoned).db.folders.keys = [(['x'], ['/', 'a'])] := by decide
  refine spares_of_attentiveRun blank ⟨by simp [blank], by simp [blank]⟩ abandoned ?_ 0
    ⟨50, 1100, [(['x'], ['/', 'a'])]⟩ (['x'], ['/', 'a']) [] rfl rfl ?_
  · refine ⟨fun _ root _ => ⟨by simp [blank], ?_⟩, trivial, trivial, trivial⟩
    intro r hr
    exact absurd hr (by simp [blank])
  · have hsweep : (blank.run abandoned).sweeps[0]? = some ⟨50, 1100, [(['x'], ['/', 'a'])]⟩ := rfl
    intro s hs key hkey
    rw [hsweep, some.injEq] at hs
    subst hs
    obtain rfl : (['x'], ['/', 'a']) = key := some.inj hkey
    refine ⟨?_, ?_, ?_⟩
    · intro w hw _ hrec
      have hlog : (blank.run abandoned).log = [⟨(['x'], ['/', 'a']), 1000, true⟩] := rfl
      rw [hlog, mem_singleton] at hw
      subst hw
      exact absurd hrec (by simp)
    · intro k row hrow _ _
      have hk : k ∈ (blank.run abandoned).db.files.keys := Record.mem_keys_iff.mpr ⟨row, hrow⟩
      rw [hfiles, mem_singleton] at hk
      subst hk
      exact ⟨rfl, by decide⟩
    · intro k row hrow _ _
      have hk : k ∈ (blank.run abandoned).db.folders.keys := Record.mem_keys_iff.mpr ⟨row, hrow⟩
      rw [hfolders, mem_singleton] at hk
      subst hk
      refine ⟨rfl, .inl rfl, by decide, fun root hroot _ => ?_⟩
      have hmem : ((['x'], root) : Key) ∈ (blank.run abandoned).db.meshPaths.keys :=
        Record.mem_keys_iff.mpr (isSome_iff_exists.mp hroot)
      rw [hkeys, mem_singleton, Prod.mk.injEq] at hmem
      rw [hmem.2]

end Keeper

end Interocitor.Worker
