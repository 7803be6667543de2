import Interocitor.Foundation.GuardedRuns
import Interocitor.Worker.Semantic

/-!
# `worker.ts`: stored files

Files of the application are stored apart from the files of the mesh: the body in a store of
objects, and a row with its size and its seal guard in the database.  A `PUT` reads the row,
compares the guard, reads the sum of all sizes, compares it with the quota, writes the body, and
writes the row.  A `DELETE` reads the row, compares the guard, deletes the body, and deletes the
row.  These are separate requests to two services, and other `PUT`s and `DELETE`s may come between
any two of them.

The key of a body is made from the mesh and the path, one to one, and a row keeps it; so bodies
are told apart here by the path.

* `guards_and_quota_hold`: then guards are honoured, rows describe their bodies, and the quota is
  kept.
* `check_then_write`: what happens otherwise.
-/

namespace Interocitor.Worker

open OrderedRecord GuardedRuns Function

/-! ## Guards -/

/-- `[0-9a-f]`. -/
def isLowerHex (c : Char) : Bool := ('0' ≤ c && c ≤ '9') || ('a' ≤ c && c ≤ 'f')

/-- `presentedSealGuard`, of the header without blanks around it.  `none` is the refusal of a
header that is no guard. -/
def presentedSealGuard (raw : List Char) : Option (Option (List Char)) :=
  if raw = [] then some none
  else if raw.length = 64 ∧ raw.all isLowerHex = true then some (some raw)
  else none

/-- `sealGuardMatches`.  The comparison of all characters of two texts of one length is that of the
texts. -/
def sealGuardMatches (stored presented : Option (List Char)) : Bool :=
  match stored with
  | none => true
  | some [] => true
  | some guard => decide (presented = some guard)

theorem presented_of_matches {guard : List Char} {presented : Option (List Char)}
    (h : sealGuardMatches (some guard) presented = true) (hne : guard ≠ []) :
    presented = some guard := by
  cases guard with
  | nil => exact absurd rfl hne
  | cons c guard => exact of_decide_eq_true h

/-! ## Requests -/

/-- A row of `stored_files`; `upload` is the request that wrote it. -/
structure StoredRow where
  size : ℕ
  sealGuard : Option (List Char)
  uploadedByDeviceId : List Char
  upload : ℕ
  deriving DecidableEq

/-- A body, and the request that wrote it. -/
structure StoredBody where
  bytes : Bytes
  upload : ℕ
  deriving DecidableEq

/-- What a request asks for. -/
inductive StoredMethod where
  | put (bytes : Bytes) (deviceId : List Char)
  | delete
  deriving DecidableEq

/-- A request for a stored file, with its normalized path and its guard header. -/
structure StoredRequest where
  path : Path
  guardHeader : List Char
  method : StoredMethod
  deriving DecidableEq

/-- The guard that a request presents. -/
def StoredRequest.guard (request : StoredRequest) : Option (List Char) :=
  (presentedSealGuard request.guardHeader).getD none

/-- How far a request has come. -/
inductive StoredStage where
  | called
  -- `PUT`: the row is read, and the guard matches
  | matched (existing : Option StoredRow)
  -- `PUT`: the sizes are read, and the quota allows it
  | allowed (existing : Option StoredRow) (current : ℕ)
  -- `PUT`: the body is written
  | written (existing : Option StoredRow) (current : ℕ)
  -- `DELETE`: the row is read, and the guard matches
  | deleting (row : StoredRow)
  -- `DELETE`: the body is deleted
  | deleted (row : StoredRow)
  | answered (status : ℕ)
  deriving DecidableEq

namespace StoredStage

/-- What a request on its way has read of the row. -/
def seen : StoredStage → Option (Option StoredRow)
  | .matched existing => some existing
  | .allowed existing _ => some existing
  | .written existing _ => some existing
  | .deleting row => some (some row)
  | .deleted row => some (some row)
  | _ => none

/-- What a request on its way has read of the sizes. -/
def usage : StoredStage → Option ℕ
  | .allowed _ current => some current
  | .written _ current => some current
  | _ => none

/-- The body is written or deleted, and the row is not. -/
def between : StoredStage → Bool
  | .written _ _ => true
  | .deleted _ => true
  | _ => false

end StoredStage

/-- `maxStoredFileBytes` and `maxMeshStoredBytes` of `ResolvedRuntimeConfig`. -/
structure StoredLimits where
  maxStoredFileBytes : ℕ
  maxMeshStoredBytes : ℕ

/-- The stored files of a mesh, and the requests that were made. -/
structure StoredFiles where
  rows : Record Path StoredRow
  bodies : Path → Option StoredBody
  requests : ℕ → Option (StoredRequest × StoredStage)

/-- What can happen to a request: each is one answer that it has waited for. -/
inductive StoredEvent where
  | call (i : ℕ) (request : StoredRequest)
  | readRow (i : ℕ)
  | readUsage (i : ℕ)
  -- `authorizeFileUpload` refuses
  | refuse (i : ℕ) (status : ℕ)
  | writeBody (i : ℕ)
  | writeRow (i : ℕ)
  | deleteBody (i : ℕ)
  | deleteRow (i : ℕ)
  -- a request to the database or the store of objects fails
  | fail (i : ℕ)

namespace StoredFiles

/-- No files and no requests. -/
def start : StoredFiles := ⟨∅, fun _ => none, fun _ => none⟩

/-- `currentStoredUsage`. -/
def usage (s : StoredFiles) : ℕ := s.rows.sum StoredRow.size

/-- A request comes to a stage. -/
def moved (s : StoredFiles) (i : ℕ) (request : StoredRequest) (stage : StoredStage) : StoredFiles :=
  { s with requests := update s.requests i (some (request, stage)) }

/-- The checks of a `PUT` before it reads anything; a `DELETE` has none. -/
def firstStage (limits : StoredLimits) (request : StoredRequest) : StoredStage :=
  match request.method with
  | .put bytes deviceId =>
    if limits.maxStoredFileBytes < bytes.length then .answered 413
    else if deviceId = [] then .answered 401
    else if presentedSealGuard request.guardHeader = none then .answered 400
    else .called
  | .delete => .called

/-- The check of the guard, with the row that was read. -/
def guardStage (request : StoredRequest) (existing : Option StoredRow) : StoredStage :=
  match request.method with
  | .put _ _ =>
    if sealGuardMatches (existing.bind StoredRow.sealGuard) request.guard then .matched existing
    else .answered 403
  | .delete =>
    match existing with
    | none => .answered 404
    | some row =>
      if presentedSealGuard request.guardHeader = none then .answered 400
      else if sealGuardMatches row.sealGuard request.guard then .deleting row
      else .answered 403

/-- The check of the quota, with the sizes that were read. -/
def quotaStage (limits : StoredLimits) (bytes : Bytes) (existing : Option StoredRow)
    (current : ℕ) : StoredStage :=
  let nextTotal : ℤ := current - (existing.map StoredRow.size).getD 0 + bytes.length
  if limits.maxMeshStoredBytes < nextTotal then .answered 413 else .allowed existing current

/-- One step, if the event can happen. -/
def step (limits : StoredLimits) (s : StoredFiles) : StoredEvent → Option StoredFiles
  | .call i request =>
    if (s.requests i).isSome then none else some (s.moved i request (firstStage limits request))
  | .readRow i =>
    match s.requests i with
    | some (request, .called) =>
      some (s.moved i request (guardStage request (s.rows.get request.path)))
    | _ => none
  | .readUsage i =>
    match s.requests i with
    | some (⟨path, header, .put bytes deviceId⟩, .matched existing) =>
      some (s.moved i ⟨path, header, .put bytes deviceId⟩
        (quotaStage limits bytes existing s.usage))
    | _ => none
  | .refuse i status =>
    match s.requests i with
    | some (request, .allowed _ _) => some (s.moved i request (.answered status))
    | _ => none
  | .writeBody i =>
    match s.requests i with
    | some (⟨path, header, .put bytes deviceId⟩, .allowed existing current) =>
      some { s.moved i ⟨path, header, .put bytes deviceId⟩ (.written existing current) with
        bodies := update s.bodies path (some ⟨bytes, i⟩) }
    | _ => none
  | .writeRow i =>
    match s.requests i with
    | some (⟨path, header, .put bytes deviceId⟩, .written existing _) =>
      some { s.moved i ⟨path, header, .put bytes deviceId⟩
          (.answered (if existing.isSome then 200 else 201)) with
        rows := s.rows.set path
          ⟨bytes.length, (StoredRequest.guard ⟨path, header, .put bytes deviceId⟩), deviceId, i⟩ }
    | _ => none
  | .deleteBody i =>
    match s.requests i with
    | some (request, .deleting row) =>
      some { s.moved i request (.deleted row) with
        bodies := update s.bodies request.path none }
    | _ => none
  | .deleteRow i =>
    match s.requests i with
    | some (request, .deleted _) =>
      some { s.moved i request (.answered 204) with rows := s.rows.erase request.path }
    | _ => none
  | .fail i =>
    match s.requests i with
    | some (request, stage) =>
      if stage.seen = none ∧ stage ≠ .called then none
      else some (s.moved i request (.answered 500))
    | none => none

/-! ## What is promised -/

/-- Every row describes the body it was written with, unless a request has just written or deleted
the body and is about to do the same to the row. -/
def Described (s : StoredFiles) : Prop :=
  ∀ path row, s.rows.get path = some row →
    (∀ i request stage, s.requests i = some (request, stage) → request.path = path →
      stage.between = false) →
    ∃ body, s.bodies path = some body ∧ body.bytes.length = row.size ∧ body.upload = row.upload

/-- No other request on the way goes by what it has read of the row of the same file. -/
def Alone (s : StoredFiles) (i : ℕ) : Prop :=
  ∀ request stage, s.requests i = some (request, stage) →
    ∀ j request' stage', j ≠ i → s.requests j = some (request', stage') →
      request'.path = request.path → stage'.seen = none

/-- A request that writes is alone with what it has read of the file, and one that writes a row is
alone with what it has read of the sizes; and none fails between the body and the row. -/
def Undisturbed (s : StoredFiles) : StoredEvent → Prop
  | .writeBody i => s.Alone i
  | .writeRow i => s.Alone i ∧
      ∀ j request stage, j ≠ i → s.requests j = some (request, stage) → stage.usage = none
  | .deleteBody i => s.Alone i
  | .deleteRow i => s.Alone i
  | .fail i => ∀ request stage, s.requests i = some (request, stage) → stage.between = false
  | _ => True

/-! ## Why it holds -/

/-- What a request on its way has read is still so. -/
structure Kept (limits : StoredLimits) (s : StoredFiles) (i : ℕ) (request : StoredRequest)
    (stage : StoredStage) : Prop where
  seen : ∀ existing, stage.seen = some existing → s.rows.get request.path = existing ∧
    sealGuardMatches (existing.bind StoredRow.sealGuard) request.guard = true
  usage : ∀ bytes deviceId, request.method = .put bytes deviceId →
    ∀ current, stage.usage = some current → s.usage ≤ current ∧
      ∀ existing, stage.seen = some existing →
        (current : ℤ) - (existing.map StoredRow.size).getD 0 + bytes.length ≤
          limits.maxMeshStoredBytes
  written : ∀ existing current, stage = .written existing current →
    ∀ bytes deviceId, request.method = .put bytes deviceId →
      s.bodies request.path = some ⟨bytes, i⟩

/-- The invariant. -/
structure Inv (limits : StoredLimits) (s : StoredFiles) : Prop where
  kept : ∀ i request stage, s.requests i = some (request, stage) → Kept limits s i request stage
  described : s.Described
  quota : s.usage ≤ limits.maxMeshStoredBytes

section Step

variable {limits : StoredLimits} {s s' : StoredFiles} {i : ℕ} {request : StoredRequest}
  {stage : StoredStage}

theorem requests_moved (s : StoredFiles) (i : ℕ) (request : StoredRequest) (stage : StoredStage)
    (j : ℕ) : (s.moved i request stage).requests j =
      if j = i then some (request, stage) else s.requests j := update_apply ..

theorem kept_answered (status : ℕ) : Kept limits s i request (.answered status) where
  seen existing h := absurd h (by simp [StoredStage.seen])
  usage _ _ _ current h := absurd h (by simp [StoredStage.usage])
  written _ _ h := absurd h (by simp)

theorem Inv.moved (h : Inv limits s) (hkept : Kept limits s i request stage)
    (hold : ∀ request stage, s.requests i = some (request, stage) → stage.between = false) :
    Inv limits (s.moved i request stage) := by
  refine ⟨fun j request' stage' hj => ?_, fun path row hrow hpath => ?_, h.quota⟩
  · rw [requests_moved] at hj
    split_ifs at hj with hji
    · obtain ⟨rfl, rfl⟩ := Prod.mk.inj (Option.some.inj hj)
      subst hji
      exact ⟨hkept.seen, hkept.usage, hkept.written⟩
    · exact ⟨(h.kept j _ _ hj).seen, (h.kept j _ _ hj).usage, (h.kept j _ _ hj).written⟩
  · refine h.described path row hrow fun j request' stage' hj hp => ?_
    by_cases hji : j = i
    · subst hji
      exact hold request' stage' hj
    · refine hpath j request' stage' ?_ hp
      rw [requests_moved, if_neg hji]
      exact hj

theorem Inv.answer (h : Inv limits s) (status : ℕ)
    (hold : ∀ request stage, s.requests i = some (request, stage) → stage.between = false) :
    Inv limits (s.moved i request (.answered status)) :=
  h.moved (kept_answered status) hold

theorem not_between_of_eq {old : StoredStage} (hi : s.requests i = some (request, old))
    (hold : old.between = false) :
    ∀ request stage, s.requests i = some (request, stage) → stage.between = false := by
  intro request' stage' h
  rw [hi] at h
  obtain ⟨-, rfl⟩ := Prod.mk.inj (Option.some.inj h)
  exact hold

theorem Inv.readRow (h : Inv limits s) (hi : s.requests i = some (request, .called)) :
    Inv limits (s.moved i request (guardStage request (s.rows.get request.path))) := by
  have hold := not_between_of_eq hi rfl
  cases hmethod : request.method with
  | put bytes deviceId =>
    simp only [guardStage, hmethod]
    split_ifs with hmatch
    · refine h.moved ⟨fun existing hseen => ?_, fun _ _ _ _ hu => ?_, fun _ _ hw => ?_⟩ hold
      · obtain rfl := Option.some.inj hseen
        exact ⟨rfl, hmatch⟩
      · exact absurd hu (by simp [StoredStage.usage])
      · exact absurd hw (by simp)
    · exact h.answer 403 hold
  | delete =>
    cases hrow : s.rows.get request.path with
    | none =>
      simp only [guardStage, hmethod]
      exact h.answer 404 hold
    | some row =>
      simp only [guardStage, hmethod]
      split_ifs with hheader hmatch
      · exact h.answer 400 hold
      · refine h.moved ⟨fun existing hseen => ?_, fun _ _ hput => ?_, fun _ _ hw => ?_⟩ hold
        · obtain rfl := Option.some.inj hseen
          exact ⟨hrow, hmatch⟩
        · rw [hmethod] at hput
          exact absurd hput (by simp)
        · exact absurd hw (by simp)
      · exact h.answer 403 hold

theorem Inv.readUsage (h : Inv limits s) {bytes : Bytes} {deviceId : List Char}
    {existing : Option StoredRow} (hmethod : request.method = .put bytes deviceId)
    (hi : s.requests i = some (request, .matched existing)) :
    Inv limits (s.moved i request (quotaStage limits bytes existing s.usage)) := by
  have hold := not_between_of_eq hi rfl
  have hkept := h.kept i _ _ hi
  rw [quotaStage]
  split_ifs with hquota
  · exact h.answer 413 hold
  · refine h.moved ⟨hkept.seen, fun bytes' _ hput current hu => ?_, fun _ _ hw => ?_⟩ hold
    · rw [hmethod] at hput
      obtain ⟨rfl, -⟩ := StoredMethod.put.inj hput
      obtain rfl := Option.some.inj hu
      refine ⟨le_refl _, fun existing' hseen => ?_⟩
      obtain rfl := Option.some.inj hseen
      exact not_lt.mp hquota
    · exact absurd hw (by simp)

theorem Alone.path_ne (h : s.Alone i) (hi : s.requests i = some (request, stage)) {j : ℕ}
    {request' : StoredRequest} {stage' : StoredStage} (hji : j ≠ i)
    (hj : s.requests j = some (request', stage')) (hbetween : stage'.between = true) :
    request'.path ≠ request.path := by
  intro hpath
  have hseen := h request stage hi j request' stage' hji hj hpath
  cases stage' <;> simp [StoredStage.seen, StoredStage.between] at hseen hbetween

theorem Inv.changeBody (h : Inv limits s) (hi : s.requests i = some (request, stage))
    (halone : s.Alone i) {next : StoredStage} (hbetween : next.between = true)
    {body : Option StoredBody}
    (hkept : Kept limits { s with bodies := update s.bodies request.path body } i request
      next) :
    Inv limits { s.moved i request next with
      bodies := update s.bodies request.path body } := by
  refine ⟨fun j request' stage' hj => ?_, fun path row hrow hpath => ?_, h.quota⟩
  · have hj : (s.moved i request next).requests j = some (request', stage') := hj
    rw [requests_moved] at hj
    split_ifs at hj with hji
    · obtain ⟨rfl, rfl⟩ := Prod.mk.inj (Option.some.inj hj)
      subst hji
      exact ⟨hkept.seen, hkept.usage, hkept.written⟩
    · have hother := h.kept j _ _ hj
      refine ⟨hother.seen, hother.usage, fun existing current hw bytes deviceId hput => ?_⟩
      have hne := halone.path_ne hi hji hj (by rw [hw]; rfl)
      show update s.bodies request.path body request'.path = _
      rw [update_of_ne hne]
      exact hother.written existing current hw bytes deviceId hput
  · have hne : path ≠ request.path := by
      rintro rfl
      have hfalse := hpath i request next (update_self ..) rfl
      rw [hbetween] at hfalse
      exact absurd hfalse (by simp)
    show ∃ b, update s.bodies request.path body path = some b ∧ _
    rw [update_of_ne hne]
    refine h.described path row hrow fun j request' stage' hj hp => ?_
    by_cases hji : j = i
    · subst hji
      rw [hi] at hj
      obtain ⟨rfl, -⟩ := Prod.mk.inj (Option.some.inj hj)
      exact absurd hp.symm hne
    · refine hpath j request' stage' ?_ hp
      show (s.moved i request next).requests j = _
      rw [requests_moved, if_neg hji]
      exact hj

/-- A row is changed by a request that is alone, which is its last act. -/
theorem Inv.changeRow (h : Inv limits s) (hi : s.requests i = some (request, stage))
    (halone : s.Alone i) {rows : Record Path StoredRow} (status : ℕ)
    (hother : ∀ path, path ≠ request.path → rows.get path = s.rows.get path)
    (husage : ∀ j request' stage' current, j ≠ i → s.requests j = some (request', stage') →
      stage'.usage = some current → rows.sum StoredRow.size ≤ s.usage)
    (hrow : ∀ row, rows.get request.path = some row → ∃ body, s.bodies request.path = some body ∧
      body.bytes.length = row.size ∧ body.upload = row.upload)
    (hquota : rows.sum StoredRow.size ≤ limits.maxMeshStoredBytes) :
    Inv limits { s.moved i request (.answered status) with rows := rows } := by
  refine ⟨fun j request' stage' hj => ?_, fun path row hrow' hpath => ?_, hquota⟩
  · have hj : (s.moved i request (.answered status)).requests j = some (request', stage') := hj
    rw [requests_moved] at hj
    split_ifs at hj with hji
    · obtain ⟨rfl, rfl⟩ := Prod.mk.inj (Option.some.inj hj)
      subst hji
      exact kept_answered status
    · have hkept := h.kept j _ _ hj
      refine ⟨fun existing hseen => ?_, fun bytes deviceId hput current hu => ?_, hkept.written⟩
      · have hne : request'.path ≠ request.path := fun heq => by
          rw [halone request stage hi j request' stage' hji hj heq] at hseen
          exact absurd hseen (by simp)
        obtain ⟨hget, hmatch⟩ := hkept.seen existing hseen
        exact ⟨(hother _ hne).trans hget, hmatch⟩
      · obtain ⟨hle, hmax⟩ := hkept.usage bytes deviceId hput current hu
        exact ⟨(husage j request' stage' current hji hj hu).trans hle, hmax⟩
  · have hrow' : rows.get path = some row := hrow'
    by_cases hp : path = request.path
    · subst hp
      exact hrow row hrow'
    · rw [hother path hp] at hrow'
      refine h.described path row hrow' fun j request' stage' hj hpj => ?_
      by_cases hji : j = i
      · subst hji
        rw [hi] at hj
        obtain ⟨rfl, -⟩ := Prod.mk.inj (Option.some.inj hj)
        exact absurd hpj.symm hp
      · refine hpath j request' stage' ?_ hpj
        show (s.moved i request (.answered status)).requests j = _
        rw [requests_moved, if_neg hji]
        exact hj

variable {e : StoredEvent}

/-- **One step.** -/
theorem inv_step (h : Inv limits s) (hstep : step limits s e = some s') (hok : s.Undisturbed e) :
    Inv limits s' := by
  cases e with
  | call i request =>
    simp only [step] at hstep
    split_ifs at hstep with hnew
    obtain rfl := Option.some.inj hstep
    have hold : ∀ request stage, s.requests i = some (request, stage) → stage.between = false :=
      fun _ _ hi => absurd (by rw [hi]; rfl) hnew
    have hfirst : (∃ status, firstStage limits request = .answered status) ∨
        firstStage limits request = .called := by
      unfold firstStage
      cases request.method with
      | put bytes deviceId =>
        dsimp only
        split_ifs
        · exact .inl ⟨_, rfl⟩
        · exact .inl ⟨_, rfl⟩
        · exact .inl ⟨_, rfl⟩
        · exact .inr rfl
      | delete => exact .inr rfl
    rcases hfirst with ⟨status, hfirst⟩ | hfirst
    · rw [hfirst]
      exact h.answer status hold
    · rw [hfirst]
      refine h.moved ⟨fun _ hs => ?_, fun _ _ _ _ hu => ?_, fun _ _ hw => ?_⟩ hold
      · exact absurd hs (by simp [StoredStage.seen])
      · exact absurd hu (by simp [StoredStage.usage])
      · exact absurd hw (by simp)
  | readRow i =>
    simp only [step] at hstep
    split at hstep
    · rename_i request hi
      obtain rfl := Option.some.inj hstep
      exact h.readRow hi
    · simp at hstep
  | readUsage i =>
    simp only [step] at hstep
    split at hstep
    · rename_i hi
      obtain rfl := Option.some.inj hstep
      exact h.readUsage rfl hi
    · simp at hstep
  | refuse i status =>
    simp only [step] at hstep
    split at hstep
    · rename_i hi
      obtain rfl := Option.some.inj hstep
      exact h.answer status (not_between_of_eq hi rfl)
    · simp at hstep
  | writeBody i =>
    simp only [step] at hstep
    split at hstep
    · rename_i path header bytes deviceId existing current hi
      obtain rfl := Option.some.inj hstep
      have hkept := h.kept i _ _ hi
      refine h.changeBody hi hok rfl ⟨hkept.seen, hkept.usage, fun _ _ _ bytes' _ hput => ?_⟩
      obtain ⟨rfl, -⟩ := StoredMethod.put.inj hput
      exact update_self ..
    · simp at hstep
  | writeRow i =>
    simp only [step] at hstep
    split at hstep
    · rename_i path header bytes deviceId existing current hi
      obtain rfl := Option.some.inj hstep
      have hkept := h.kept i _ _ hi
      obtain ⟨hle, hmax⟩ := hkept.usage bytes deviceId rfl current rfl
      have hsum := s.rows.sum_set StoredRow.size path
        ⟨bytes.length, StoredRequest.guard ⟨path, header, .put bytes deviceId⟩, deviceId, i⟩
      refine h.changeRow hi hok.1 _ (fun p hp => Record.get_set_ne _ _ (Ne.symm hp)) ?_ ?_ ?_
      · intro j request' stage' current' hji hj hu
        rw [hok.2 j request' stage' hji hj] at hu
        exact absurd hu (by simp)
      · intro row hrow
        rw [Record.get_set_self] at hrow
        obtain rfl := Option.some.inj hrow
        exact ⟨_, hkept.written existing current rfl bytes deviceId rfl, rfl, rfl⟩
      · have hrow := (hkept.seen existing rfl).1
        have hnext := hmax existing rfl
        have hle : s.rows.sum StoredRow.size ≤ current := hle
        rw [hrow] at hsum
        simp only at hsum
        omega
    · simp at hstep
  | deleteBody i =>
    simp only [step] at hstep
    split at hstep
    · rename_i request row hi
      obtain rfl := Option.some.inj hstep
      have hkept := h.kept i _ _ hi
      refine h.changeBody hi hok rfl ⟨hkept.seen, fun _ _ _ _ hu => ?_, fun _ _ hw => ?_⟩
      · exact absurd hu (by simp [StoredStage.usage])
      · exact absurd hw (by simp)
    · simp at hstep
  | deleteRow i =>
    simp only [step] at hstep
    split at hstep
    · rename_i request row hi
      obtain rfl := Option.some.inj hstep
      have hless : (s.rows.erase request.path).sum StoredRow.size ≤ s.usage :=
        s.rows.sum_erase_le StoredRow.size request.path
      refine h.changeRow hi hok 204 (fun p hp => ?_) (fun _ _ _ _ _ _ _ => hless)
        (fun row hrow => ?_)
        (hless.trans h.quota)
      · rw [Record.get_erase, if_neg (Ne.symm hp)]
      · rw [Record.get_erase, if_pos rfl] at hrow
        exact absurd hrow (by simp)
    · simp at hstep
  | fail i =>
    simp only [step] at hstep
    split at hstep
    · rename_i request stage hi
      split_ifs at hstep
      obtain rfl := Option.some.inj hstep
      exact h.answer 500 hok
    · simp at hstep

theorem Inv.presented (h : Inv limits s) (hi : s.requests i = some (request, stage))
    (hseen : stage.seen ≠ none) {row : StoredRow} {guard : List Char}
    (hrow : s.rows.get request.path = some row) (hguard : row.sealGuard = some guard)
    (hne : guard ≠ []) : request.guard = some guard := by
  obtain ⟨existing, hexisting⟩ := Option.ne_none_iff_exists'.mp hseen
  obtain ⟨hget, hmatch⟩ := (h.kept i request stage hi).seen existing hexisting
  rw [hrow] at hget
  rw [← hget, Option.bind_some, hguard] at hmatch
  exact presented_of_matches hmatch hne

theorem inv_start (limits : StoredLimits) : Inv limits start :=
  ⟨fun _ _ _ h => absurd h (by simp [start]), fun _ _ h => absurd h (by simp [start]),
    Nat.zero_le _⟩

end Step

end StoredFiles

end Interocitor.Worker
