import Interocitor.Core.Numbers

/-!
# `access-control.ts`: chains of grants

A grant gives one subject access to one mesh.  Its holder may issue a child grant to somebody else,
with no more access, for no longer, and with fewer delegations left.  A request is decided by a
chain of grants, from a root that the application trusts to a leaf that the caller holds; the
application stores the chain, and `validateGrantChain` checks it for each request.

The check looks at an element and the one before it.  Issuing a child, `attenuateMeshGrant`, is
separate code, with defaults of its own for times that are left out.

Numbers are JavaScript's, because the chain comes from the application: a time may be `NaN`.  The
text fields are texts and the authorization is one of two, as their types say.

* `grant_chains_attenuate`: what an active chain is worth, that children can be appended, and that
  a revoked grant ends every chain through it.
-/

namespace Interocitor

open CodeUnits List Option

/-- What `assertRequiredTimestamp` accepts: finite, and not negative. -/
def isTimestamp (n : JsNumber) : Bool := n.isFinite && !n.lt (.finite 0)

theorem isTimestamp_isFinite {n : JsNumber} (h : isTimestamp n = true) : n.isFinite = true := by
  rw [isTimestamp, Bool.and_eq_true] at h
  exact h.1

/-! ## Grants -/

namespace Worker

/-- `"readonly" | "full"`. -/
inductive GrantAuthorization where
  | readonly
  | full
  deriving DecidableEq

/-- `authorizationRank`. -/
def authorizationRank : GrantAuthorization → ℕ
  | .readonly => 1
  | .full => 2

/-- `MeshAccessGrant`. -/
structure MeshAccessGrant where
  grantId : Text
  parentGrantId : Option Text
  canonicalAddress : Text
  issuerSubjectId : Text
  subjectId : Text
  authorization : GrantAuthorization
  delegationDepth : JsNumber
  issuedAt : JsNumber
  notBefore : Option JsNumber
  expiresAt : Option JsNumber
  revokedAt : Option JsNumber
  deriving DecidableEq

/-- `MeshGrantAttenuation`. -/
structure MeshGrantAttenuation where
  grantId : Text
  subjectId : Text
  authorization : GrantAuthorization
  delegationDepth : JsNumber
  issuedAt : JsNumber
  notBefore : Option JsNumber
  expiresAt : Option JsNumber

/-- The fields that the checks name. -/
inductive GrantField where
  | grantId
  | parentGrantId
  | canonicalAddress
  | issuerSubjectId
  | subjectId
  | issuedAt
  | notBefore
  | expiresAt
  | revokedAt
  deriving DecidableEq

/-- What the checks throw, in the order of the source. -/
inductive GrantError where
  | mustBeNonEmpty (field : GrantField)
  | mustBeTimestamp (field : GrantField)
  | depthMustBeSafeInteger
  | windowMustBeNonEmpty
  | mustBeIssuedBeforeItExpires
  | revokedBeforeIssued
  | chainMustNotBeEmpty
  | chainExceedsMaximumLength
  | chainContainsCycle
  | addressDoesNotMatch
  | rootHasParent
  | parentLinkDoesNotMatch
  | issuerDoesNotHoldParent
  | predatesItsParent
  | authorizationExceedsParent
  | depthExceedsParent
  | startsBeforeParent
  | expiresAfterParent
  | subjectDoesNotMatch
  | childIdMustBeUnique
  | revokedGrantCannotDelegate
  | invalidPrincipal
  | invalidNow
  deriving DecidableEq

/-- Checks in order: the first one that fails is thrown. -/
def check : List (Bool × GrantError) → Except GrantError Unit
  | [] => .ok ()
  | (failed, e) :: rest => if failed then .error e else check rest

theorem check_ok_iff {l : List (Bool × GrantError)} : check l = .ok () ↔ ∀ c ∈ l, c.1 = false := by
  induction l with
  | nil => simp [check]
  | cons c l ih =>
    obtain ⟨failed, e⟩ := c
    rw [check, forall_mem_cons]
    cases failed with
    | true => simp
    | false => simpa using ih

/-- A comparison of two optional numbers that are both there. -/
def both (r : JsNumber → JsNumber → Bool) : Option JsNumber → Option JsNumber → Bool
  | some a, some b => r a b
  | _, _ => false

/-- `assertGrantShape`. -/
def assertGrantShape (grant : MeshAccessGrant) : Except GrantError Unit :=
  check [
    (grant.grantId.isEmpty, .mustBeNonEmpty .grantId),
    (grant.canonicalAddress.isEmpty, .mustBeNonEmpty .canonicalAddress),
    (grant.issuerSubjectId.isEmpty, .mustBeNonEmpty .issuerSubjectId),
    (grant.subjectId.isEmpty, .mustBeNonEmpty .subjectId),
    (grant.parentGrantId.any List.isEmpty, .mustBeNonEmpty .parentGrantId),
    (!grant.delegationDepth.isSafeInteger || grant.delegationDepth.lt (.finite 0),
      .depthMustBeSafeInteger),
    (!isTimestamp grant.issuedAt, .mustBeTimestamp .issuedAt),
    (grant.notBefore.any fun n => !isTimestamp n, .mustBeTimestamp .notBefore),
    (grant.expiresAt.any fun n => !isTimestamp n, .mustBeTimestamp .expiresAt),
    (grant.revokedAt.any fun n => !isTimestamp n, .mustBeTimestamp .revokedAt),
    (both (fun s e => e.le s) grant.notBefore grant.expiresAt, .windowMustBeNonEmpty),
    (grant.expiresAt.any fun e => e.le grant.issuedAt, .mustBeIssuedBeforeItExpires),
    (grant.revokedAt.any fun r => r.lt grant.issuedAt, .revokedBeforeIssued)]

/-- The checks of `validateGrantChain` on an element and the one before it. -/
def linkChecks (parent grant : MeshAccessGrant) : List (Bool × GrantError) := [
  (decide (grant.parentGrantId ≠ some parent.grantId), .parentLinkDoesNotMatch),
  (decide (grant.issuerSubjectId ≠ parent.subjectId), .issuerDoesNotHoldParent),
  (grant.issuedAt.lt parent.issuedAt, .predatesItsParent),
  (decide (authorizationRank parent.authorization < authorizationRank grant.authorization),
    .authorizationExceedsParent),
  (parent.delegationDepth.isZero || parent.delegationDepth.le grant.delegationDepth,
    .depthExceedsParent),
  (parent.notBefore.any fun p => grant.notBefore.all fun n => n.lt p, .startsBeforeParent),
  (parent.expiresAt.any fun p => grant.expiresAt.all fun e => p.lt e, .expiresAfterParent)]

/-- The same, where the first element has none before it. -/
def parentChecks : Option MeshAccessGrant → MeshAccessGrant → List (Bool × GrantError)
  | none, grant => [(grant.parentGrantId.isSome, .rootHasParent)]
  | some parent, grant => linkChecks parent grant

/-- What is checked of one element beside its shape. -/
def elementChecks (address : Text) (parent : Option MeshAccessGrant) (seen : List Text)
    (grant : MeshAccessGrant) : List (Bool × GrantError) :=
  (decide (grant.grantId ∈ seen), .chainContainsCycle) ::
    (decide (grant.canonicalAddress ≠ address), .addressDoesNotMatch) ::
      parentChecks parent grant

/-- An element that does not make the chain inactive. -/
def activeAt (now : JsNumber) (grant : MeshAccessGrant) : Bool :=
  grant.revokedAt.isNone && !now.lt grant.issuedAt && !(grant.notBefore.any fun n => now.lt n) &&
    !(grant.expiresAt.any fun e => e.le now)

/-- The loop of `validateGrantChain`: whether the chain is active. -/
def validateFrom (address : Text) (now : JsNumber) :
    Option MeshAccessGrant → List Text → Bool → List MeshAccessGrant → Except GrantError Bool
  | _, _, active, [] => .ok active
  | parent, seen, active, grant :: rest =>
    match assertGrantShape grant with
    | .error e => .error e
    | .ok () =>
      match check (elementChecks address parent seen grant) with
      | .error e => .error e
      | .ok () =>
        validateFrom address now (some grant) (grant.grantId :: seen)
          (active && activeAt now grant) rest

/-- `validateGrantChain`: the leaf, and whether the chain is active. -/
def validateGrantChain (chain : List MeshAccessGrant) (address subjectId : Text) (now : JsNumber)
    (maxChainLength : ℕ) : Except GrantError (MeshAccessGrant × Bool) :=
  match chain.getLast? with
  | none => .error .chainMustNotBeEmpty
  | some leaf =>
    if maxChainLength < chain.length then .error .chainExceedsMaximumLength
    else
      match validateFrom address now none [] true chain with
      | .error e => .error e
      | .ok active =>
        if leaf.subjectId ≠ subjectId then .error .subjectDoesNotMatch else .ok (leaf, active)

/-- `attenuateMeshGrant`. -/
def attenuateMeshGrant (parent : MeshAccessGrant) (child : MeshGrantAttenuation) :
    Except GrantError MeshAccessGrant :=
  match assertGrantShape parent with
  | .error e => .error e
  | .ok () =>
    let notBefore := child.notBefore.or parent.notBefore
    let expiresAt := child.expiresAt.or parent.expiresAt
    match check [
      (child.grantId.isEmpty, .mustBeNonEmpty .grantId),
      (child.subjectId.isEmpty, .mustBeNonEmpty .subjectId),
      (decide (child.grantId = parent.grantId), .childIdMustBeUnique),
      (parent.revokedAt.isSome, .revokedGrantCannotDelegate),
      (decide (authorizationRank parent.authorization < authorizationRank child.authorization),
        .authorizationExceedsParent),
      (!child.delegationDepth.isSafeInteger || child.delegationDepth.lt (.finite 0),
        .depthMustBeSafeInteger),
      (parent.delegationDepth.isZero || parent.delegationDepth.le child.delegationDepth,
        .depthExceedsParent),
      (!isTimestamp child.issuedAt, .mustBeTimestamp .issuedAt),
      (child.issuedAt.lt parent.issuedAt, .predatesItsParent),
      (notBefore.any fun n => !isTimestamp n, .mustBeTimestamp .notBefore),
      (expiresAt.any fun n => !isTimestamp n, .mustBeTimestamp .expiresAt),
      (both (fun n p => n.lt p) notBefore parent.notBefore, .startsBeforeParent),
      (both (fun e p => p.lt e) expiresAt parent.expiresAt, .expiresAfterParent),
      (both (fun s e => e.le s) notBefore expiresAt, .windowMustBeNonEmpty),
      (expiresAt.any fun e => e.le child.issuedAt, .mustBeIssuedBeforeItExpires)] with
    | .error e => .error e
    | .ok () =>
      .ok {
        grantId := child.grantId
        parentGrantId := some parent.grantId
        canonicalAddress := parent.canonicalAddress
        issuerSubjectId := parent.subjectId
        subjectId := child.subjectId
        authorization := child.authorization
        delegationDepth := child.delegationDepth
        issuedAt := child.issuedAt
        notBefore := notBefore
        expiresAt := expiresAt
        revokedAt := none }

/-- The loop of `snapshotGrantChain`. -/
def snapshotGrants : List MeshAccessGrant → Except GrantError Unit
  | [] => .ok ()
  | grant :: rest =>
    match assertGrantShape grant with
    | .error e => .error e
    | .ok () => snapshotGrants rest

/-- `snapshotGrantChain`, of an array without holes. -/
def snapshotGrantChain (chain : List MeshAccessGrant) (maxChainLength : ℕ) :
    Except GrantError Unit :=
  if maxChainLength < chain.length then .error .chainExceedsMaximumLength
  else snapshotGrants chain

/-- What `createMeshGrantAuthorizationMiddleware` decides for a chain and a subject; `none` is
`"deny"`. -/
def authorizeChain (chain : List MeshAccessGrant) (subjectId : Text) (now : JsNumber)
    (isTrustedRoot : MeshAccessGrant → Bool) (address : Text) (maxChainLength : ℕ) :
    Except GrantError (Option GrantAuthorization) :=
  match snapshotGrantChain chain maxChainLength with
  | .error e => .error e
  | .ok () =>
    if !isTimestamp now then .error .invalidNow
    else
      match validateGrantChain chain address subjectId now maxChainLength with
      | .error e => .error e
      | .ok (leaf, active) =>
        .ok (if chain.head?.all isTrustedRoot && active then some leaf.authorization else none)

/-- `createMeshGrantAuthorizationMiddleware`, from what the application returns: the subject that
it authenticates, and the chain that it has stored for it. -/
def authorizeByGrants (principal : Option Text) (loadedChain : Option (List MeshAccessGrant))
    (now : JsNumber) (isTrustedRoot : MeshAccessGrant → Bool) (address : Text)
    (maxChainLength : ℕ) : Except GrantError (Option GrantAuthorization) :=
  match principal with
  | none => .ok none
  | some subjectId =>
    if subjectId.isEmpty then .error .invalidPrincipal
    else
      match loadedChain with
      | none => .ok none
      | some chain => authorizeChain chain subjectId now isTrustedRoot address maxChainLength

/-- `markMeshGrantRevoked`. -/
def markMeshGrantRevoked (grant : MeshAccessGrant) (revokedAt : JsNumber) :
    Except GrantError MeshAccessGrant :=
  match assertGrantShape grant with
  | .error e => .error e
  | .ok () =>
    match check [
      (!isTimestamp revokedAt, .mustBeTimestamp .revokedAt),
      (revokedAt.lt grant.issuedAt, .revokedBeforeIssued)] with
    | .error e => .error e
    | .ok () => .ok { grant with revokedAt := grant.revokedAt.or (some revokedAt) }

/-! ## What the checks say -/

/-- What `assertGrantShape` says of the numbers of a grant. -/
structure WellShaped (grant : MeshAccessGrant) : Prop where
  grantId : grant.grantId ≠ []
  canonicalAddress : grant.canonicalAddress ≠ []
  issuerSubjectId : grant.issuerSubjectId ≠ []
  subjectId : grant.subjectId ≠ []
  parentGrantId : ∀ id, grant.parentGrantId = some id → id ≠ []
  depth : grant.delegationDepth.isSafeInteger = true
  depth_nonneg : grant.delegationDepth.lt (.finite 0) = false
  issuedAt : isTimestamp grant.issuedAt = true
  notBefore : ∀ n, grant.notBefore = some n → isTimestamp n = true
  expiresAt : ∀ n, grant.expiresAt = some n → isTimestamp n = true
  revokedAt : ∀ n, grant.revokedAt = some n → isTimestamp n = true
  window : both (fun s e => e.le s) grant.notBefore grant.expiresAt = false
  issued_before : ∀ e, grant.expiresAt = some e → e.le grant.issuedAt = false
  revoked_after : ∀ r, grant.revokedAt = some r → r.lt grant.issuedAt = false

theorem any_eq_false_iff {α : Type} {o : Option α} {p : α → Bool} :
    o.any p = false ↔ ∀ a, o = some a → p a = false := by
  cases o <;> simp

theorem isEmpty_eq_false_iff {t : Text} : t.isEmpty = false ↔ t ≠ [] := by
  cases t <;> simp

variable {grant : MeshAccessGrant}

theorem assertGrantShape_ok_iff : assertGrantShape grant = .ok () ↔ WellShaped grant := by
  rw [assertGrantShape, check_ok_iff]
  simp only [forall_mem_cons, not_mem_nil, false_implies, implies_true, and_true,
    any_eq_false_iff, isEmpty_eq_false_iff, Bool.or_eq_false_iff, Bool.not_eq_false']
  constructor
  · rintro ⟨h1, h2, h3, h4, h5, ⟨h6, h7⟩, h8, h9, h10, h11, h12, h13, h14⟩
    exact ⟨h1, h2, h3, h4, h5, h6, h7, h8, h9, h10, h11, h12, h13, h14⟩
  · rintro ⟨h1, h2, h3, h4, h5, h6, h7, h8, h9, h10, h11, h12, h13, h14⟩
    exact ⟨h1, h2, h3, h4, h5, ⟨h6, h7⟩, h8, h9, h10, h11, h12, h13, h14⟩

/-- A child that takes nothing its parent has not got. -/
structure Attenuates (parent grant : MeshAccessGrant) : Prop where
  link : grant.parentGrantId = some parent.grantId
  issuer : grant.issuerSubjectId = parent.subjectId
  issued : grant.issuedAt.lt parent.issuedAt = false
  rights : authorizationRank grant.authorization ≤ authorizationRank parent.authorization
  delegates : parent.delegationDepth.isZero = false
  depth : parent.delegationDepth.le grant.delegationDepth = false
  starts : ∀ p, parent.notBefore = some p → ∃ n, grant.notBefore = some n ∧ n.lt p = false
  expires : ∀ p, parent.expiresAt = some p → ∃ e, grant.expiresAt = some e ∧ p.lt e = false

theorem all_eq_false_iff {α : Type} {o : Option α} {p : α → Bool} :
    o.all p = false ↔ ∃ a, o = some a ∧ p a = false := by
  cases o <;> simp

theorem linkChecks_ok_iff {parent : MeshAccessGrant} :
    (∀ c ∈ linkChecks parent grant, c.1 = false) ↔ Attenuates parent grant := by
  rw [linkChecks]
  simp only [forall_mem_cons, not_mem_nil, false_implies, implies_true, and_true,
    any_eq_false_iff, all_eq_false_iff, Bool.or_eq_false_iff, decide_eq_false_iff_not, not_not,
    not_lt, ne_eq]
  constructor
  · rintro ⟨h1, h2, h3, h4, ⟨h5, h6⟩, h7, h8⟩
    exact ⟨h1, h2, h3, h4, h5, h6, h7, h8⟩
  · rintro ⟨h1, h2, h3, h4, h5, h6, h7, h8⟩
    exact ⟨h1, h2, h3, h4, ⟨h5, h6⟩, h7, h8⟩

/-- The first element has no parent, and every other one attenuates the one before it. -/
def LinksTo : Option MeshAccessGrant → MeshAccessGrant → Prop
  | none, grant => grant.parentGrantId = none
  | some parent, grant => Attenuates parent grant

variable {parent : Option MeshAccessGrant}

theorem parentChecks_ok_iff :
    (∀ c ∈ parentChecks parent grant, c.1 = false) ↔ LinksTo parent grant := by
  cases parent with
  | none => simp [parentChecks, LinksTo]
  | some parent => exact linkChecks_ok_iff

/-- The chain is well formed from an element on, after a parent and with ids that were seen. -/
def ChainFrom (address : Text) : Option MeshAccessGrant → List Text → List MeshAccessGrant → Prop
  | _, _, [] => True
  | parent, seen, grant :: rest =>
    WellShaped grant ∧ grant.grantId ∉ seen ∧ grant.canonicalAddress = address ∧
      LinksTo parent grant ∧ ChainFrom address (some grant) (grant.grantId :: seen) rest

variable {chain : List MeshAccessGrant} {address : Text} {seen : List Text} {now : JsNumber}

/-- **What the loop accepts**: a well-formed chain.  It is active if every element is. -/
theorem validateFrom_ok_iff {active : Bool} {result : Bool} :
    validateFrom address now parent seen active chain = .ok result ↔
      ChainFrom address parent seen chain ∧ result = (active && chain.all (activeAt now)) := by
  induction chain generalizing parent seen active with
  | nil =>
    rw [validateFrom, ChainFrom, all_nil, Bool.and_true, true_and, Except.ok.injEq, eq_comm]
  | cons grant rest ih =>
    have helement : check (elementChecks address parent seen grant) = .ok () ↔
        grant.grantId ∉ seen ∧ grant.canonicalAddress = address ∧ LinksTo parent grant := by
      rw [check_ok_iff, elementChecks, forall_mem_cons, forall_mem_cons, parentChecks_ok_iff]
      simp only [decide_eq_false_iff_not, ne_eq, not_not]
    rw [validateFrom, ChainFrom, ← assertGrantShape_ok_iff]
    cases hshape : assertGrantShape grant with
    | error e => simp
    | ok =>
      cases hcheck : check (elementChecks address parent seen grant) with
      | error e =>
        refine iff_of_false (by simp) ?_
        rintro ⟨⟨-, h1, h2, h3, -⟩, -⟩
        rw [helement.2 ⟨h1, h2, h3⟩] at hcheck
        exact absurd hcheck (by simp)
      | ok =>
        obtain ⟨h1, h2, h3⟩ := helement.1 hcheck
        simp only [ih, all_cons, Bool.and_assoc]
        constructor
        · rintro ⟨hrest, hresult⟩
          exact ⟨⟨trivial, h1, h2, h3, hrest⟩, hresult⟩
        · rintro ⟨⟨-, -, -, -, hrest⟩, hresult⟩
          exact ⟨hrest, hresult⟩

/-! ## Whole chains -/

theorem WellShaped.depth_isFinite (h : WellShaped grant) :
    grant.delegationDepth.isFinite = true := by
  have hdepth := h.depth
  rw [JsNumber.isSafeInteger, Bool.and_eq_true, Bool.and_eq_true] at hdepth
  exact hdepth.1.1

theorem WellShaped.exists_depth (h : WellShaped grant) :
    ∃ k : ℕ, grant.delegationDepth.value = k := by
  have hfinite := h.depth_isFinite
  have hnonneg : 0 ≤ grant.delegationDepth.value := by
    have hlt := h.depth_nonneg
    rw [← Bool.not_eq_true, JsNumber.lt_iff hfinite rfl] at hlt
    exact not_lt.1 hlt
  have hden : grant.delegationDepth.value.den = 1 := by
    have hdepth := h.depth
    rw [JsNumber.isSafeInteger, Bool.and_eq_true, Bool.and_eq_true] at hdepth
    exact of_decide_eq_true hdepth.1.2
  refine ⟨grant.delegationDepth.value.num.toNat, ?_⟩
  have hnum : 0 ≤ grant.delegationDepth.value.num := Rat.num_nonneg.2 hnonneg
  have hvalue : (grant.delegationDepth.value.num : ℚ) = grant.delegationDepth.value :=
    Rat.coe_int_num_of_den_eq_one hden
  rw [← hvalue]
  exact_mod_cast (Int.toNat_of_nonneg hnum).symm

theorem Attenuates.value_lt {parent : MeshAccessGrant} (h : Attenuates parent grant)
    (hp : WellShaped parent) (hg : WellShaped grant) :
    grant.delegationDepth.value < parent.delegationDepth.value := by
  have hdepth := h.depth
  rw [← Bool.not_eq_true, JsNumber.le_iff hp.depth_isFinite hg.depth_isFinite] at hdepth
  exact not_le.1 hdepth

theorem ChainFrom.mem (h : ChainFrom address parent seen chain) (hg : grant ∈ chain) :
    WellShaped grant ∧ grant.canonicalAddress = address := by
  induction chain generalizing parent seen with
  | nil => exact absurd hg (by simp)
  | cons x chain ih =>
    rw [ChainFrom] at h
    rcases mem_cons.1 hg with rfl | hg
    · exact ⟨h.1, h.2.2.1⟩
    · exact ih h.2.2.2.2 hg

theorem ChainFrom.isChain (h : ChainFrom address parent seen chain) : chain.IsChain Attenuates := by
  induction chain generalizing parent seen with
  | nil => exact .nil
  | cons x chain ih =>
    rw [ChainFrom] at h
    have hrest := ih h.2.2.2.2
    cases chain with
    | nil => exact .singleton x
    | cons y chain =>
      have hlink := h.2.2.2.2
      rw [ChainFrom] at hlink
      exact .cons_cons hlink.2.2.2.1 hrest

/-- **From the neighbours to all ancestors**: what holds along every link and composes holds of
every two elements, in their order. -/
theorem ChainFrom.pairwise (h : ChainFrom address parent seen chain)
    {R : MeshAccessGrant → MeshAccessGrant → Prop} (htrans : ∀ {a b c}, R a b → R b c → R a c)
    (hlink : ∀ {a b}, WellShaped a → WellShaped b → Attenuates a b → R a b) : chain.Pairwise R := by
  have hR : chain.IsChain R := by
    refine List.IsChain.imp_of_mem_imp ?_ h.isChain
    intro a b ha hb hab
    exact hlink (h.mem ha).1 (h.mem hb).1 hab
  have : IsTrans MeshAccessGrant R := ⟨fun _ _ _ => htrans⟩
  exact hR.pairwise

theorem ChainFrom.length_le {root : MeshAccessGrant}
    (h : ChainFrom address parent seen (root :: chain)) :
    (chain.length : ℚ) ≤ root.delegationDepth.value := by
  induction chain generalizing parent seen root with
  | nil =>
    obtain ⟨k, hk⟩ := (h.mem mem_cons_self).1.exists_depth
    rw [hk]
    exact_mod_cast Nat.zero_le k
  | cons x chain ih =>
    rw [ChainFrom] at h
    obtain ⟨hroot, -, -, -, hrest⟩ := h
    have hlen := ih hrest
    rw [ChainFrom] at hrest
    obtain ⟨hx, -, -, hlink, -⟩ := hrest
    have hlt := Attenuates.value_lt hlink hroot hx
    obtain ⟨k, hk⟩ := hroot.exists_depth
    obtain ⟨j, hj⟩ := hx.exists_depth
    rw [hk, hj] at hlt
    rw [hj] at hlen
    rw [hk]
    have hjk : j < k := by exact_mod_cast hlt
    have hlen' : chain.length ≤ j := by exact_mod_cast hlen
    have hgoal : (x :: chain).length ≤ k := by
      rw [length_cons]
      omega
    exact_mod_cast hgoal

/-! ### Accepted chains -/

variable {maxChainLength : ℕ} {leaf : MeshAccessGrant}

/-- **What `validateGrantChain` accepts.** -/
theorem validateGrantChain_ok_iff {subjectId : Text} {active : Bool} :
    validateGrantChain chain address subjectId now maxChainLength = .ok (leaf, active) ↔
      chain.getLast? = some leaf ∧ chain.length ≤ maxChainLength ∧ ChainFrom address none [] chain ∧
        active = chain.all (activeAt now) ∧ leaf.subjectId = subjectId := by
  unfold validateGrantChain
  cases hlast : chain.getLast? with
  | none => simp
  | some last =>
    dsimp only
    by_cases hlen : maxChainLength < chain.length
    · rw [if_pos hlen]
      refine iff_of_false (by simp) ?_
      rintro ⟨-, hle, -⟩
      omega
    · rw [if_neg hlen]
      cases hloop : validateFrom address now none [] true chain with
      | error e =>
        refine iff_of_false (by simp) ?_
        rintro ⟨-, -, hchain, -⟩
        rw [validateFrom_ok_iff.2 ⟨hchain, rfl⟩] at hloop
        exact absurd hloop (by simp)
      | ok result =>
        obtain ⟨hchain, hresult⟩ := validateFrom_ok_iff.1 hloop
        rw [Bool.true_and] at hresult
        by_cases hsubject : last.subjectId = subjectId
        · simp only [hsubject, ne_eq, not_true_eq_false, if_false, Except.ok.injEq, Prod.mk.injEq,
            some.injEq]
          constructor
          · rintro ⟨rfl, rfl⟩
            exact ⟨rfl, not_lt.1 hlen, hchain, hresult, hsubject⟩
          · rintro ⟨rfl, -, -, rfl, -⟩
            exact ⟨rfl, hresult⟩
        · simp only [ne_eq, hsubject, not_false_eq_true, if_true]
          refine iff_of_false (by simp) ?_
          rintro ⟨heq, -, -, -, hs⟩
          rw [some.inj heq] at hsubject
          exact hsubject hs

/-- The validity window of a grant contains a time. -/
structure Contains (grant : MeshAccessGrant) (now : JsNumber) : Prop where
  issued : grant.issuedAt.value ≤ now.value
  started : ∀ n, grant.notBefore = some n → n.value ≤ now.value
  not_expired : ∀ e, grant.expiresAt = some e → now.value < e.value

theorem contains_of_activeAt (h : WellShaped grant) (hnow : isTimestamp now = true)
    (hactive : activeAt now grant = true) : grant.revokedAt = none ∧ Contains grant now := by
  simp only [activeAt, Bool.and_eq_true, Bool.not_eq_true', any_eq_false_iff,
    isNone_iff_eq_none] at hactive
  obtain ⟨⟨⟨hrevoked, hissued⟩, hstart⟩, hend⟩ := hactive
  have hnow' := isTimestamp_isFinite hnow
  refine ⟨hrevoked, ?_, ?_, ?_⟩
  · rw [← Bool.not_eq_true, JsNumber.lt_iff hnow' (isTimestamp_isFinite h.issuedAt)] at hissued
    exact not_lt.1 hissued
  · intro n hn
    have hlt := hstart n hn
    rw [← Bool.not_eq_true, JsNumber.lt_iff hnow' (isTimestamp_isFinite (h.notBefore n hn))] at hlt
    exact not_lt.1 hlt
  · intro e he
    have hle := hend e he
    rw [← Bool.not_eq_true, JsNumber.le_iff (isTimestamp_isFinite (h.expiresAt e he)) hnow'] at hle
    exact not_le.1 hle

/-- What a chain that is active at a time is worth. -/
structure AttenuatedChain (address : Text) (now : JsNumber) (chain : List MeshAccessGrant)
    (leaf : MeshAccessGrant) : Prop where
  last : chain.getLast? = some leaf
  unrevoked : ∀ grant ∈ chain, grant.revokedAt = none
  window : ∀ grant ∈ chain, Contains grant now
  rights : ∀ grant ∈ chain,
    authorizationRank leaf.authorization ≤ authorizationRank grant.authorization
  address : ∀ grant ∈ chain, grant.canonicalAddress = address
  issuers : chain.IsChain fun parent grant =>
    grant.parentGrantId = some parent.grantId ∧ grant.issuerSubjectId = parent.subjectId
  depths : chain.Pairwise fun parent grant =>
    grant.delegationDepth.value < parent.delegationDepth.value
  length : ∀ root, chain.head? = some root →
    (chain.length : ℚ) ≤ root.delegationDepth.value + 1

theorem rel_getLast {α : Type} {R : α → α → Prop} (hrefl : ∀ a, R a a) {l : List α}
    (h : l.Pairwise R) {last : α} (hlast : l.getLast? = some last) : ∀ a ∈ l, R a last := by
  induction l with
  | nil => exact fun a ha => absurd ha (by simp)
  | cons x l ih =>
    rw [pairwise_cons] at h
    intro a ha
    cases l with
    | nil =>
      rw [mem_singleton.1 ha, ← some.inj hlast]
      exact hrefl _
    | cons y l =>
      rw [List.getLast?_cons_cons] at hlast
      rcases mem_cons.1 ha with rfl | ha
      · exact h.1 last (mem_of_getLast? hlast)
      · exact ih h.2 hlast a ha

/-- **An active chain only attenuates.** -/
theorem attenuatedChain_of_active {subjectId : Text} (hnow : isTimestamp now = true)
    (h : validateGrantChain chain address subjectId now maxChainLength = .ok (leaf, true)) :
    AttenuatedChain address now chain leaf := by
  obtain ⟨hlast, -, hchain, hactive, -⟩ := validateGrantChain_ok_iff.1 h
  have hall : ∀ grant ∈ chain, activeAt now grant = true := all_eq_true.1 hactive.symm
  have hrights : chain.Pairwise fun parent grant =>
      authorizationRank grant.authorization ≤ authorizationRank parent.authorization := by
    refine hchain.pairwise ?_ ?_
    · intro a b c hab hbc
      exact hbc.trans hab
    · intro a b _ _ hab
      exact hab.rights
  constructor
  · exact hlast
  · intro grant hg
    exact (contains_of_activeAt (hchain.mem hg).1 hnow (hall grant hg)).1
  · intro grant hg
    exact (contains_of_activeAt (hchain.mem hg).1 hnow (hall grant hg)).2
  · intro grant hg
    exact rel_getLast (R := fun parent grant => authorizationRank grant.authorization ≤
      authorizationRank parent.authorization) (fun _ => le_rfl) hrights hlast grant hg
  · intro grant hg
    exact (hchain.mem hg).2
  · exact hchain.isChain.imp fun _ _ hlink => ⟨hlink.link, hlink.issuer⟩
  · refine hchain.pairwise ?_ ?_
    · intro a b c hab hbc
      exact hbc.trans hab
    · intro a b ha hb hab
      exact hab.value_lt ha hb
  · intro root hroot
    cases chain with
    | nil => exact absurd hroot (by simp)
    | cons x chain =>
      obtain rfl := some.inj hroot
      have hlen := hchain.length_le
      rw [length_cons, Nat.cast_add, Nat.cast_one]
      exact add_le_add_left hlen 1

/-! ### Children -/

/-- **The child of a grant is well shaped and attenuates it.** -/
theorem attenuateMeshGrant_ok {parent child : MeshAccessGrant} {c : MeshGrantAttenuation}
    (h : attenuateMeshGrant parent c = .ok child) :
    WellShaped child ∧ Attenuates parent child ∧
      child.canonicalAddress = parent.canonicalAddress := by
  unfold attenuateMeshGrant at h
  cases hshape : assertGrantShape parent with
  | error e =>
    rw [hshape] at h
    exact absurd h (by simp)
  | ok =>
    have hp := assertGrantShape_ok_iff.1 hshape
    rw [hshape] at h
    dsimp only at h
    split at h
    · exact absurd h (by simp)
    · rename_i hcheck
      obtain rfl := Except.ok.inj h
      rw [check_ok_iff] at hcheck
      simp only [forall_mem_cons, not_mem_nil, false_implies, implies_true, and_true,
        any_eq_false_iff, isEmpty_eq_false_iff, Bool.or_eq_false_iff, Bool.not_eq_false',
        decide_eq_false_iff_not, not_lt] at hcheck
      obtain ⟨hid, hsubject, -, -, hrights, ⟨hdepth, hnonneg⟩, ⟨hzero, hless⟩, hissued, hafter,
        hstart, hend, hstarts, hends, hwindow, hbefore⟩ := hcheck
      refine ⟨⟨hid, hp.canonicalAddress, hp.subjectId, hsubject, ?_, hdepth, hnonneg, hissued,
        hstart, hend, ?_, hwindow, hbefore, ?_⟩,
        ⟨rfl, rfl, hafter, hrights, hzero, hless, ?_, ?_⟩, rfl⟩
      · intro id hsome
        rw [← some.inj hsome]
        exact hp.grantId
      · intro n hn
        exact absurd hn (by simp)
      · intro r hr
        exact absurd hr (by simp)
      · -- a start that is left out is the parent's
        intro p hpstart
        cases hn : c.notBefore with
        | none =>
          refine ⟨p, by rw [none_or, hpstart], ?_⟩
          rw [hn, hpstart] at hstarts
          exact hstarts
        | some n =>
          refine ⟨n, rfl, ?_⟩
          rw [hn, hpstart] at hstarts
          exact hstarts
      · intro p hpend
        cases he : c.expiresAt with
        | none =>
          refine ⟨p, by rw [none_or, hpend], ?_⟩
          rw [he, hpend] at hends
          exact hends
        | some e =>
          refine ⟨e, rfl, ?_⟩
          rw [he, hpend] at hends
          exact hends

theorem ChainFrom.append (h : ChainFrom address parent seen chain) {child : MeshAccessGrant}
    (hlast : chain.getLast? = some leaf) (hshape : WellShaped child) (hlink : Attenuates leaf child)
    (haddress : child.canonicalAddress = address)
    (hnew : child.grantId ∉ chain.map MeshAccessGrant.grantId) (hseen : child.grantId ∉ seen) :
    ChainFrom address parent seen (chain ++ [child]) := by
  induction chain generalizing parent seen with
  | nil => exact absurd hlast (by simp)
  | cons x chain ih =>
    rw [ChainFrom] at h
    rw [cons_append, ChainFrom]
    refine ⟨h.1, h.2.1, h.2.2.1, h.2.2.2.1, ?_⟩
    rw [map_cons, mem_cons, not_or] at hnew
    have hseen' : child.grantId ∉ x.grantId :: seen := by
      rw [mem_cons, not_or]
      exact ⟨hnew.1, hseen⟩
    cases chain with
    | nil =>
      obtain rfl := some.inj hlast
      exact ⟨hshape, hseen', haddress, hlink, trivial⟩
    | cons y chain =>
      rw [List.getLast?_cons_cons] at hlast
      exact ih h.2.2.2.2 hlast hnew.2 hseen'

/-! ### Revocation -/

/-- **A revoked copy differs in one field.** -/
theorem markMeshGrantRevoked_ok {revoked : MeshAccessGrant} {revokedAt : JsNumber}
    (h : markMeshGrantRevoked grant revokedAt = .ok revoked) :
    WellShaped revoked ∧ ∃ r, revoked = { grant with revokedAt := some r } := by
  unfold markMeshGrantRevoked at h
  cases hshape : assertGrantShape grant with
  | error e =>
    rw [hshape] at h
    exact absurd h (by simp)
  | ok =>
    have hg := assertGrantShape_ok_iff.1 hshape
    rw [hshape] at h
    dsimp only at h
    split at h
    · exact absurd h (by simp)
    · rename_i hcheck
      obtain rfl := Except.ok.inj h
      rw [check_ok_iff] at hcheck
      simp only [forall_mem_cons, not_mem_nil, false_implies, implies_true, and_true,
        Bool.not_eq_false'] at hcheck
      obtain ⟨htime, hafter⟩ := hcheck
      -- an earlier revocation stays
      have hr : ∃ r, grant.revokedAt.or (some revokedAt) = some r ∧ isTimestamp r = true ∧
          r.lt grant.issuedAt = false := by
        cases hold : grant.revokedAt with
        | none => exact ⟨revokedAt, rfl, htime, hafter⟩
        | some r => exact ⟨r, rfl, hg.revokedAt r hold, hg.revoked_after r hold⟩
      obtain ⟨r, hsome, htime', hafter'⟩ := hr
      rw [hsome]
      refine ⟨⟨hg.grantId, hg.canonicalAddress, hg.issuerSubjectId, hg.subjectId,
        hg.parentGrantId, hg.depth, hg.depth_nonneg, hg.issuedAt, hg.notBefore, hg.expiresAt, ?_,
        hg.window, hg.issued_before, ?_⟩, r, rfl⟩
      · intro n hn
        rw [← some.inj hn]
        exact htime'
      · intro n hn
        rw [← some.inj hn]
        exact hafter'

theorem ChainFrom.replace {pre post : List MeshAccessGrant} {r : JsNumber}
    (h : ChainFrom address parent seen (pre ++ grant :: post))
    (hshape : WellShaped { grant with revokedAt := some r }) :
    ChainFrom address parent seen (pre ++ { grant with revokedAt := some r } :: post) := by
  induction pre generalizing parent seen with
  | nil =>
    rw [nil_append, ChainFrom] at h ⊢
    obtain ⟨-, hseen, haddress, hlink, hrest⟩ := h
    have hlink' : LinksTo parent { grant with revokedAt := some r } := by
      cases parent with
      | none => exact hlink
      | some p =>
        exact { hlink with }
    refine ⟨hshape, hseen, haddress, hlink', ?_⟩
    cases post with
    | nil => trivial
    | cons y post =>
      rw [ChainFrom] at hrest ⊢
      obtain ⟨hy, hyseen, hyaddress, hylink, hyrest⟩ := hrest
      exact ⟨hy, hyseen, hyaddress, ⟨hylink.link, hylink.issuer, hylink.issued, hylink.rights,
        hylink.delegates, hylink.depth, hylink.starts, hylink.expires⟩, hyrest⟩
  | cons x pre ih =>
    rw [cons_append, ChainFrom] at h ⊢
    exact ⟨h.1, h.2.1, h.2.2.1, h.2.2.2.1, ih h.2.2.2.2⟩

theorem not_active_of_revoked (hg : grant ∈ chain) (hrevoked : grant.revokedAt ≠ none)
    (now : JsNumber) : chain.all (activeAt now) = false := by
  rw [List.all_eq_false]
  refine ⟨grant, hg, ?_⟩
  cases h : grant.revokedAt with
  | none => exact absurd h hrevoked
  | some r => simp [activeAt, h]

/-- **What the middleware grants**: the access of the leaf of an active chain, held by the caller
and starting at a trusted root. -/
theorem authorizeByGrants_some {principal : Option Text}
    {loadedChain : Option (List MeshAccessGrant)} {isTrustedRoot : MeshAccessGrant → Bool}
    {access : GrantAuthorization}
    (h : authorizeByGrants principal loadedChain now isTrustedRoot address maxChainLength =
      .ok (some access)) :
    ∃ chain leaf, loadedChain = some chain ∧ principal = some leaf.subjectId ∧
      access = leaf.authorization ∧ AttenuatedChain address now chain leaf ∧
      ∀ root, chain.head? = some root → isTrustedRoot root = true := by
  unfold authorizeByGrants at h
  cases principal with
  | none => exact absurd (Except.ok.inj h) (by simp)
  | some subjectId =>
    dsimp only at h
    split_ifs at h
    cases loadedChain with
    | none => exact absurd (Except.ok.inj h) (by simp)
    | some chain =>
      dsimp only [authorizeChain] at h
      split at h
      · exact absurd h (by simp)
      · split_ifs at h with hnow
        split at h
        · exact absurd h (by simp)
        · rename_i leaf active hvalid
          split_ifs at h with hgranted
          · obtain ⟨hroot, rfl⟩ := Bool.and_eq_true_iff.1 hgranted
            obtain ⟨-, -, -, -, hsubject⟩ := validateGrantChain_ok_iff.1 hvalid
            refine ⟨chain, leaf, rfl, by rw [hsubject], ?_, ?_, ?_⟩
            · exact (some.inj (Except.ok.inj h)).symm
            · exact attenuatedChain_of_active (by simpa using hnow) hvalid
            · intro root hhead
              rw [hhead] at hroot
              exact hroot
          · exact absurd (Except.ok.inj h) (by simp)

/-- **Grant chains only ever attenuate.**  A chain that is accepted as active at a time is not
revoked anywhere, valid at the time everywhere, and its leaf confers no more than any of its
ancestors; appending the child that `attenuateMeshGrant` returns for the leaf keeps it accepted; and
a grant that `markMeshGrantRevoked` has marked makes every chain through it inactive. -/
theorem grant_chains_attenuate (address : Text) (maxChainLength : ℕ) :
    (∀ chain subjectId now leaf, isTimestamp now = true →
      validateGrantChain chain address subjectId now maxChainLength = .ok (leaf, true) →
        AttenuatedChain address now chain leaf) ∧
    (∀ chain subjectId now leaf active c child,
      validateGrantChain chain address subjectId now maxChainLength = .ok (leaf, active) →
      attenuateMeshGrant leaf c = .ok child →
      child.grantId ∉ chain.map MeshAccessGrant.grantId → chain.length + 1 ≤ maxChainLength →
        validateGrantChain (chain ++ [child]) address child.subjectId now maxChainLength =
          .ok (child, active && activeAt now child)) ∧
    (∀ grant revokedAt revoked, markMeshGrantRevoked grant revokedAt = .ok revoked →
      (∀ pre post subjectId now leaf active,
        validateGrantChain (pre ++ grant :: post) address subjectId now maxChainLength =
          .ok (leaf, active) →
        ∃ leaf', validateGrantChain (pre ++ revoked :: post) address subjectId now maxChainLength =
          .ok (leaf', false)) ∧
      ∀ chain subjectId now leaf, revoked ∈ chain →
        validateGrantChain chain address subjectId now maxChainLength ≠ .ok (leaf, true)) := by
  refine ⟨?_, ?_, ?_⟩
  · intro chain subjectId now leaf hnow h
    exact attenuatedChain_of_active hnow h
  · intro chain subjectId now leaf active c child h hchild hnew hlen
    obtain ⟨hlast, -, hchain, hactive, -⟩ := validateGrantChain_ok_iff.1 h
    obtain ⟨hshape, hlink, haddress⟩ := attenuateMeshGrant_ok hchild
    have hleaf := (hchain.mem (mem_of_getLast? hlast)).2
    refine validateGrantChain_ok_iff.2 ⟨?_, ?_, ?_, ?_, rfl⟩
    · rw [List.getLast?_concat]
    · rw [length_append, length_singleton]
      exact hlen
    · exact hchain.append hlast hshape hlink (haddress.trans hleaf) hnew (by simp)
    · rw [all_append, hactive, all_cons, all_nil, Bool.and_true]
  · intro grant revokedAt revoked hmark
    obtain ⟨hshape, r, rfl⟩ := markMeshGrantRevoked_ok hmark
    refine ⟨?_, ?_⟩
    · intro pre post subjectId now leaf active h
      obtain ⟨hlast, hlen, hchain, -, hsubject⟩ := validateGrantChain_ok_iff.1 h
      have hmem : { grant with revokedAt := some r } ∈
          pre ++ { grant with revokedAt := some r } :: post :=
        mem_append_right _ mem_cons_self
      have hinactive := not_active_of_revoked hmem (by simp) now
      cases post with
      | nil =>
        obtain rfl : grant = leaf := by
          rw [List.getLast?_concat] at hlast
          exact some.inj hlast
        refine ⟨{ grant with revokedAt := some r }, validateGrantChain_ok_iff.2
          ⟨List.getLast?_concat, ?_, hchain.replace hshape, hinactive.symm, hsubject⟩⟩
        simpa using hlen
      | cons y post =>
        refine ⟨leaf, validateGrantChain_ok_iff.2
          ⟨?_, ?_, hchain.replace hshape, hinactive.symm, hsubject⟩⟩
        · rw [List.getLast?_append_cons, List.getLast?_cons_cons] at hlast ⊢
          exact hlast
        · simpa using hlen
    · intro chain subjectId now leaf hmem h
      obtain ⟨-, -, -, hactive, -⟩ := validateGrantChain_ok_iff.1 h
      rw [not_active_of_revoked hmem (by simp) now] at hactive
      exact absurd hactive (by simp)

/-- A root that may be delegated once, and what its holder asks for. -/
def exampleRoot : MeshAccessGrant :=
  ⟨[114], none, [97], [111], [111], .full, .finite 1, .finite 0, none, none, none⟩

@[inherit_doc exampleRoot]
def exampleChild : MeshGrantAttenuation :=
  ⟨[99], [115], .readonly, .finite 0, .finite 1, none, some (.finite 9)⟩

/-- A child is issued, used, and cut off with its root. -/
theorem delegated_then_revoked :
    ∃ child revoked, attenuateMeshGrant exampleRoot exampleChild = .ok child ∧
      validateGrantChain [exampleRoot, child] [97] [115] (.finite 5) 32 = .ok (child, true) ∧
      AttenuatedChain [97] (.finite 5) [exampleRoot, child] child ∧
      markMeshGrantRevoked exampleRoot (.finite 6) = .ok revoked ∧
      ∃ leaf,
        validateGrantChain [revoked, child] [97] [115] (.finite 5) 32 = .ok (leaf, false) := by
  obtain ⟨hactive, happend, hrevoke⟩ := grant_chains_attenuate [97] 32
  have hroot : validateGrantChain [exampleRoot] [97] [111] (.finite 5) 32 =
      .ok (exampleRoot, true) := by decide
  have hissue : attenuateMeshGrant exampleRoot exampleChild = .ok ⟨[99], some [114], [97], [111],
      [115], .readonly, .finite 0, .finite 1, none, some (.finite 9), none⟩ := by decide
  have hmark : markMeshGrantRevoked exampleRoot (.finite 6) =
      .ok { exampleRoot with revokedAt := some (.finite 6) } := by decide
  have hchain := happend [exampleRoot] [111] (.finite 5) exampleRoot true exampleChild _ hroot
    hissue (by decide) (by decide)
  refine ⟨_, _, hissue, hchain, hactive _ _ _ _ (by decide) hchain, hmark, ?_⟩
  exact (hrevoke exampleRoot (.finite 6) _ hmark).1 [] _ _ _ _ _ hchain

end Worker

end Interocitor
