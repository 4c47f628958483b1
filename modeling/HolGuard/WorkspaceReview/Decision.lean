import HolGuard.WorkspaceReview.ClaimIndex
/-!
# Verifying and claiming a workspace-review decision

`verify_and_claim_at` of `workspace_review_decision.rs` and `consume_or_replay_claim`.  The texts of an envelope and of
a request context that should be 64 lower-case hexadecimal digits are `Hex D`: such a text, or any other.
-/
namespace Guard.WorkspaceReview

open Lib

/-- A text that `valid_lower_hex` accepts, or one that it refuses. -/
abbrev Hex (D : Type) := D ⊕ String

/-- `WorkspaceReviewDecisionEnvelopeV1` -/
structure DecisionEnvelope (F : Type) where
  schema : String
  version : Nat
  purpose : String
  authorityGeneration : Nat
  authorityKeyId : F
  authorityRecordDigest : F
  workspaceBinding : F
  deviceBinding : F
  installationBinding : F
  scopeBinding : F
  requestBinding : F
  actionBinding : F
  intentBinding : F
  revisionBinding : F
  policyBinding : F
  retryScopeBinding : F
  deliveryMode : String
  decision : String
  claimId : F
  issuedAtMs : Nat
  expiresAtMs : Nat
  decisionSignature : String

/-- `WorkspaceReviewDecisionContext` -/
structure DecisionContext (F : Type) where
  workspaceBinding : F
  deviceBinding : F
  installationBinding : F
  scopeBinding : F
  requestBinding : F
  actionBinding : F
  intentBinding : F
  revisionBinding : F
  policyBinding : F
  retryScopeBinding : F

/-- What `semantic_decision_digest` covers. -/
structure Semantics (F : Type) where
  schema : String
  version : Nat
  purpose : String
  workspaceBinding : F
  deviceBinding : F
  installationBinding : F
  scopeBinding : F
  requestBinding : F
  actionBinding : F
  intentBinding : F
  revisionBinding : F
  policyBinding : F
  retryScopeBinding : F
  deliveryMode : String
  decision : String

/-- `VerifiedWorkspaceReviewDecision` -/
structure VerifiedDecision (D : Type) where
  decision : String
  claimId : D
  authorityRecordDigest : D
  workspaceBinding : D
  deviceBinding : D
  installationBinding : D
  scopeBinding : D
  requestBinding : D
  actionBinding : D
  intentBinding : D
  revisionBinding : D
  policyBinding : D
  retryScopeBinding : D
  requestSnapshotDigest : Option D
  envelopeDigest : D
  replayed : Bool

/-- The canonical JSON forms of a decision, and Ed25519. -/
structure DecisionPlatform (A D : Type) extends Platform A D where
  envelopeText : DecisionEnvelope (Hex D) → Bytes
  /-- the envelope without its signature field -/
  signingText : DecisionEnvelope (Hex D) → Bytes
  semanticText : Semantics (Hex D) → Bytes
  /-- action, intent, revision and policy binding -/
  retryScopeText : D → D → D → D → Bytes
  /-- public key, message and hexadecimal signature -/
  signatureVerifies : Bytes → Bytes → String → Bool

def decisionSchema : String := "guard-native-workspace-review-decision.v1"

def decisionVersion : Nat := 1

def deliveryRetryOnly : String := "validated_retry_only"

def decisionDomain : Bytes := utf8 "guard-native-workspace-review-decision-v1" ++ [0]

def semanticDomain : Bytes := utf8 "guard-native-workspace-review-semantic-decision-v1" ++ [0]

def retryScopeDomain : Bytes := utf8 "guard-native-workspace-review-retry-scope-v1" ++ [0]

def DecisionEnvelope.semantics {F : Type} (e : DecisionEnvelope F) : Semantics F where
  schema := e.schema
  version := e.version
  purpose := e.purpose
  workspaceBinding := e.workspaceBinding
  deviceBinding := e.deviceBinding
  installationBinding := e.installationBinding
  scopeBinding := e.scopeBinding
  requestBinding := e.requestBinding
  actionBinding := e.actionBinding
  intentBinding := e.intentBinding
  revisionBinding := e.revisionBinding
  policyBinding := e.policyBinding
  retryScopeBinding := e.retryScopeBinding
  deliveryMode := e.deliveryMode
  decision := e.decision

/-- The envelope when all its digests are lower-case hexadecimal. -/
def DecisionEnvelope.hex {D : Type} (e : DecisionEnvelope (Hex D)) : Option (DecisionEnvelope D) := do
  let authorityKeyId ← e.authorityKeyId.getLeft?
  let authorityRecordDigest ← e.authorityRecordDigest.getLeft?
  let workspaceBinding ← e.workspaceBinding.getLeft?
  let deviceBinding ← e.deviceBinding.getLeft?
  let installationBinding ← e.installationBinding.getLeft?
  let scopeBinding ← e.scopeBinding.getLeft?
  let requestBinding ← e.requestBinding.getLeft?
  let actionBinding ← e.actionBinding.getLeft?
  let intentBinding ← e.intentBinding.getLeft?
  let revisionBinding ← e.revisionBinding.getLeft?
  let policyBinding ← e.policyBinding.getLeft?
  let retryScopeBinding ← e.retryScopeBinding.getLeft?
  let claimId ← e.claimId.getLeft?
  pure {
    schema := e.schema, version := e.version, purpose := e.purpose, authorityGeneration := e.authorityGeneration
    authorityKeyId, authorityRecordDigest, workspaceBinding, deviceBinding, installationBinding, scopeBinding
    requestBinding, actionBinding, intentBinding, revisionBinding, policyBinding, retryScopeBinding
    deliveryMode := e.deliveryMode, decision := e.decision, claimId
    issuedAtMs := e.issuedAtMs, expiresAtMs := e.expiresAtMs, decisionSignature := e.decisionSignature }

def DecisionContext.hex {D : Type} (c : DecisionContext (Hex D)) : Option (DecisionContext D) := do
  let workspaceBinding ← c.workspaceBinding.getLeft?
  let deviceBinding ← c.deviceBinding.getLeft?
  let installationBinding ← c.installationBinding.getLeft?
  let scopeBinding ← c.scopeBinding.getLeft?
  let requestBinding ← c.requestBinding.getLeft?
  let actionBinding ← c.actionBinding.getLeft?
  let intentBinding ← c.intentBinding.getLeft?
  let revisionBinding ← c.revisionBinding.getLeft?
  let policyBinding ← c.policyBinding.getLeft?
  let retryScopeBinding ← c.retryScopeBinding.getLeft?
  pure {
    workspaceBinding, deviceBinding, installationBinding, scopeBinding, requestBinding, actionBinding, intentBinding
    revisionBinding, policyBinding, retryScopeBinding }

section

variable {A D : Type} [DecidableEq D] (p : DecisionPlatform A D)

/-! ## Envelopes -/

def retryScopeBinding (action intent revision policy : D) : D :=
  p.digest (retryScopeDomain ++ p.retryScopeText action intent revision policy)

def semanticDecisionDigest (e : DecisionEnvelope (Hex D)) : D :=
  p.digest (semanticDomain ++ p.semanticText e.semantics)

def validateContext (c : DecisionContext (Hex D)) : Except String (DecisionContext D) :=
  match c.hex with
  | none => .error "native_workspace_review_decision_binding_invalid"
  | some c =>
    if c.deviceBinding = c.installationBinding ∨
        retryScopeBinding p c.actionBinding c.intentBinding c.revisionBinding c.policyBinding ≠ c.retryScopeBinding then
      .error "native_workspace_review_decision_binding_invalid"
    else .ok c

/-- The first test of `verify_envelope`, its digests apart. -/
def envelopeShapeOk (e : DecisionEnvelope D) (nowMs : Nat) : Bool :=
  e.schema == decisionSchema && e.version == decisionVersion && e.purpose == authorityPurpose &&
    e.authorityGeneration != 0 && e.deliveryMode == deliveryRetryOnly &&
    (e.decision == "allow" || e.decision == "deny") && e.issuedAtMs != 0 && decide (e.issuedAtMs < e.expiresAtMs) &&
    decide (e.expiresAtMs - e.issuedAtMs ≤ maxTtlMs) && decide (e.issuedAtMs ≤ nowMs) &&
    decide (nowMs < e.expiresAtMs) && decide (e.decisionSignature.length = 128) &&
    e.decisionSignature.toList.all isLowerHexDigit

/-- The reason `verify_envelope` gives when its first test fails. -/
def envelopeRefusal (e : DecisionEnvelope (Hex D)) (nowMs : Nat) : String :=
  if e.expiresAtMs ≤ nowMs ∧ e.issuedAtMs < e.expiresAtMs then "native_workspace_review_decision_expired"
  else if nowMs < e.issuedAtMs ∧ e.issuedAtMs < e.expiresAtMs then "native_workspace_review_decision_not_yet_valid"
  else "native_workspace_review_decision_invalid"

def verifiedDecision (raw : DecisionEnvelope (Hex D)) (e : DecisionEnvelope D) : VerifiedDecision D where
  decision := e.decision
  claimId := e.claimId
  authorityRecordDigest := e.authorityRecordDigest
  workspaceBinding := e.workspaceBinding
  deviceBinding := e.deviceBinding
  installationBinding := e.installationBinding
  scopeBinding := e.scopeBinding
  requestBinding := e.requestBinding
  actionBinding := e.actionBinding
  intentBinding := e.intentBinding
  revisionBinding := e.revisionBinding
  policyBinding := e.policyBinding
  retryScopeBinding := e.retryScopeBinding
  requestSnapshotDigest := none
  envelopeDigest := p.digest (p.envelopeText raw)
  replayed := false

def verifyEnvelope (raw : DecisionEnvelope (Hex D)) (v : VerifiedAuthority D) (context : DecisionContext (Hex D))
    (nowMs : Nat) : Except String (VerifiedDecision D) :=
  match validateContext p context with
  | .error e => .error e
  | .ok c =>
    match raw.hex.filter (fun e => envelopeShapeOk e nowMs) with
    | none => .error (envelopeRefusal raw nowMs)
    | some e =>
      if e.authorityGeneration ≠ v.enrollmentGeneration ∨ e.authorityKeyId ≠ v.keyId ∨
          e.authorityRecordDigest ≠ v.recordDigest then
        .error "native_workspace_review_decision_authority_mismatch"
      else if e.workspaceBinding ≠ v.workspaceBinding ∨ e.deviceBinding ≠ v.deviceBinding ∨
          e.installationBinding ≠ v.installationBinding ∨ e.scopeBinding ≠ v.scopeBinding ∨
          e.workspaceBinding ≠ c.workspaceBinding ∨ e.deviceBinding ≠ c.deviceBinding ∨
          e.installationBinding ≠ c.installationBinding ∨ e.scopeBinding ≠ c.scopeBinding ∨
          e.requestBinding ≠ c.requestBinding then
        .error "native_workspace_review_decision_provenance_mismatch"
      else if e.actionBinding ≠ c.actionBinding ∨ e.intentBinding ≠ c.intentBinding ∨
          e.revisionBinding ≠ c.revisionBinding ∨ e.policyBinding ≠ c.policyBinding ∨
          e.retryScopeBinding ≠ c.retryScopeBinding then
        .error "native_workspace_review_decision_binding_mismatch"
      else if !p.signatureVerifies v.publicKey (decisionDomain ++ p.signingText raw) e.decisionSignature then
        .error "native_workspace_review_decision_signature_invalid"
      else .ok (verifiedDecision p raw e)

/-! ## Claims -/

/-- The claim was made for this decision: for one recovered from before semantic digests, by this very envelope. -/
def Claim.resumes (c : Claim D) (v : VerifiedDecision D) (semantic : D) : Bool :=
  decide (c.semanticDecisionDigest = some semantic) &&
    (!c.legacySemanticRecovered || decide (c.envelopeDigest = v.envelopeDigest))

/-- The index's part of `consume_or_replay_claim`: true for a claim that is resumed, false for one not there. -/
def consumeIndexed [DecidableEq A] (index : Option (ClaimIndexAnchor D)) (v : VerifiedDecision D) (semantic : D) :
    Session A D Bool :=
  match index with
  | none => pure false
  | some anchor => do
    let claim ← findClaim p.toPlatform anchor v.claimId
    match claim with
    | some claim =>
      if claim.resumes v semantic then do
        let other ← findSemantic p.toPlatform anchor semantic
        if other ≠ some claim then Faulty.fail claimIndexInvalid else pure true
      else Faulty.fail decisionReplay
    | none => do
      let other ← findSemantic p.toPlatform anchor semantic
      if other.isSome then Faulty.fail decisionReplay else pure false

/-- A claim from before semantic digests is given one. -/
def SecureState.recoverSemantic (s : SecureState D) (claimId semantic : D) : SecureState D :=
  let index := s.consumedClaims.findIdx (fun c => decide (c.claimId = claimId))
  { s with consumedClaims := s.consumedClaims.modify index
             (fun c => { c with semanticDecisionDigest := some semantic, legacySemanticRecovered := true }) }

/-- The inline list's part of `consume_or_replay_claim`. -/
def consumeInline (s : SecureState D) (v : VerifiedDecision D) (semantic : D) : Session A D Bool :=
  match s.consumedClaims.find? (fun c => decide (c.claimId = v.claimId)) with
  | some claim =>
    if claim.resumes v semantic then pure true
    else if claim.semanticDecisionDigest = none ∧ claim.envelopeDigest = v.envelopeDigest then do
      Faulty.lift ((s.recoverSemantic v.claimId semantic).validate p.toPlatform)
      storeSecure p.toPlatform (s.recoverSemantic v.claimId semantic)
      pure true
    else Faulty.fail decisionReplay
  | none =>
    if s.consumedClaims.any (fun c => decide (c.semanticDecisionDigest = some semantic)) then
      Faulty.fail decisionReplay
    else pure false

def consumeOrReplayClaim [DecidableEq A] (s : SecureState D) (v : VerifiedDecision D) (semantic : D) :
    Session A D Bool := do
  let indexed ← consumeIndexed p s.claimIndex v semantic
  if indexed then pure true else consumeInline p s v semantic

/-! ## The call -/

/-- The time floor a state without one starts from. -/
def migratedFloor (s : SecureState D) (nowMs : Nat) : Nat :=
  if s.lastObservedTimeMs = 0 then min ((s.consumedClaims.filterMap Claim.expiresAtMs).max?.getD 0) nowMs
  else s.lastObservedTimeMs

def SecureState.withFloor (s : SecureState D) (floor : Nat) : SecureState D := { s with lastObservedTimeMs := floor }

/-- The time floor is raised before anything is verified. -/
def observeTime (s : SecureState D) (nowMs : Nat) : Session A D Unit :=
  let floor := migratedFloor s nowMs
  if nowMs < floor then Faulty.fail "native_workspace_review_clock_rollback"
  else if floor ≠ s.lastObservedTimeMs ∨ floor < nowMs then do
    Faulty.lift ((s.withFloor nowMs).validate p.toPlatform)
    storeSecure p.toPlatform (s.withFloor nowMs)
  else pure ()

/-- The decision on the state that names the authority. -/
def claimDecision [DecidableEq A] (s : SecureState D) (v : VerifiedAuthority D) (envelope : DecisionEnvelope (Hex D))
    (context : DecisionContext (Hex D)) (nowMs : Nat) : Session A D (VerifiedDecision D) := do
  let verified ← Faulty.lift (verifyEnvelope p envelope v context nowMs)
  let semantic := semanticDecisionDigest p envelope
  let resumed ← consumeOrReplayClaim p s verified semantic
  if resumed then pure { verified with replayed := true }
  else do
    recordClaim p.toPlatform s {
      claimId := verified.claimId, envelopeDigest := verified.envelopeDigest, semanticDecisionDigest := some semantic
      legacySemanticRecovered := false, expiresAtMs := some envelope.expiresAtMs }
    pure verified

def verifyAndClaimAt [DecidableEq A] (locals : LocalBindings D) (envelope : DecisionEnvelope (Hex D))
    (context : DecisionContext (Hex D)) (nowMs : Nat) : Session A D (VerifiedDecision D) := do
  let state ← loadSecure p.toPlatform
  match state with
  | none => Faulty.fail secureStateUnavailable
  | some s => do
    observeTime p s nowMs
    let authority ← loadAt p.toPlatform locals (some nowMs)
    match authority with
    | none => Faulty.fail "native_workspace_review_authority_missing"
    | some v =>
      if v.status ≠ .active then Faulty.fail "native_workspace_review_authority_revoked"
      else do
        let state ← loadSecure p.toPlatform
        match state with
        | none => Faulty.fail secureStateUnavailable
        | some s =>
          if !s.matchesAuthority v then Faulty.fail "native_workspace_review_authority_provenance_mismatch"
          else claimDecision p s v envelope context nowMs

end
end Guard.WorkspaceReview
