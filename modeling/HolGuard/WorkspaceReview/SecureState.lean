import HolGuard.Lib.Bytes
import HolGuard.Lib.Checks
import HolGuard.Lib.DigestTrie
/-!
# The resident state of the workspace-review authority

`workspace_review_secure_state.rs` and the record contract of `workspace_review_authority_contract.rs`.

Texts the code checks to be 64 lower-case hexadecimal digits are values of a digest type `D`, whose letters are those
digits; `Platform` has the functions the code gets from elsewhere: SHA-256 and Ed25519, and the JSON forms of its
records.  The secure record, the record file and the nodes of the claim index are the `Disk`, and a write of one of them
can fail before or after it takes effect; a secure record or a node too large to be stored is such a failure.
-/
namespace Guard.WorkspaceReview

open Lib

/-- `"active" | "revoked"` -/
inductive Status where
  | active
  | revoked
deriving DecidableEq

/-- `WorkspaceReviewClaimV1` -/
structure Claim (D : Type) where
  claimId : D
  envelopeDigest : D
  semanticDecisionDigest : Option D
  legacySemanticRecovered : Bool
  expiresAtMs : Option Nat
deriving DecidableEq

structure ClaimIndexAnchor (D : Type) where
  root : D
  claimCount : Nat
deriving DecidableEq

/-- `WorkspaceReviewAuthorityV1` -/
structure AuthorityRecord (D : Type) where
  schema : String
  version : Nat
  purpose : String
  keyAlgorithm : String
  keyId : D
  publicKey : Bytes
  workspaceBinding : D
  deviceBinding : D
  installationBinding : D
  enrollmentGeneration : Nat
  previousKeyId : Option D
  scopeContractVersion : String
  scopeBinding : D
  issuedAtMs : Nat
  expiresAtMs : Nat
  status : Status
  enrollmentSignature : Bytes

/-- `VerifiedWorkspaceReviewAuthority` -/
structure VerifiedAuthority (D : Type) where
  keyId : D
  publicKey : Bytes
  workspaceBinding : D
  deviceBinding : D
  installationBinding : D
  enrollmentGeneration : Nat
  previousKeyId : Option D
  scopeContractVersion : String
  scopeBinding : D
  issuedAtMs : Nat
  expiresAtMs : Nat
  status : Status
  recordDigest : D

/-- `WorkspaceReviewSecureStateV1` -/
structure SecureState (D : Type) where
  schema : String
  version : Nat
  authorityRecordDigest : D
  enrollmentGeneration : Nat
  keyId : D
  workspaceBinding : D
  deviceBinding : D
  installationBinding : D
  scopeContractVersion : String
  scopeBinding : D
  status : Status
  consumedClaims : List (Claim D)
  claimIndex : Option (ClaimIndexAnchor D)
  lastObservedTimeMs : Nat
  pendingAuthorityRecord : Option Bytes

abbrev ClaimNode (A D : Type) := DigestTrie.Node A D (Claim D)

/-- What the code takes from elsewhere. -/
structure Platform (A D : Type) where
  /-- `digest_bytes` -/
  digest : Bytes → D
  /-- the hexadecimal digits of a digest -/
  letters : D → List A
  length_letters : ∀ d, (letters d).length = 64
  letters_injective : Function.Injective letters
  /-- the ASCII bytes of those digits -/
  digestText : D → Bytes
  /-- the record a file's bytes are the canonical JSON of -/
  parseRecord : Bytes → Except String (AuthorityRecord D)
  /-- the canonical JSON of a record -/
  recordText : AuthorityRecord D → Bytes
  /-- the bytes are strict and canonical JSON -/
  isCanonicalJson : Bytes → Bool
  /-- the root's signature of the record without its signature field -/
  rootVerifies : AuthorityRecord D → Bool
  /-- the canonical JSON of an index node -/
  nodeText : ClaimNode A D → Bytes

def secureStateSchema : String := "guard-native-workspace-review-secure-state.v1"

def secureStateVersion : Nat := 1

def authoritySchema : String := "guard-native-workspace-review-authority.v1"

def authorityVersion : Nat := 1

def authorityPurpose : String := "cloud_review_team_delegation"

def scopeContractV1 : String := "guard-native-workspace-review-scope.v1"

def keyAlgorithmEd25519 : String := "ed25519"

def maxAuthorityBytes : Nat := 16 * 1024

def maxTtlMs : Nat := 365 * 24 * 60 * 60 * 1000

def maxReplayEntries : Nat := 1024

section

variable {A D : Type} [DecidableEq D] (p : Platform A D)

/-! ## Record contract -/

/-- The first test of `validate_record`, the time apart. -/
def recordShapeOk (r : AuthorityRecord D) : Bool :=
  r.schema == authoritySchema && r.version == authorityVersion && r.purpose == authorityPurpose &&
    r.keyAlgorithm == keyAlgorithmEd25519 && decide (0 < r.enrollmentGeneration) &&
    decide (r.publicKey.length = 32) && decide (r.deviceBinding ≠ r.installationBinding) &&
    r.scopeContractVersion == scopeContractV1 && decide (0 < r.issuedAtMs) && decide (r.issuedAtMs < r.expiresAtMs) &&
    decide (r.expiresAtMs - r.issuedAtMs ≤ maxTtlMs) && decide (r.enrollmentSignature.length = 64) &&
    !(r.enrollmentGeneration == 1 && (r.previousKeyId.isSome || r.status != .active))

def recordTimeOk (r : AuthorityRecord D) (nowMs : Option Nat) : Bool :=
  nowMs.all (fun now => decide (r.issuedAtMs ≤ now) && decide (now < r.expiresAtMs))

/-- The reason `validate_record` gives when its first test fails. -/
def recordRefusal (r : AuthorityRecord D) (nowMs : Option Nat) : String :=
  if nowMs.any (fun now => decide (r.expiresAtMs ≤ now) && decide (r.issuedAtMs < r.expiresAtMs)) then
    "native_workspace_review_authority_expired"
  else if nowMs.any (fun now => decide (now < r.issuedAtMs) && decide (r.issuedAtMs < r.expiresAtMs)) then
    "native_workspace_review_authority_not_yet_valid"
  else if r.keyAlgorithm != keyAlgorithmEd25519 then "native_workspace_review_authority_key_algorithm_unsupported"
  else "native_workspace_review_authority_invalid"

def validateRecord (r : AuthorityRecord D) (nowMs : Option Nat) : Except String Unit :=
  if !(recordShapeOk r && recordTimeOk r nowMs) then .error (recordRefusal r nowMs)
  else if r.previousKeyId == some r.keyId || (r.previousKeyId.isSome && r.status == .revoked) then
    .error "native_workspace_review_authority_generation_invalid"
  else if r.keyId ≠ p.digest r.publicKey then .error "native_workspace_review_authority_key_id_mismatch"
  else if !p.rootVerifies r then .error "native_workspace_review_authority_enrollment_invalid"
  else .ok ()

def verifiedRecord (r : AuthorityRecord D) : VerifiedAuthority D where
  keyId := r.keyId
  publicKey := r.publicKey
  workspaceBinding := r.workspaceBinding
  deviceBinding := r.deviceBinding
  installationBinding := r.installationBinding
  enrollmentGeneration := r.enrollmentGeneration
  previousKeyId := r.previousKeyId
  scopeContractVersion := r.scopeContractVersion
  scopeBinding := r.scopeBinding
  issuedAtMs := r.issuedAtMs
  expiresAtMs := r.expiresAtMs
  status := r.status
  recordDigest := p.digest (p.recordText r)

/-- `verify_record` at a time, `verify_record_for_transition` without one -/
def verifyRecord (r : AuthorityRecord D) (nowMs : Option Nat) : Except String (VerifiedAuthority D) :=
  (validateRecord p r nowMs).map (fun _ => verifiedRecord p r)

/-! ## Secure state -/

def SecureState.forAuthority (v : VerifiedAuthority D) : SecureState D where
  schema := secureStateSchema
  version := secureStateVersion
  authorityRecordDigest := v.recordDigest
  enrollmentGeneration := v.enrollmentGeneration
  keyId := v.keyId
  workspaceBinding := v.workspaceBinding
  deviceBinding := v.deviceBinding
  installationBinding := v.installationBinding
  scopeContractVersion := v.scopeContractVersion
  scopeBinding := v.scopeBinding
  status := v.status
  consumedClaims := []
  claimIndex := none
  lastObservedTimeMs := 0
  pendingAuthorityRecord := none

def SecureState.canTransitionTo (s : SecureState D) (v : VerifiedAuthority D) : Bool :=
  if s.status = .revoked ∨ v.enrollmentGeneration ≤ s.enrollmentGeneration ∨ s.workspaceBinding ≠ v.workspaceBinding ∨
      s.deviceBinding ≠ v.deviceBinding ∨ s.installationBinding ≠ v.installationBinding ∨
      s.scopeContractVersion ≠ v.scopeContractVersion ∨ s.scopeBinding ≠ v.scopeBinding then false
  else
    match v.status with
    | .active => v.previousKeyId == some s.keyId && v.keyId != s.keyId
    | .revoked => v.keyId == s.keyId && v.previousKeyId.isNone

def SecureState.matchesAuthority (s : SecureState D) (v : VerifiedAuthority D) : Bool :=
  s.schema == secureStateSchema && s.version == secureStateVersion && s.authorityRecordDigest == v.recordDigest &&
    s.enrollmentGeneration == v.enrollmentGeneration && s.keyId == v.keyId &&
    s.workspaceBinding == v.workspaceBinding && s.deviceBinding == v.deviceBinding &&
    s.installationBinding == v.installationBinding && s.scopeContractVersion == v.scopeContractVersion &&
    s.scopeBinding == v.scopeBinding && s.status == v.status

def secureStateInvalid : String := "native_workspace_review_secure_state_invalid"

def secureStateUnavailable : String := "native_workspace_review_secure_state_unavailable"

/-- A pending record is the canonical text the state's digest names. -/
def pendingOk (s : SecureState D) (bytes : Bytes) : Bool :=
  !bytes.isEmpty && decide (bytes.length ≤ maxAuthorityBytes) && decide (p.digest bytes = s.authorityRecordDigest) &&
    p.isCanonicalJson bytes

/-- Each claim and each semantic digest occurs once. -/
def claimsOk (claims : List (Claim D)) : Bool :=
  claims.all (fun c => c.expiresAtMs != some 0) && decide (claims.map Claim.claimId).Nodup &&
    decide (claims.filterMap Claim.semanticDecisionDigest).Nodup

def SecureState.validate (s : SecureState D) : Except String Unit :=
  if !(s.schema == secureStateSchema && s.version == secureStateVersion && decide (0 < s.enrollmentGeneration) &&
      decide (s.deviceBinding ≠ s.installationBinding) && s.scopeContractVersion == scopeContractV1 &&
      decide (s.consumedClaims.length ≤ maxReplayEntries) && s.claimIndex.all (fun i => decide (0 < i.claimCount))) then
    .error secureStateInvalid
  else if !s.pendingAuthorityRecord.all (pendingOk p s) then .error secureStateInvalid
  else if !claimsOk s.consumedClaims then .error secureStateInvalid
  else .ok ()

def SecureState.withPendingAuthorityRecord (s : SecureState D) (bytes : Bytes) : Except String (SecureState D) :=
  let pending := { s with pendingAuthorityRecord := some bytes }
  (pending.validate p).map (fun _ => pending)

def SecureState.clearPendingAuthorityRecord (s : SecureState D) : SecureState D :=
  { s with pendingAuthorityRecord := none }

/-- What was consumed and observed is carried over. -/
def SecureState.carryOver (s : SecureState D) : Option (SecureState D) → SecureState D
  | none => s
  | some previous =>
    { s with consumedClaims := previous.consumedClaims, claimIndex := previous.claimIndex,
             lastObservedTimeMs := previous.lastObservedTimeMs }

def stateForAuthority (v : VerifiedAuthority D) (previous : Option (SecureState D)) (pendingBytes : Option Bytes) :
    Except String (SecureState D) :=
  let state := (SecureState.forAuthority v).carryOver previous
  match pendingBytes with
  | none => .ok state
  | some bytes => state.withPendingAuthorityRecord p bytes

/-! ## The disk -/

structure Disk (A D : Type) where
  secure : Option (SecureState D)
  record : Option Bytes
  nodes : DigestTrie.Files A D (Claim D)

def Disk.empty : Disk A D := ⟨none, none, fun _ => none⟩

abbrev Session (A D : Type) := Faulty (Disk A D)

/-- `workspace_review_secure_state::load` -/
def loadSecure : Session A D (Option (SecureState D)) := do
  let disk ← Faulty.get
  match disk.secure with
  | none => pure none
  | some s => do
    Faulty.lift (s.validate p)
    pure (some s)

/-- `workspace_review_secure_state::store` -/
def storeSecure (s : SecureState D) : Session A D Unit := do
  Faulty.lift (s.validate p)
  Faulty.write (fun disk => { disk with secure := some s }) secureStateUnavailable

/-- `persist_private_bytes` of the record file -/
def persistRecord (bytes : Bytes) : Session A D Unit :=
  Faulty.write (fun disk => { disk with record := some bytes }) "native_workspace_review_authority_persistence_failed"

end
end Guard.WorkspaceReview
