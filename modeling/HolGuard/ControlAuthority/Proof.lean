import HolGuard.ControlAuthority.Layers
import HolGuard.Lib.Text
/-!
# Mutations and the grants that authorise them

`extension_control_proof.py` and the grant check of `approval_gate.py`.  A proof names one mutation and holds an
approval grant; consuming it takes the grant out of the process's active grants.  Times are in microseconds.
-/
namespace Guard
namespace ControlAuthority

open Lib (KeyMap isHexDigest isLowerHexDigit pythonStrip)

/-! ## Mutations -/

structure ExtensionControlMutation where
  previousRevision : Nat
  catalogDigest : String
  layers : List ExtensionControlLayer
  actorId : String
  idempotencyKey : String
  nonce : String
deriving DecidableEq, Repr

def controlLe (a b : ExtensionControl) : Bool :=
  if a.target = b.target then decide (a.state.value ≤ b.state.value) else targetLe a.target b.target

/-- The layers by kind, with the controls of each in order. -/
def canonicalLayers (layers : List ExtensionControlLayer) : List ExtensionControlLayer :=
  (layers.mergeSort fun a b => decide (a.kind.value ≤ b.kind.value)).map fun layer =>
    { layer with controls := layer.controls.mergeSort controlLe }

/-- What the digest of a mutation is taken of. -/
def ExtensionControlMutation.canonical (m : ExtensionControlMutation) : ExtensionControlMutation :=
  { m with layers := canonicalLayers m.layers }

def maxIdentityLength : Nat := 256

def validIdentity (value : String) : Bool :=
  !(pythonStrip value).toList.isEmpty && decide (value.toList.length ≤ maxIdentityLength)

/-- `__post_init__` -/
def ExtensionControlMutation.check (m : ExtensionControlMutation) : Except String Unit :=
  if !isHexDigest m.catalogDigest then .error "invalid catalog digest"
  else if [m.actorId, m.idempotencyKey, m.nonce].any fun value => !validIdentity value then
    .error "invalid mutation identity"
  else .ok ()

/-! ## Grants -/

/-- The fields of a grant its metadata repeats. -/
structure GrantFields where
  purpose : String
  action : String
  scope : String
  subject : String
  sessionNonce : String
  factorSet : List String
  strict : Bool
  usedCooldown : Bool
  passwordVerified : Bool
  totpVerified : Bool
deriving DecidableEq, Repr

structure ApprovalGateGrant where
  grantId : String
  fields : GrantFields
  expiresAt : Int
deriving DecidableEq, Repr

/-- An entry of `_ACTIVE_GRANTS`. -/
structure GrantMetadata where
  guardHome : String
  expiresEpoch : Int
  fields : GrantFields
  factorGeneration : Nat
deriving DecidableEq, Repr

/-- What the grant check reads of the gate's state file and of the secret store. -/
structure GateState where
  guardHome : String
  totpEnabled : Bool
  totpSecretAvailable : Bool
  factorGeneration : Nat
deriving DecidableEq, Repr

/-- A refusal, and whether it also drops the grant. -/
structure GrantRefusal where
  code : String
  drops : Bool

/-- The bindings a caller asks for. -/
structure GrantDemand where
  purpose : String
  strict : Bool
  action : String
  scope : String
  subject : String
  sessionNonce : String

def validateGrantLocked (gate : GateState) (active : KeyMap String GrantMetadata) (grant : ApprovalGateGrant)
    (demand : GrantDemand) (now : Int) : Except GrantRefusal GrantMetadata :=
  match active.get? grant.grantId with
  | none => .error ⟨"approval_gate_required", false⟩
  | some metadata =>
    if metadata.guardHome ≠ gate.guardHome then .error ⟨"approval_gate_required", false⟩
    else if metadata.expiresEpoch ≤ now then .error ⟨"approval_gate_grant_expired", true⟩
    else if metadata.fields ≠ grant.fields then .error ⟨"approval_gate_required", false⟩
    else if (grant.expiresAt - metadata.expiresEpoch).natAbs > 1000 then .error ⟨"approval_gate_required", false⟩
    else if metadata.factorGeneration ≠ gate.factorGeneration then .error ⟨"approval_gate_required", true⟩
    else if grant.fields.purpose ≠ demand.purpose then .error ⟨"approval_gate_required", false⟩
    else if grant.fields.action ≠ demand.action then .error ⟨"approval_gate_required", false⟩
    else if grant.fields.scope ≠ demand.scope then .error ⟨"approval_gate_required", false⟩
    else if grant.fields.subject ≠ demand.subject then .error ⟨"approval_gate_required", false⟩
    else if grant.fields.sessionNonce ≠ demand.sessionNonce then .error ⟨"approval_gate_required", false⟩
    else if demand.strict && !grant.fields.strict then .error ⟨"approval_gate_required", false⟩
    else if gate.totpEnabled then
      if !gate.totpSecretAvailable then .error ⟨"approval_gate_recovery_required", false⟩
      else if grant.fields.factorSet ≠ ["totp"] || !grant.fields.totpVerified then
        .error ⟨"approval_gate_totp_required", false⟩
      else .ok metadata
    else if demand.strict && grant.fields.factorSet ≠ ["password"] then
      .error ⟨"approval_gate_password_required", false⟩
    else .ok metadata

theorem validateGrantLocked_eq_ok {gate : GateState} {active : KeyMap String GrantMetadata} {grant : ApprovalGateGrant}
    {demand : GrantDemand} {now : Int} {metadata : GrantMetadata}
    (h : validateGrantLocked gate active grant demand now = .ok metadata) :
    active.get? grant.grantId = some metadata ∧ now < metadata.expiresEpoch ∧
    grant.fields.subject = demand.subject := by
  unfold validateGrantLocked at h
  cases hget : active.get? grant.grantId with
  | none => simp [hget] at h
  | some found =>
    simp only [hget, Lib.ite_error_eq_ok, not_not, not_le] at h
    obtain ⟨-, hexpiry, -, -, -, -, -, -, hsubject, -, -, h⟩ := h
    have hfound : found = metadata := by
      split at h
      · simp only [Lib.ite_error_eq_ok] at h
        exact Except.ok.inj h.2.2
      · simp only [Lib.ite_error_eq_ok] at h
        exact Except.ok.inj h.2
    subst hfound
    exact ⟨rfl, hexpiry, hsubject⟩

/-! ## Proofs -/

structure ExtensionControlProof where
  proofId : String
  grant : ApprovalGateGrant
  actorId : String
  previousRevision : Nat
  catalogDigest : String
  canonicalDiffDigest : String
  idempotencyKey : String
  nonce : String
  sessionNonce : String
deriving DecidableEq, Repr

/-- `digest` is the SHA-256 of the canonical mutation. -/
def validateExtensionControlProof (digest : ExtensionControlMutation → String) (proof : ExtensionControlProof)
    (m : ExtensionControlMutation) : Except String Unit :=
  if !isHexDigest proof.proofId then .error "invalid extension control proof identifier"
  else if proof.actorId ≠ m.actorId ∨ proof.previousRevision ≠ m.previousRevision ∨
      proof.catalogDigest ≠ m.catalogDigest ∨ proof.idempotencyKey ≠ m.idempotencyKey ∨ proof.nonce ≠ m.nonce ∨
      proof.canonicalDiffDigest ≠ digest m.canonical then
    .error "extension control proof does not match mutation"
  else .ok ()

theorem validateExtensionControlProof_eq_ok {digest : ExtensionControlMutation → String} {proof : ExtensionControlProof}
    {m : ExtensionControlMutation} (h : validateExtensionControlProof digest proof m = .ok ()) :
    proof.previousRevision = m.previousRevision ∧ proof.canonicalDiffDigest = digest m.canonical := by
  simp only [validateExtensionControlProof, Lib.ite_error_eq_ok, not_or, not_not] at h
  exact ⟨h.2.1.2.1, h.2.1.2.2.2.2.2⟩

def extensionControlDemand (proof : ExtensionControlProof) : GrantDemand where
  purpose := "extension_control_mutation"
  strict := true
  action := "commit-layers"
  scope := "extension-control-authority"
  subject := proof.canonicalDiffDigest
  sessionNonce := proof.sessionNonce

/-- `KeyMap` without one key: `_ACTIVE_GRANTS.pop`. -/
def dropGrant (active : KeyMap String GrantMetadata) (grantId : String) : KeyMap String GrantMetadata :=
  active.retain fun id _ => id ≠ grantId

end ControlAuthority
end Guard
