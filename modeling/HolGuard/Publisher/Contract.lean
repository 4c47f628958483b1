import HolGuard.Policy.Store
/-!
# The publisher's snapshot contract

`native_policy_snapshot_codec.py` and `native_policy_snapshot_contract.py`: the limits on a JSON value, the checks a
snapshot passes before it is signed, written or read, and `build_policy_snapshot_v3`.  Values are those of the
resident's `PolicySnapshotV3`, whose canonical text is the same text here.

Parameters: the hash, and in `PublisherContext` what the publisher calls elsewhere, any of which may raise: the policy
of a configuration, the checks of the policy maps and of a control binding.
-/
namespace Guard
namespace Publisher

open Lib (Json Bytes Hash isHexDigest fitsU64 utf8)
open Contracts (NativeCommandControlBindingV1)
open Policy (EffectiveNativePolicyV3 PolicySnapshotV3 ScopeContractV3 SnapshotIntegrityV3)

def maxGeneration : Nat := 2 ^ 64 - 1

def maxJsonDepth : Nat := 32

def maxJsonCollectionItems : Nat := 4096

def maxJsonStringBytes : Nat := 1024 * 1024

def verifierKeyBytes : Nat := 32

def verifierDerivationDomain : Bytes := utf8 "hol-guard-native-policy-verifier-v1" ++ [0]

def validInputModes : List String := ["observe", "prompt", "enforce"]

/-- What the publisher calls outside these modules. -/
structure PublisherContext (Config : Type) where
  /-- `effective_native_policy_v3` -/
  effectivePolicy : Config → Except String EffectiveNativePolicyV3
  /-- `_config_value(config, "mode", "prompt")` -/
  rawMode : Config → String
  /-- `{**effective_policy, "mode": mode}` -/
  fromEffective : EffectiveNativePolicyV3 → String → Config
  /-- `capture_native_command_control_binding` -/
  captureBinding : NativeCommandControlBindingV1 → Except String NativeCommandControlBindingV1
  /-- `_validate_snapshot_policy_v3` -/
  validatePolicy : EffectiveNativePolicyV3 → Except String Unit
  /-- `validate_native_command_control_binding` -/
  validateBinding : NativeCommandControlBindingV1 → Except String Unit
  /-- `_scope_digest_v3(guard_home)` -/
  scopeDigest : String

/-! ## JSON limits -/

mutual

def validateJsonLimits (depth : Nat) : Json → Except String Unit
  | .str s =>
    if maxJsonDepth < depth then .error "native_policy_snapshot_nested_depth_exceeded"
    else if maxJsonStringBytes < s.utf8ByteSize then .error "native_policy_snapshot_string_too_large"
    else .ok ()
  | .arr vs =>
    if maxJsonDepth < depth then .error "native_policy_snapshot_nested_depth_exceeded"
    else if maxJsonCollectionItems < vs.length then .error "native_policy_snapshot_array_too_wide"
    else validateItemLimits (depth + 1) vs
  | .obj ms =>
    if maxJsonDepth < depth then .error "native_policy_snapshot_nested_depth_exceeded"
    else if maxJsonCollectionItems < ms.length then .error "native_policy_snapshot_object_too_wide"
    else validateMemberLimits (depth + 1) ms
  | _ => if maxJsonDepth < depth then .error "native_policy_snapshot_nested_depth_exceeded" else .ok ()

def validateItemLimits (depth : Nat) : List Json → Except String Unit
  | [] => .ok ()
  | v :: vs => do
    validateJsonLimits depth v
    validateItemLimits depth vs

def validateMemberLimits (depth : Nat) : List (String × Json) → Except String Unit
  | [] => .ok ()
  | (key, v) :: ms =>
    if maxJsonStringBytes < key.utf8ByteSize then .error "native_policy_snapshot_key_too_large"
    else do
      validateJsonLimits depth v
      validateMemberLimits depth ms

end

/-! ## Validation -/

section

variable {Config : Type} (sha : Hash) (ctx : PublisherContext Config)

/-- `_validate_snapshot_metadata_v3` -/
def validateMetadata (s : PolicySnapshotV3) : Except String Unit :=
  if s.schema ≠ Policy.snapshotSchema then .error "native_policy_snapshot_schema_invalid"
  else if s.version.val ≠ Policy.snapshotVersion then .error "native_policy_snapshot_version_invalid"
  else if !fitsU64 s.generation || s.generation == 0 then .error "native_policy_snapshot_generation_invalid"
  else if [s.policyDigest, s.configDigest, s.ruleDigest, s.runtimeIdentity].any (fun d => !isHexDigest d) then
    .error "native_policy_snapshot_digest_invalid"
  else if s.protocolVersion.val ≠ Policy.snapshotProtocolVersion then .error "native_policy_snapshot_protocol_invalid"
  else if s.mode ≠ "enforce" ∧ s.mode ≠ "observe" then .error "native_policy_snapshot_mode_invalid"
  else if !fitsU64 s.issuedAtMs || !fitsU64 s.expiresAtMs then .error "native_policy_snapshot_expiry_invalid"
  else if s.expiresAtMs ≤ s.issuedAtMs ∨ Policy.snapshotMaxExpiryMs < s.expiresAtMs - s.issuedAtMs then
    .error "native_policy_snapshot_expiry_invalid"
  else .ok ()

/-- `_validate_snapshot_scope_v3` -/
def validateScope (c : ScopeContractV3) : Except String Unit :=
  if c.valid then .ok () else .error "native_policy_snapshot_scope_invalid"

/-- `_validate_snapshot_integrity_v3` -/
def validateIntegrity (i : SnapshotIntegrityV3) (allowEmptyMac : Bool) : Except String Unit :=
  if i.algorithm ≠ Policy.integrityAlgorithm ∨ isHexDigest i.keyId = false then
    .error "native_policy_snapshot_integrity_invalid"
  else if !(allowEmptyMac && i.mac == "") && !isHexDigest i.mac then .error "native_policy_snapshot_integrity_invalid"
  else .ok ()

/-- `_verify_snapshot_digests_v3` -/
def verifyDigests (s : PolicySnapshotV3) : Except String Unit :=
  if s.configDigest ≠ Policy.configDigestOf sha s.effectivePolicy then
    .error "native_policy_snapshot_digest_mismatch"
  else if s.policyDigest ≠ Policy.policyDigestOf sha s then .error "native_policy_snapshot_digest_mismatch"
  else .ok ()

def validateSnapshot (s : PolicySnapshotV3) (allowEmptyMac : Bool) : Except String Unit := do
  validateJsonLimits 0 (PolicySnapshotV3.codec.encode s)
  validateMetadata s
  validateScope s.scopeContract
  ctx.validatePolicy s.effectivePolicy
  s.commandExtensions.elim (.ok ()) ctx.validateBinding
  validateIntegrity s.integrity allowEmptyMac
  verifyDigests sha s

def snapshotText (s : PolicySnapshotV3) : String := (PolicySnapshotV3.codec.encode s).text

def snapshotBytes (s : PolicySnapshotV3) : Except String String := do
  validateSnapshot sha ctx s false
  if Policy.snapshotMaxBytes < (snapshotText s).utf8ByteSize then .error "native_policy_snapshot_too_large"
  else .ok (snapshotText s)

/-! ## Building -/

/-- The mode a configuration stands for. -/
def effectiveMode (rawMode : String) (policy : EffectiveNativePolicyV3) : String :=
  if rawMode = "observe" ∨ policy.protectionPosture = "watch" then "observe" else "enforce"

/-- `derive_native_policy_verifier_key` -/
def deriveVerifierKey (policyIntegrityKey : Bytes) : Except String Bytes :=
  if policyIntegrityKey.length ≠ verifierKeyBytes then .error "native_policy_verifier_master_invalid"
  else .ok (sha.hmac policyIntegrityKey verifierDerivationDomain [])

/-- The snapshot that `build_policy_snapshot_v3` assembles, with the code it is given. -/
def assemble (policy : EffectiveNativePolicyV3) (mode runtimeIdentity ruleDigest : String) (key : Bytes)
    (generation issued expires : Nat) (binding : Option NativeCommandControlBindingV1) (mac : String) :
    PolicySnapshotV3 :=
  let unsigned : PolicySnapshotV3 := {
    schema := Policy.snapshotSchema
    version := 3
    generation := generation
    policyDigest := ""
    configDigest := Policy.configDigestOf sha policy
    ruleDigest := ruleDigest
    runtimeIdentity := runtimeIdentity
    protocolVersion := 1
    mode := mode
    scopeContract := ⟨"guard-native-scope.v1", "guard-home", ctx.scopeDigest, "request-source"⟩
    effectivePolicy := policy
    commandExtensions := binding
    issuedAtMs := issued
    expiresAtMs := expires
    integrity := ⟨Policy.integrityAlgorithm, Policy.verifierKeyId sha key, mac⟩ }
  -- the policy digest covers other members than itself
  { unsigned with policyDigest := Policy.policyDigestOf sha unsigned }

/-- `build_policy_snapshot_v3`; `nowMs` is the clock it reads when no issue time is given. -/
def buildPolicySnapshot (config : Config) (runtimeIdentity ruleDigest : String) (key : Bytes) (generation : Nat)
    (issuedAtMs expiresAtMs : Option Nat) (commandExtensions : Option NativeCommandControlBindingV1) (nowMs : Nat) :
    Except String PolicySnapshotV3 :=
  if generation = 0 ∨ isHexDigest runtimeIdentity = false ∨ isHexDigest ruleDigest = false then
    .error "native_policy_snapshot_identity_invalid"
  else if key.length ≠ verifierKeyBytes then .error "native_policy_verifier_key_invalid"
  else do
    let policy ← ctx.effectivePolicy config
    let binding ← commandExtensions.mapM ctx.captureBinding
    let mode := effectiveMode (ctx.rawMode config) policy
    let issued := issuedAtMs.getD nowMs
    let expires := expiresAtMs.getD (issued + Policy.snapshotMaxExpiryMs)
    if !validInputModes.contains (ctx.rawMode config) then .error "native_policy_snapshot_mode_invalid"
    else if expires ≤ issued ∨ Policy.snapshotMaxExpiryMs < expires - issued then
      .error "native_policy_snapshot_expiry_invalid"
    else
      let draft := assemble sha ctx policy mode runtimeIdentity ruleDigest key generation issued expires binding
      -- the size is checked with a placeholder of the code's length before the code is computed
      let sized := draft (String.ofList (List.replicate 64 '0'))
      let signed := draft (Policy.integrityMac sha sized key)
      validateSnapshot sha ctx (draft "") true
      let _ ← snapshotBytes sha ctx sized
      validateSnapshot sha ctx sized true
      let _ ← snapshotBytes sha ctx signed
      .ok signed

end

/-! ## What the proofs use -/

theorem snapshotText_injective {s t : PolicySnapshotV3} (h : snapshotText s = snapshotText t) : s = t :=
  PolicySnapshotV3.codec.encode_injective (Json.text_injective h)

variable {Config : Type} {sha : Hash} {ctx : PublisherContext Config}

theorem snapshotBytes_ok {s : PolicySnapshotV3} {bytes : String} (h : snapshotBytes sha ctx s = .ok bytes) :
    bytes = snapshotText s := by
  simp only [snapshotBytes, Lib.bind_eq_ok] at h
  obtain ⟨-, -, h⟩ := h
  rw [Lib.ite_error_eq_ok] at h
  exact (Except.ok.inj h.2).symm

theorem buildPolicySnapshot_generation {config : Config} {runtimeIdentity ruleDigest : String} {key : Bytes}
    {generation : Nat} {issuedAtMs expiresAtMs : Option Nat} {controls : Option NativeCommandControlBindingV1}
    {nowMs : Nat}
    {s : PolicySnapshotV3} (h : buildPolicySnapshot sha ctx config runtimeIdentity ruleDigest key generation issuedAtMs
      expiresAtMs controls nowMs = .ok s) : s.generation = generation := by
  simp only [buildPolicySnapshot, Lib.ite_error_eq_ok, Lib.bind_eq_ok] at h
  obtain ⟨-, -, policy, -, binding, -, -, -, -, -, -, -, -, -, -, -, h⟩ := h
  rw [← Except.ok.inj h]
  rfl

end Publisher
end Guard
