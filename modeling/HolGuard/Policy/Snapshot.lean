import HolGuard.Contracts.CommandControls
import HolGuard.Lib.Checks
import HolGuard.Policy.EffectivePolicy
/-!
# Policy snapshots

`PolicySnapshotV3` of the policy-snapshot crate: the complete policy value a resident decides from, its canonical bytes,
the digests and the keyed authentication code it carries, and `validate_v3`.  The hash is the parameter `sha`.
-/
namespace Guard
namespace Policy

open Lib (Json Codec SortedMap Bytes Hash isHexDigest utf8)
open Lib.Json (onlyMembers required)
open Contracts (NativeCommandControlBindingV1)

def snapshotSchema : String := "hol-guard-native-policy.v3"

def snapshotVersion : Nat := 3

def snapshotProtocolVersion : Nat := 1

def snapshotMaxBytes : Nat := 256 * 1024

def snapshotMaxExpiryMs : Nat := 24 * 60 * 60 * 1000

def integrityAlgorithm : String := "hmac-sha256"

def integrityDomain : Bytes := utf8 "hol-guard-native-policy-snapshot-v3" ++ [0]

def floorDomain : Bytes := utf8 "hol-guard-native-policy-floor-v1" ++ [0]

structure ScopeContractV3 where
  schema : String
  kind : String
  scopeDigest : String
  workspaceBinding : String
  deriving DecidableEq

structure SnapshotIntegrityV3 where
  algorithm : String
  keyId : String
  mac : String
  deriving DecidableEq

instance versionBound_neZero : NeZero 65536 := ⟨by decide⟩

structure PolicySnapshotV3 where
  schema : String
  version : Fin 65536
  generation : Nat
  policyDigest : String
  configDigest : String
  ruleDigest : String
  runtimeIdentity : String
  protocolVersion : Fin 65536
  mode : String
  scopeContract : ScopeContractV3
  effectivePolicy : EffectiveNativePolicyV3
  commandExtensions : Option NativeCommandControlBindingV1
  issuedAtMs : Nat
  expiresAtMs : Nat
  integrity : SnapshotIntegrityV3
  deriving DecidableEq

/-! ## The JSON form -/

def ScopeContractV3.codec : Codec ScopeContractV3 where
  encode c := .obj [("kind", .str c.kind), ("schema", .str c.schema), ("scope_digest", .str c.scopeDigest),
    ("workspace_binding", .str c.workspaceBinding)]
  decode
    | .obj ms => if !onlyMembers ms ["schema", "kind", "scope_digest", "workspace_binding"] then none else do
        let schema ← required .string ms "schema"
        let kind ← required .string ms "kind"
        let scopeDigest ← required .string ms "scope_digest"
        let workspaceBinding ← required .string ms "workspace_binding"
        some ⟨schema, kind, scopeDigest, workspaceBinding⟩
    | _ => none
  decode_encode c := by simp [onlyMembers, required, Json.lookup_member, Codec.string]

def SnapshotIntegrityV3.codec : Codec SnapshotIntegrityV3 where
  encode i := .obj [("algorithm", .str i.algorithm), ("key_id", .str i.keyId), ("mac", .str i.mac)]
  decode
    | .obj ms => if !onlyMembers ms ["algorithm", "key_id", "mac"] then none else do
        let algorithm ← required .string ms "algorithm"
        let keyId ← required .string ms "key_id"
        let mac ← required .string ms "mac"
        some ⟨algorithm, keyId, mac⟩
    | _ => none
  decode_encode i := by simp [onlyMembers, required, Json.lookup_member, Codec.string]

def bindingOption : Codec (Option NativeCommandControlBindingV1) :=
  NativeCommandControlBindingV1.codec.nullable (fun _ h => by cases h)

namespace PolicySnapshotV3

/-- The members that the authentication code covers, in key order around it. -/
def membersBefore (s : PolicySnapshotV3) : List (String × Json) :=
  Json.someMember bindingOption "command_extensions" s.commandExtensions ++
  [("config_digest", .str s.configDigest), ("effective_policy", EffectiveNativePolicyV3.codec.encode s.effectivePolicy),
    ("expires_at_ms", .num s.expiresAtMs), ("generation", .num s.generation)]

def membersAfter (s : PolicySnapshotV3) : List (String × Json) :=
  [("issued_at_ms", .num s.issuedAtMs), ("mode", .str s.mode), ("policy_digest", .str s.policyDigest),
    ("protocol_version", (Codec.fin 65536).encode s.protocolVersion), ("rule_digest", .str s.ruleDigest),
    ("runtime_identity", .str s.runtimeIdentity), ("schema", .str s.schema),
    ("scope_contract", ScopeContractV3.codec.encode s.scopeContract), ("version", (Codec.fin 65536).encode s.version)]

def members (s : PolicySnapshotV3) : List (String × Json) :=
  s.membersBefore ++ [("integrity", SnapshotIntegrityV3.codec.encode s.integrity)] ++ s.membersAfter

def knownMembers : List String :=
  ["schema", "version", "generation", "policy_digest", "config_digest", "rule_digest", "runtime_identity",
    "protocol_version", "mode", "scope_contract", "effective_policy", "command_extensions", "issued_at_ms",
    "expires_at_ms", "integrity"]

def codec : Codec PolicySnapshotV3 where
  encode s := .obj s.members
  decode
    | .obj ms => if !onlyMembers ms knownMembers then none else do
        let schema ← required .string ms "schema"
        let version ← required (.fin 65536) ms "version"
        let generation ← required .nat ms "generation"
        let policyDigest ← required .string ms "policy_digest"
        let configDigest ← required .string ms "config_digest"
        let ruleDigest ← required .string ms "rule_digest"
        let runtimeIdentity ← required .string ms "runtime_identity"
        let protocolVersion ← required (.fin 65536) ms "protocol_version"
        let mode ← required .string ms "mode"
        let scopeContract ← required ScopeContractV3.codec ms "scope_contract"
        let effectivePolicy ← required EffectiveNativePolicyV3.codec ms "effective_policy"
        let commandExtensions ← Json.optional bindingOption ms "command_extensions"
        let issuedAtMs ← required .nat ms "issued_at_ms"
        let expiresAtMs ← required .nat ms "expires_at_ms"
        let integrity ← required SnapshotIntegrityV3.codec ms "integrity"
        some ⟨schema, version, generation, policyDigest, configDigest, ruleDigest, runtimeIdentity,
          protocolVersion, mode, scopeContract, effectivePolicy, commandExtensions, issuedAtMs, expiresAtMs, integrity⟩
    | _ => none
  decode_encode s := by
    have honly : onlyMembers s.members knownMembers = true := by
      simp only [members, membersBefore, membersAfter, Json.onlyMembers_append, Bool.and_eq_true]
      refine ⟨⟨⟨Json.onlyMembers_someMember _ _ (by decide), ?_⟩, ?_⟩, ?_⟩ <;> simp [onlyMembers, knownMembers]
    have hbinding : Json.optional bindingOption s.members "command_extensions" = some s.commandExtensions :=
      Json.optional_of_lookup (by
        simp [members, membersBefore, membersAfter, List.lookup_append, Json.lookup_member, Json.lookup_someMember])
    simp only [honly, hbinding]
    simp [members, membersBefore, membersAfter, required, List.lookup_append, Json.lookup_member,
      Json.lookup_someMember, Codec.string, Codec.nat, Codec.decode_encode]

end PolicySnapshotV3

/-- `snapshot_bytes`: the canonical text, within the size limit. -/
def snapshotBytes (s : PolicySnapshotV3) : Except String String :=
  let bytes := (PolicySnapshotV3.codec.encode s).text
  if snapshotMaxBytes < bytes.utf8ByteSize then .error "snapshot_too_large" else .ok bytes

/-- `snapshot_signing_bytes`: the canonical text without the `integrity` member. -/
def snapshotSigningBytes (s : PolicySnapshotV3) : String := Json.text (.obj (s.membersBefore ++ s.membersAfter))

/-! ## Digests -/

section

variable (sha : Hash)

def verifierKeyId (key : Bytes) : String := sha.hex key

def generationFloorMac (generation : Nat) (policyDigest : String) (key : Bytes) : String :=
  sha.hmacHex key floorDomain (Lib.beBytes generation ++ 0 :: utf8 policyDigest)

def configDigestOf (p : EffectiveNativePolicyV3) : String :=
  sha.hex (utf8 (EffectiveNativePolicyV3.codec.encode p).text)

/-- `policy_digest` -/
def policyDigestOf (s : PolicySnapshotV3) : String :=
  let binding : List (String × Json) := match s.commandExtensions with
    | none => []
    | some b => [("command_extensions_digest",
        .str (sha.hex (utf8 (NativeCommandControlBindingV1.codec.encode b).text)))]
  sha.hex (utf8 (Json.text (.obj (binding ++
    [("config_digest", .str s.configDigest), ("effective_policy_digest", .str (configDigestOf sha s.effectivePolicy)),
      ("mode", .str s.mode), ("protocol_version", .num s.protocolVersion), ("rule_digest", .str s.ruleDigest),
      ("runtime_identity", .str s.runtimeIdentity), ("scope_digest", .str s.scopeContract.scopeDigest),
      ("version", .num s.version)]))))

def integrityMac (s : PolicySnapshotV3) (key : Bytes) : String :=
  sha.hmacHex key integrityDomain (utf8 (snapshotSigningBytes s))

/-! ## Validation -/

def ScopeContractV3.valid (c : ScopeContractV3) : Bool :=
  c.schema == "guard-native-scope.v1" && c.kind == "guard-home" && c.workspaceBinding == "request-source" &&
    [c.schema, c.kind, c.workspaceBinding].all validBoundedString && isHexDigest c.scopeDigest

def validateV3 (s : PolicySnapshotV3) (minimumGeneration : Nat) (expectedRuntimeIdentity expectedRuleDigest : String)
    (key : Bytes) (nowMs : Nat) : Except String Unit :=
  if s.schema ≠ snapshotSchema then .error "snapshot_schema_mismatch"
  else if s.version.val ≠ snapshotVersion then .error "snapshot_version_mismatch"
  else if s.generation = 0 then .error "snapshot_generation_invalid"
  else if s.generation < minimumGeneration then .error "snapshot_generation_downgrade"
  else if [s.policyDigest, s.configDigest, s.ruleDigest, s.runtimeIdentity, expectedRuntimeIdentity,
      expectedRuleDigest].any (fun d => !isHexDigest d) then .error "snapshot_digest_invalid"
  else if s.runtimeIdentity ≠ expectedRuntimeIdentity then .error "snapshot_runtime_identity_mismatch"
  else if s.ruleDigest ≠ expectedRuleDigest then .error "snapshot_rule_digest_mismatch"
  else if s.protocolVersion.val ≠ snapshotProtocolVersion then .error "snapshot_protocol_mismatch"
  else if s.mode ≠ "enforce" ∧ s.mode ≠ "observe" then .error "snapshot_mode_invalid"
  else if !s.scopeContract.valid then .error "snapshot_scope_invalid"
  else if !s.effectivePolicy.validate then .error "snapshot_policy_invalid"
  else if (s.commandExtensions.elim (.ok ()) (NativeCommandControlBindingV1.validate sha)).toBool = false then
    .error "snapshot_policy_invalid"
  else if s.expiresAtMs ≤ s.issuedAtMs ∨ snapshotMaxExpiryMs < s.expiresAtMs - s.issuedAtMs then
    .error "snapshot_expiry_invalid"
  else if s.expiresAtMs ≤ nowMs then .error "snapshot_expired"
  else if s.integrity.algorithm ≠ integrityAlgorithm ∨ s.integrity.keyId ≠ verifierKeyId sha key ∨
      isHexDigest s.integrity.mac = false then .error "snapshot_integrity_invalid"
  else if s.configDigest ≠ configDigestOf sha s.effectivePolicy ∨ s.policyDigest ≠ policyDigestOf sha s then
    .error "snapshot_digest_mismatch"
  else if integrityMac sha s key ≠ s.integrity.mac then .error "snapshot_integrity_mismatch"
  else .ok ()

end

/-- A valid snapshot stays valid until it expires, for every minimum up to its own generation. -/
theorem validateV3_later {sha : Hash} {s : PolicySnapshotV3} {minimum minimum' now now' : Nat} {runtime rule : String}
    {key : Bytes} (h : validateV3 sha s minimum runtime rule key now = .ok ()) (hmin : minimum' ≤ s.generation)
    (hnow : now' < s.expiresAtMs) : validateV3 sha s minimum' runtime rule key now' = .ok () := by
  simp only [validateV3, Lib.ite_error_eq_ok] at h ⊢
  obtain ⟨h1, h2, h3, -, h5, h6, h7, h8, h9, h10, h11, h12, h13, -, hrest⟩ := h
  exact ⟨h1, h2, h3, Nat.not_lt.2 hmin, h5, h6, h7, h8, h9, h10, h11, h12, h13, Nat.not_le.2 hnow, hrest⟩

/-! ## A small snapshot for concrete runs, under the hash whose digests are all zero -/

def zeroDigest : String := "0000000000000000000000000000000000000000000000000000000000000000"

def samplePolicy : EffectiveNativePolicyV3 where
  protectionPosture := "protected"
  securityLevel := "balanced"
  defaultAction := "review"
  unknownPublisherAction := "review"
  changedHashAction := "review"
  newNetworkDomainAction := "review"
  subprocessAction := "review"
  riskActions := .empty
  harnessRiskActions := .empty
  harnessActions := .empty
  publisherActions := .empty
  artifactActions := .empty
  mcpToolActions := .empty
  mcpProviderActions := .empty
  mcpProviderCatalogHash := none
  sandboxAnalysis := "off"
  receiptRedactionLevel := "full"

def sampleControls (health : String) (revision : Nat)
    (authority : Option Contracts.NativeCommandControlAuthorityV1) : NativeCommandControlBindingV1 where
  schema := Contracts.bindingSchema
  programDigest := zeroDigest
  catalogDigest := zeroDigest
  trustDigest := zeroDigest
  health := health
  revision := revision
  managedRevision := 1
  effectiveDigest := zeroDigest
  layers := []
  authority := authority

def sampleSnapshot (generation : Nat) (controls : Option NativeCommandControlBindingV1) : PolicySnapshotV3 where
  schema := snapshotSchema
  version := 3
  generation := generation
  policyDigest := zeroDigest
  configDigest := zeroDigest
  ruleDigest := zeroDigest
  runtimeIdentity := zeroDigest
  protocolVersion := 1
  mode := "enforce"
  scopeContract := ⟨"guard-native-scope.v1", "guard-home", zeroDigest, "request-source"⟩
  effectivePolicy := samplePolicy
  commandExtensions := controls
  issuedAtMs := 1
  expiresAtMs := 100
  integrity := ⟨integrityAlgorithm, zeroDigest, zeroDigest⟩

theorem isHexDigest_zeroDigest : isHexDigest zeroDigest = true := by decide +kernel

theorem hexEncode_zero : Lib.hexEncode (List.replicate 32 0) = zeroDigest := by decide +kernel

theorem validate_samplePolicy : samplePolicy.validate = true := by decide +kernel

theorem validateV3_sample {generation minimum now : Nat} (hgen : generation ≠ 0) (hmin : minimum ≤ generation)
    (hnow : now < 100) :
    validateV3 .zero (sampleSnapshot generation none) minimum zeroDigest zeroDigest [] now = .ok () := by
  have hhex : ∀ bytes, Hash.zero.hex bytes = zeroDigest := fun _ => hexEncode_zero
  have hhmac : ∀ key label message, Hash.zero.hmacHex key label message = zeroDigest := fun _ _ _ => hexEncode_zero
  have hscope : ScopeContractV3.valid ⟨"guard-native-scope.v1", "guard-home", zeroDigest, "request-source"⟩ = true := by
    decide +kernel
  simp only [validateV3, Lib.ite_error_eq_ok]
  simp [sampleSnapshot, hgen, hmin, hnow, isHexDigest_zeroDigest, validate_samplePolicy, hscope, hhex, hhmac,
    verifierKeyId, configDigestOf, policyDigestOf, integrityMac, snapshotVersion, snapshotProtocolVersion,
    snapshotMaxExpiryMs, Except.toBool]

end Policy
end Guard
