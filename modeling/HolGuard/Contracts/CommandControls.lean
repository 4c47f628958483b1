import HolGuard.Lib.Bytes
import HolGuard.Lib.Codec
/-!
# The command-control binding

`native_command_controls.rs` of the contracts crate: the binding a policy snapshot carries to a packaged command
program, its control layers, and the authority that numbers the changes of the controls, with the validation each goes
through and the JSON form each is written in.
-/
namespace Guard
namespace Contracts

open Lib (Json Codec isHexDigest)
open Lib.Json (onlyMembers required lookup_member)

def bindingSchema : String := "guard.native-command-control-binding.v1"

def runtimeSchema : String := "guard.extension-control-runtime-snapshot.v1"

def recoverySchema : String := "guard.native-command-control-recovery.v1"

structure NativeExtensionControlV1 where
  targetKind : String
  targetId : String
  state : String
  deriving DecidableEq, Repr

structure NativeExtensionControlLayerV1 where
  schemaVersion : String
  kind : String
  catalogDigest : String
  globalLockdown : Bool
  controls : List NativeExtensionControlV1
  deriving DecidableEq, Repr

structure NativeCommandControlRecoveryV1 where
  schema : String
  previousEpoch : Nat
  previousMutationRevision : Nat
  previousAuthorityKeyId : String
  previousFloorDigest : String
  nonce : String
  deriving DecidableEq, Repr

structure NativeCommandControlAuthorityV1 where
  epoch : Nat
  mutationRevision : Nat
  authorityKeyId : String
  recovery : Option NativeCommandControlRecoveryV1
  deriving DecidableEq, Repr

structure NativeCommandControlBindingV1 where
  schema : String
  programDigest : String
  catalogDigest : String
  trustDigest : String
  health : String
  revision : Nat
  managedRevision : Nat
  effectiveDigest : String
  layers : List NativeExtensionControlLayerV1
  authority : Option NativeCommandControlAuthorityV1
  deriving DecidableEq, Repr

/-! ## Validation -/

def NativeCommandControlAuthorityV1.validate (a : NativeCommandControlAuthorityV1) : Except String Unit :=
  if a.epoch = 0 ∨ a.mutationRevision = 0 ∨ isHexDigest a.authorityKeyId = false then
    .error "native_command_control_authority_invalid"
  else match a.recovery with
    | none => .ok ()
    | some r =>
      if r.schema ≠ recoverySchema ∨ a.epoch ≤ r.previousEpoch ∨ a.mutationRevision ≤ r.previousMutationRevision ∨
          isHexDigest r.previousAuthorityKeyId = false ∨ isHexDigest r.previousFloorDigest = false ∨
          isHexDigest r.nonce = false then
        .error "native_command_control_recovery_invalid"
      else .ok ()

def validTarget (value : String) : Bool :=
  match value.toList with
  | 'c' :: 'o' :: 'm' :: 'm' :: 'a' :: 'n' :: 'd' :: '.' :: suffix =>
    value.utf8ByteSize ≤ 256 && (suffix.splitOnP (fun c => c == '.' || c == '-')).all (fun part =>
      !part.isEmpty && part.all (fun c => ('a' ≤ c && c ≤ 'z') || ('0' ≤ c && c ≤ '9')))
  | _ => false

def validateControls : List (String × String) → List NativeExtensionControlV1 → Except String Unit
  | _, [] => .ok ()
  | seen, c :: cs =>
    if (c.targetKind ≠ "extension" ∧ c.targetKind ≠ "permission") ∨ (c.state ≠ "enabled" ∧ c.state ≠ "disabled") ∨
        validTarget c.targetId = false ∨
        Lib.containsText ".permission.".toList c.targetId.toList ≠ (c.targetKind == "permission") ∨
        (c.targetKind, c.targetId) ∈ seen then
      .error "native_command_control_target_invalid"
    else validateControls ((c.targetKind, c.targetId) :: seen) cs

def validateLayers (catalogDigest : String) : List String → List NativeExtensionControlLayerV1 → Except String Unit
  | _, [] => .ok ()
  | seen, l :: ls =>
    if l.schemaVersion ≠ "1.0.0" ∨ (l.kind ≠ "local-admin" ∧ l.kind ≠ "signed-cloud") ∨ l.kind ∈ seen ∨
        l.catalogDigest ≠ catalogDigest ∨ 512 < l.controls.length then
      .error "native_command_control_layer_invalid"
    else match validateControls [] l.controls with
      | .error e => .error e
      | .ok () => validateLayers catalogDigest (l.kind :: seen) ls

def controlHealths : List String :=
  ["unenrolled", "protected", "degraded-unacknowledged", "degraded-acknowledged", "tampered", "recovery-required"]

/-! ## The JSON forms, members in key order -/

def NativeExtensionControlV1.codec : Codec NativeExtensionControlV1 where
  encode c := .obj [("state", .str c.state), ("target_id", .str c.targetId), ("target_kind", .str c.targetKind)]
  decode
    | .obj ms => if !onlyMembers ms ["target_kind", "target_id", "state"] then none else do
        let targetKind ← required .string ms "target_kind"
        let targetId ← required .string ms "target_id"
        let state ← required .string ms "state"
        some ⟨targetKind, targetId, state⟩
    | _ => none
  decode_encode c := by simp [onlyMembers, required, lookup_member, Codec.string]

def NativeExtensionControlLayerV1.codec : Codec NativeExtensionControlLayerV1 where
  encode l := .obj [("catalog_digest", .str l.catalogDigest),
    ("controls", (Codec.list NativeExtensionControlV1.codec).encode l.controls),
    ("global_lockdown", .bool l.globalLockdown),
    ("kind", .str l.kind), ("schema_version", .str l.schemaVersion)]
  decode
    | .obj ms =>
      if !onlyMembers ms ["schema_version", "kind", "catalog_digest", "global_lockdown", "controls"] then none else do
        let schemaVersion ← required .string ms "schema_version"
        let kind ← required .string ms "kind"
        let catalogDigest ← required .string ms "catalog_digest"
        let globalLockdown ← required .bool ms "global_lockdown"
        let controls ← required (.list NativeExtensionControlV1.codec) ms "controls"
        some ⟨schemaVersion, kind, catalogDigest, globalLockdown, controls⟩
    | _ => none
  decode_encode l := by
    simp [onlyMembers, required, lookup_member, Codec.string, Codec.bool, Codec.decode_encode]

def NativeCommandControlRecoveryV1.codec : Codec NativeCommandControlRecoveryV1 where
  encode r := .obj [("nonce", .str r.nonce), ("previous_authority_key_id", .str r.previousAuthorityKeyId),
    ("previous_epoch", .num r.previousEpoch), ("previous_floor_digest", .str r.previousFloorDigest),
    ("previous_mutation_revision", .num r.previousMutationRevision), ("schema", .str r.schema)]
  decode
    | .obj ms =>
      if !onlyMembers ms ["schema", "previous_epoch", "previous_mutation_revision", "previous_authority_key_id",
          "previous_floor_digest", "nonce"] then none else do
        let schema ← required .string ms "schema"
        let previousEpoch ← required .nat ms "previous_epoch"
        let previousMutationRevision ← required .nat ms "previous_mutation_revision"
        let previousAuthorityKeyId ← required .string ms "previous_authority_key_id"
        let previousFloorDigest ← required .string ms "previous_floor_digest"
        let nonce ← required .string ms "nonce"
        some ⟨schema, previousEpoch, previousMutationRevision, previousAuthorityKeyId, previousFloorDigest, nonce⟩
    | _ => none
  decode_encode r := by simp [onlyMembers, required, lookup_member, Codec.string, Codec.nat]

theorem NativeCommandControlRecoveryV1.encode_ne_null (r : NativeCommandControlRecoveryV1) :
    NativeCommandControlRecoveryV1.codec.encode r ≠ .null := by
  simp [NativeCommandControlRecoveryV1.codec]

def NativeCommandControlAuthorityV1.codec : Codec NativeCommandControlAuthorityV1 where
  encode a := .obj [("authority_key_id", .str a.authorityKeyId), ("epoch", .num a.epoch),
    ("mutation_revision", .num a.mutationRevision),
    ("recovery", (NativeCommandControlRecoveryV1.codec.nullable NativeCommandControlRecoveryV1.encode_ne_null).encode
      a.recovery)]
  decode
    | .obj ms => if !onlyMembers ms ["epoch", "mutation_revision", "authority_key_id", "recovery"] then none else do
        let epoch ← required .nat ms "epoch"
        let mutationRevision ← required .nat ms "mutation_revision"
        let authorityKeyId ← required .string ms "authority_key_id"
        let recovery ← Json.optional
          (NativeCommandControlRecoveryV1.codec.nullable NativeCommandControlRecoveryV1.encode_ne_null) ms "recovery"
        some ⟨epoch, mutationRevision, authorityKeyId, recovery⟩
    | _ => none
  decode_encode a := by
    simp [onlyMembers, required, Json.optional, lookup_member, Codec.string, Codec.nat, Codec.decode_encode]

theorem NativeCommandControlAuthorityV1.encode_ne_null (a : NativeCommandControlAuthorityV1) :
    NativeCommandControlAuthorityV1.codec.encode a ≠ .null := by
  simp [NativeCommandControlAuthorityV1.codec]

def NativeCommandControlAuthorityV1.optionCodec : Codec (Option NativeCommandControlAuthorityV1) :=
  NativeCommandControlAuthorityV1.codec.nullable NativeCommandControlAuthorityV1.encode_ne_null

def NativeCommandControlBindingV1.codec : Codec NativeCommandControlBindingV1 where
  encode b := .obj (Json.someMember NativeCommandControlAuthorityV1.optionCodec "authority" b.authority ++
    [("catalog_digest", .str b.catalogDigest), ("effective_digest", .str b.effectiveDigest), ("health", .str b.health),
      ("layers", (Codec.list NativeExtensionControlLayerV1.codec).encode b.layers),
      ("managed_revision", .num b.managedRevision), ("program_digest", .str b.programDigest),
      ("revision", .num b.revision), ("schema", .str b.schema), ("trust_digest", .str b.trustDigest)])
  decode
    | .obj ms =>
      if !onlyMembers ms ["schema", "program_digest", "catalog_digest", "trust_digest", "health", "revision",
          "managed_revision", "effective_digest", "layers", "authority"] then none else do
        let schema ← required .string ms "schema"
        let programDigest ← required .string ms "program_digest"
        let catalogDigest ← required .string ms "catalog_digest"
        let trustDigest ← required .string ms "trust_digest"
        let health ← required .string ms "health"
        let revision ← required .nat ms "revision"
        let managedRevision ← required .nat ms "managed_revision"
        let effectiveDigest ← required .string ms "effective_digest"
        let layers ← required (.list NativeExtensionControlLayerV1.codec) ms "layers"
        let authority ← Json.optional NativeCommandControlAuthorityV1.optionCodec ms "authority"
        some ⟨schema, programDigest, catalogDigest, trustDigest, health, revision, managedRevision,
          effectiveDigest, layers, authority⟩
    | _ => none
  decode_encode b := by
    obtain ⟨schema, program, catalog, trust, health, revision, managed, effective, layers, authority⟩ := b
    cases authority with
    | none =>
      simp [Json.someMember, onlyMembers, required, Json.optional, lookup_member, Codec.string, Codec.nat,
        Codec.decode_encode]
    | some a =>
      simp [Json.someMember, onlyMembers, required, Json.optional, lookup_member, Codec.string, Codec.nat,
        Codec.decode_encode]

/-! ## The effective digest -/

def controlLe (a b : NativeExtensionControlV1) : Bool :=
  decide (a.targetKind < b.targetKind) || (a.targetKind == b.targetKind && decide (a.targetId ≤ b.targetId))

namespace NativeCommandControlBindingV1

/-- The value the effective digest is taken of: the layers in the order of their kinds, each with its controls in the
order of their targets. -/
def effectiveValue (b : NativeCommandControlBindingV1) : Json :=
  let layers := (b.layers.mergeSort (fun l m => decide (l.kind ≤ m.kind))).map (fun l =>
    { l with controls := l.controls.mergeSort controlLe })
  .obj [("catalog_digest", .str b.catalogDigest), ("health", .str b.health),
    ("layers", (Codec.list NativeExtensionControlLayerV1.codec).encode layers),
    ("managed_revision", .num b.managedRevision), ("revision", .num b.revision), ("schema_version", .str runtimeSchema)]

variable (sha : Lib.Hash)

def computeEffectiveDigest (b : NativeCommandControlBindingV1) : String :=
  let canonical := Lib.utf8 b.effectiveValue.text
  sha.hex (Lib.utf8 runtimeSchema ++ 0 :: Lib.utf8 (toString canonical.length) ++ 0 :: canonical)

def validate (b : NativeCommandControlBindingV1) : Except String Unit :=
  if b.schema ≠ bindingSchema ∨
      [b.programDigest, b.catalogDigest, b.trustDigest, b.effectiveDigest].any (fun d => !isHexDigest d) ∨
      b.health ∉ controlHealths ∨ 2 < b.layers.length then
    .error "native_command_control_binding_invalid"
  else match b.authority.elim (.ok ()) NativeCommandControlAuthorityV1.validate with
    | .error e => .error e
    | .ok () => match validateLayers b.catalogDigest [] b.layers with
      | .error e => .error e
      | .ok () =>
        if b.effectiveDigest ≠ b.computeEffectiveDigest sha then .error "native_command_control_digest_mismatch"
        else .ok ()

end NativeCommandControlBindingV1

end Contracts
end Guard
