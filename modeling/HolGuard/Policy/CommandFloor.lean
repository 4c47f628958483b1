import HolGuard.Policy.Snapshot
/-!
# The command-control floor

`policy_store_command_floor.rs`: what a resident keeps of the last protected command-control binding, so that an older
one is refused even when the snapshot that carried it is gone.  A new authority epoch is admitted only with a recovery
record that names the floor it replaces by a digest of its canonical JSON.
-/
namespace Guard
namespace Policy

open Lib (Json Codec Bytes Hash isHexDigest utf8)
open Contracts (NativeCommandControlAuthorityV1 NativeCommandControlRecoveryV1)

structure CommandControlFloor where
  revision : Nat
  managedRevision : Nat
  effectiveDigest : String
  authority : Option NativeCommandControlAuthorityV1
  previousFloorDigest : Option String
  deriving DecidableEq, Repr

namespace CommandControlFloor

def members (f : CommandControlFloor) : List (String × Json) :=
  Json.someMember NativeCommandControlAuthorityV1.optionCodec "authority" f.authority ++
  [("effective_digest", .str f.effectiveDigest), ("managed_revision", .num f.managedRevision)] ++
  Json.someMember hashOption "previous_floor_digest" f.previousFloorDigest ++ [("revision", .num f.revision)]

def knownMembers : List String :=
  ["revision", "managed_revision", "effective_digest", "authority", "previous_floor_digest"]

def codec : Codec CommandControlFloor where
  encode f := .obj f.members
  decode
    | .obj ms => if !Json.onlyMembers ms knownMembers then none else do
        let revision ← Json.required .nat ms "revision"
        let managedRevision ← Json.required .nat ms "managed_revision"
        let effectiveDigest ← Json.required .string ms "effective_digest"
        let authority ← Json.optional NativeCommandControlAuthorityV1.optionCodec ms "authority"
        let previousFloorDigest ← Json.optional hashOption ms "previous_floor_digest"
        some ⟨revision, managedRevision, effectiveDigest, authority, previousFloorDigest⟩
    | _ => none
  decode_encode f := by
    have honly : Json.onlyMembers f.members knownMembers = true := by
      simp only [members, Json.onlyMembers_append, Bool.and_eq_true]
      refine ⟨⟨⟨Json.onlyMembers_someMember _ _ (by decide), ?_⟩, Json.onlyMembers_someMember _ _ (by decide)⟩, ?_⟩ <;>
        simp [Json.onlyMembers, knownMembers]
    have hauthority : Json.optional NativeCommandControlAuthorityV1.optionCodec f.members "authority" =
        some f.authority :=
      Json.optional_of_lookup (by
        simp [members, List.lookup_append, Json.lookup_member, Json.lookup_someMember])
    have hprevious : Json.optional hashOption f.members "previous_floor_digest" = some f.previousFloorDigest :=
      Json.optional_of_lookup (by
        simp [members, List.lookup_append, Json.lookup_member, Json.lookup_someMember])
    simp only [honly, hauthority, hprevious]
    simp [members, Json.required, List.lookup_append, Json.lookup_member, Json.lookup_someMember, Codec.string,
      Codec.nat]

theorem encode_ne_null (f : CommandControlFloor) : codec.encode f ≠ .null := by
  simp [codec]

def optionCodec : Codec (Option CommandControlFloor) := codec.nullable encode_ne_null

end CommandControlFloor

/-- The floor a protected binding gives. -/
def snapshotFloor (snapshot : PolicySnapshotV3) : Option CommandControlFloor :=
  match snapshot.commandExtensions with
  | none => none
  | some b =>
    if b.health = "protected" then
      some ⟨b.revision, b.managedRevision, b.effectiveDigest, b.authority,
        (b.authority.bind (·.recovery)).map (·.previousFloorDigest)⟩
    else none

section

variable (sha : Hash)

/-- What the link digest of a floor is taken of. -/
def floorLinkMessage (floor : Option CommandControlFloor) : Bytes :=
  utf8 "hol-guard.native-command-control-floor-link.v1" ++ 0 :: utf8 (CommandControlFloor.optionCodec.encode floor).text

def floorLinkDigest (floor : Option CommandControlFloor) : String := sha.hex (floorLinkMessage floor)

def zeroKeyId : String := "0000000000000000000000000000000000000000000000000000000000000000"

/-- The recovery record names the authority it replaces; where there was none, the zero one. -/
def recoveryMatches (current : Option CommandControlFloor) (candidate : CommandControlFloor)
    (recovery : NativeCommandControlRecoveryV1) : Bool :=
  let previous := current.bind (·.authority)
  recovery.previousFloorDigest == floorLinkDigest sha current &&
    recovery.previousEpoch == previous.elim 0 (·.epoch) &&
    recovery.previousMutationRevision == previous.elim 0 (·.mutationRevision) &&
    recovery.previousAuthorityKeyId == previous.elim zeroKeyId (·.authorityKeyId) &&
    candidate.previousFloorDigest == some recovery.previousFloorDigest

/-- The end of `validate_authority_transition`, for an authority that starts a new epoch. -/
def validateRecovery (current : Option CommandControlFloor) (candidate : CommandControlFloor)
    (authority : NativeCommandControlAuthorityV1) : Except String Bool :=
  match authority.recovery with
  | none => .error "native_command_control_recovery_missing"
  | some recovery =>
    if recoveryMatches sha current candidate recovery then .ok true
    else .error "native_command_control_recovery_context_mismatch"

/-- `validate_authority_transition`: whether the candidate is a recovery, when it may follow the current floor. -/
def validateAuthorityTransition (current : Option CommandControlFloor) (candidate : CommandControlFloor) :
    Except String Bool :=
  match candidate.authority with
  | none =>
    if (current.bind (·.authority)).isSome then .error "native_command_control_authority_removed" else .ok false
  | some authority =>
    match authority.validate with
    | .error e => .error e
    | .ok () =>
      match current.bind (·.authority) with
      | some previous =>
        if authority.epoch < previous.epoch ∨ authority.mutationRevision < previous.mutationRevision then
          .error "native_command_control_authority_downgrade"
        else if authority.epoch = previous.epoch then
          if authority.authorityKeyId ≠ previous.authorityKeyId ∨ authority.recovery ≠ previous.recovery then
            .error "native_command_control_authority_epoch_reused"
          else if authority.mutationRevision = previous.mutationRevision ∧ current ≠ some candidate then
            .error "native_command_control_mutation_reused"
          else .ok false
        else if authority.mutationRevision ≤ previous.mutationRevision then
          .error "native_command_control_authority_downgrade"
        else validateRecovery sha current candidate authority
      | none =>
        if authority.epoch = 1 ∧ authority.recovery = none then .ok false
        else validateRecovery sha current candidate authority

def nextFloor (current : Option CommandControlFloor) (snapshot : PolicySnapshotV3) :
    Except String (Option CommandControlFloor) :=
  if current.isSome ∧ snapshot.commandExtensions = none then .error "native_command_control_binding_removed"
  else if current.isSome ∧ snapshot.commandExtensions.any (fun b => b.health == "unenrolled") then
    .error "native_command_control_authority_downgrade"
  else match snapshotFloor snapshot with
    | none => .ok current
    | some candidate =>
      match validateAuthorityTransition sha current candidate with
      | .error e => .error e
      | .ok recovery =>
        match (if recovery then none else current) with
        | none => .ok (some candidate)
        | some floor =>
          if candidate.revision < floor.revision ∨ candidate.managedRevision < floor.managedRevision then
            .error "native_command_control_revision_downgrade"
          else if candidate.revision = floor.revision ∧ candidate.managedRevision = floor.managedRevision ∧
              candidate.effectiveDigest ≠ floor.effectiveDigest then
            .error "native_command_control_revision_reused"
          else .ok (some candidate)

/-- `authority_floor_mac`: the code over the generation, the policy digest and, when there is one, the control floor. -/
def authorityFloorMac (generation : Nat) (policyDigest : String) (controls : Option CommandControlFloor) (key : Bytes) :
    Except String String :=
  match controls with
  | none => .ok (generationFloorMac sha generation policyDigest key)
  | some f =>
    if isHexDigest f.effectiveDigest = false then .error "native_command_control_floor_invalid"
    else match f.authority.elim (.ok ()) NativeCommandControlAuthorityV1.validate with
      | .error e => .error e
      | .ok () =>
        if f.previousFloorDigest.any (fun d => !isHexDigest d) ∨
            f.previousFloorDigest ≠ (f.authority.bind (·.recovery)).map (·.previousFloorDigest) then
          .error "native_command_control_floor_invalid"
        else
          let value : Json :=
            .obj [("command_controls", CommandControlFloor.codec.encode f), ("policy_digest", .str policyDigest)]
          .ok (generationFloorMac sha generation
            ("guard-native-policy-command-control-floor.v1\x00" ++ value.text) key)

end

end Policy
end Guard
