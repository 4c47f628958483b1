import HolGuard.Lib.JsonLimits
import HolGuard.Lib.Machine
import HolGuard.Policy.CommandFloor
/-!
# The resident policy store

`policy_store.rs` with its `_authority` and `_persistence` parts: one record on disk that holds the generation floor,
the digest and the snapshot, a state in memory beside it, `push`, and the load at the start of a process.  The record is
written to a temporary file that then takes the record's place; a fault at the directory sync comes after that, so disk
and memory can differ.

Parameters: the hash, the JSON reader, and the admission of a snapshot (the compilation of its rules), which may refuse.
Not modelled: file ownership and permissions, the watcher of foreign changes; the migration of older files is in
`LegacyMigration`.
-/
namespace Guard
namespace Policy

open Lib (Json Codec Bytes Hash isHexDigest Machine fitsU64)
open Contracts (NativeCommandControlAuthorityV1 NativeCommandControlBindingV1 NativeCommandControlRecoveryV1)

def authorityRecordSchema : String := "guard-policy-snapshot-authority.v3"

def authorityRecordMaxBytes : Nat := snapshotMaxBytes + 16 * 1024

def pushSchema : String := "guard-policy-snapshot-push.v1"

def ackRequiresNewGeneration : String := "native_policy_snapshot_requires_new_generation"

/-! ## The record on disk -/

structure PolicyAuthorityRecordV3 where
  schema : String
  generationFloor : Nat
  policyDigest : String
  snapshot : Option PolicySnapshotV3
  floorMac : String
  commandControlFloor : Option CommandControlFloor
  deriving DecidableEq

def PolicySnapshotV3.optionCodec : Codec (Option PolicySnapshotV3) :=
  PolicySnapshotV3.codec.nullable (fun _ h => by cases h)

namespace PolicyAuthorityRecordV3

def members (r : PolicyAuthorityRecordV3) : List (String × Json) :=
  Json.someMember CommandControlFloor.optionCodec "command_control_floor" r.commandControlFloor ++
  [("floor_mac", .str r.floorMac), ("generation_floor", .num r.generationFloor), ("policy_digest", .str r.policyDigest),
    ("schema", .str r.schema), ("snapshot", PolicySnapshotV3.optionCodec.encode r.snapshot)]

def knownMembers : List String :=
  ["schema", "generation_floor", "policy_digest", "snapshot", "floor_mac", "command_control_floor"]

def codec : Codec PolicyAuthorityRecordV3 where
  encode r := .obj r.members
  decode
    | .obj ms => if !Json.onlyMembers ms knownMembers then none else do
        let schema ← Json.required .string ms "schema"
        let generationFloor ← Json.required .nat ms "generation_floor"
        let policyDigest ← Json.required .string ms "policy_digest"
        let snapshot ← Json.optional PolicySnapshotV3.optionCodec ms "snapshot"
        let floorMac ← Json.required .string ms "floor_mac"
        let commandControlFloor ← Json.optional CommandControlFloor.optionCodec ms "command_control_floor"
        some ⟨schema, generationFloor, policyDigest, snapshot, floorMac, commandControlFloor⟩
    | _ => none
  decode_encode r := by
    have honly : Json.onlyMembers r.members knownMembers = true := by
      simp only [members, Json.onlyMembers_append, Bool.and_eq_true]
      exact ⟨Json.onlyMembers_someMember _ _ (by decide), by simp [Json.onlyMembers, knownMembers]⟩
    have hfloor : Json.optional CommandControlFloor.optionCodec r.members "command_control_floor" =
        some r.commandControlFloor :=
      Json.optional_of_lookup (by simp [members, List.lookup_append, Json.lookup_member, Json.lookup_someMember])
    have hsnapshot : Json.optional PolicySnapshotV3.optionCodec r.members "snapshot" = some r.snapshot := by
      simp [Json.optional, members, List.lookup_append, Json.lookup_member, Json.lookup_someMember, Codec.decode_encode]
    simp only [honly, hfloor, hsnapshot]
    simp [members, Json.required, List.lookup_append, Json.lookup_member, Json.lookup_someMember, Codec.string,
      Codec.nat]

end PolicyAuthorityRecordV3

/-! ## Requests -/

structure PolicySnapshotPushV1 where
  schema : String
  snapshot : PolicySnapshotV3
  deriving DecidableEq

structure PolicySnapshotAckV1 where
  status : String
  generation : Nat
  policyDigest : String
  idempotent : Bool
  residentGeneration : Nat
  deriving DecidableEq, Repr

def NativeCommandControlAuthorityV1.fits (a : NativeCommandControlAuthorityV1) : Bool :=
  fitsU64 a.epoch && fitsU64 a.mutationRevision &&
    a.recovery.all (fun r => fitsU64 r.previousEpoch && fitsU64 r.previousMutationRevision)

def NativeCommandControlBindingV1.fits (b : NativeCommandControlBindingV1) : Bool :=
  fitsU64 b.revision && fitsU64 b.managedRevision && b.authority.all NativeCommandControlAuthorityV1.fits

/-- The numbers of the snapshot are numbers of 64 bits. -/
def PolicySnapshotV3.fits (s : PolicySnapshotV3) : Bool :=
  fitsU64 s.generation && fitsU64 s.issuedAtMs && fitsU64 s.expiresAtMs &&
    s.commandExtensions.all NativeCommandControlBindingV1.fits

/-- `serde_json::from_value`, which also refuses a number its field cannot hold. -/
def PolicySnapshotPushV1.fromValue : Json → Option PolicySnapshotPushV1
  | .obj ms => if !Json.onlyMembers ms ["schema", "snapshot"] then none else do
      let schema ← Json.required .string ms "schema"
      let snapshot ← Json.required PolicySnapshotV3.codec ms "snapshot"
      if snapshot.fits then some ⟨schema, snapshot⟩ else none
  | _ => none

/-! ## The store -/

/-- What a process checks snapshots against. -/
structure StoreContext where
  runtimeIdentity : String
  ruleDigest : String
  scopeDigest : String
  verifierKey : Bytes
  residentGeneration : Nat
  deriving DecidableEq

structure PolicyState where
  snapshot : Option PolicySnapshotV3
  canonicalBytes : String
  generationFloor : Nat
  policyDigest : Option String
  invalidOnStartup : Bool
  commandControlFloor : Option CommandControlFloor
  deriving DecidableEq

structure LoadedAuthority where
  snapshot : Option PolicySnapshotV3
  canonicalBytes : String
  generationFloor : Nat
  policyDigest : Option String
  invalidOnStartup : Bool
  migrate : Bool
  commandControlFloor : Option CommandControlFloor
  deriving DecidableEq

/-- The steps of a replacement at which it can fail. -/
inductive PersistBoundary
  | temporaryCreate
  | write
  | fileSync
  | rename
  | directorySync
  deriving DecidableEq, Repr

section

variable (sha : Hash) (reader : Json.Reader) (admission : PolicySnapshotV3 → Except String Unit)

/-! ### Loading -/

/-- `strict_json::parse` -/
def strictJsonValue (bytes : String) : Option Json :=
  (reader.read bytes).filter (fun v => Json.shaped 4096 32 v && Json.stringsWithin (1024 * 1024) v)

def loadCombinedAuthority (ctx : StoreContext) (value : Json) (bytes : String) (now : Except String Nat) :
    Except String LoadedAuthority :=
  match PolicyAuthorityRecordV3.codec.decode value with
  | none => .error "native_policy_snapshot_state_invalid"
  | some record =>
    if bytes ≠ value.text ∨ record.schema ≠ authorityRecordSchema ∨ record.generationFloor = 0 ∨
        isHexDigest record.policyDigest = false ∨ isHexDigest record.floorMac = false then
      .error "native_policy_snapshot_state_invalid"
    else match authorityFloorMac sha record.generationFloor record.policyDigest record.commandControlFloor
        ctx.verifierKey with
      | .error e => .error e
      | .ok mac =>
        if mac ≠ record.floorMac then .error "native_policy_snapshot_state_invalid"
        else
          let loaded : LoadedAuthority := ⟨none, "", record.generationFloor, some record.policyDigest, false, false,
            record.commandControlFloor⟩
          match record.snapshot with
          | none => .ok loaded
          | some candidate =>
            if candidate.generation ≠ record.generationFloor ∨ candidate.policyDigest ≠ record.policyDigest ∨
                (nextFloor sha record.commandControlFloor candidate).toOption ≠ some record.commandControlFloor then
              .ok { loaded with invalidOnStartup := true }
            else match now with
              | .error e => .error e
              | .ok now =>
                if (validateV3 sha candidate record.generationFloor ctx.runtimeIdentity ctx.ruleDigest ctx.verifierKey
                    now).toBool ∧ candidate.scopeContract.scopeDigest = ctx.scopeDigest then
                  match snapshotBytes candidate with
                  | .error e => .error e
                  | .ok canonical => .ok { loaded with snapshot := some candidate, canonicalBytes := canonical }
                else .ok loaded

/-- `load_current_authority`, with `read_private_json` of a readable file. -/
def loadCurrentAuthority (ctx : StoreContext) (disk : Option String) (now : Except String Nat) :
    Except String LoadedAuthority :=
  match disk with
  | none => .ok ⟨none, "", 0, none, false, false, none⟩
  | some bytes =>
    if authorityRecordMaxBytes < bytes.utf8ByteSize then .error "native_policy_snapshot_state_invalid"
    else match strictJsonValue reader bytes with
      | none => .error "native_policy_snapshot_state_invalid"
      | some value =>
        match value with
        | .obj ms =>
          match ms.lookup "schema" with
          | some (.str schema) =>
            if schema ≠ authorityRecordSchema then .error "native_policy_snapshot_state_invalid"
            else loadCombinedAuthority sha ctx value bytes now
          | _ => .error "native_policy_snapshot_state_invalid"
        | _ => .error "native_policy_snapshot_state_invalid"

/-- The state a process starts from (`new_with_resident_generation`). -/
def PolicyState.start (loaded : LoadedAuthority) : PolicyState :=
  let state : PolicyState := ⟨loaded.snapshot, loaded.canonicalBytes, loaded.generationFloor, loaded.policyDigest,
    loaded.invalidOnStartup, loaded.commandControlFloor⟩
  match loaded.snapshot with
  | none => state
  | some s => if (admission s).toBool then state else { state with snapshot := none, invalidOnStartup := true }

/-! ### Persisting -/

/-- The bytes `persist_authority_with_control_floor` writes. -/
def authorityBytes (generationFloor : Nat) (policyDigest : String) (snapshot : Option PolicySnapshotV3) (key : Bytes)
    (controls : Option CommandControlFloor) : Except String String :=
  if generationFloor = 0 ∨ isHexDigest policyDigest = false ∨
      snapshot.any (fun s => s.generation != generationFloor || s.policyDigest != policyDigest) then
    .error "native_policy_snapshot_authority_invalid"
  else match authorityFloorMac sha generationFloor policyDigest controls key with
    | .error e => .error e
    | .ok mac => .ok (PolicyAuthorityRecordV3.codec.encode
        ⟨authorityRecordSchema, generationFloor, policyDigest, snapshot, mac, controls⟩).text

/-- `persist_private_bytes`: what the file holds afterwards, and the outcome. -/
def persistPrivateBytes (disk : Option String) (bytes : String) (fault : Option PersistBoundary) :
    Option String × Except String Unit :=
  if bytes = "" ∨ authorityRecordMaxBytes < bytes.utf8ByteSize then
    (disk, .error "native_policy_snapshot_authority_too_large")
  else match fault with
    | none => (some bytes, .ok ())
    | some .directorySync => (some bytes, .error "native_policy_snapshot_authority_persistence_failed")
    | some _ => (disk, .error "native_policy_snapshot_authority_persistence_failed")

/-! ### Pushing -/

def encodeAck (s : PolicySnapshotV3) (idempotent : Bool) (residentGeneration : Nat) : PolicySnapshotAckV1 :=
  ⟨"accepted", s.generation, s.policyDigest, idempotent, residentGeneration⟩

def encodeRequiresNewGeneration (st : PolicyState) (residentGeneration : Nat) : Except String PolicySnapshotAckV1 :=
  match st.policyDigest with
  | none => .error "native_policy_snapshot_invalid"
  | some digest =>
    if st.generationFloor = 0 then .error "native_policy_snapshot_invalid"
    else .ok ⟨ackRequiresNewGeneration, st.generationFloor, digest, false, residentGeneration⟩

/-- A push as it reaches the store: its value, whether the command-authority lease is granted, the clock, and the
boundary at which the replacement fails. -/
structure PushRequest where
  value : Json
  lease : Except String Unit
  now : Except String Nat
  fault : Option PersistBoundary

/-- What `push` comes to before it writes: an answer, or a snapshot to persist with its bytes and the next floor. -/
inductive PushPlan
  | answer (ack : PolicySnapshotAckV1)
  | persist (snapshot : PolicySnapshotV3) (bytes : String) (controls : Option CommandControlFloor)

/-- `push` after the checks of the snapshot itself: the comparison with the state. -/
def compareWithState (ctx : StoreContext) (st : PolicyState) (s : PolicySnapshotV3) (bytes : String) :
    Except String PushPlan :=
  let persist : Except String PushPlan :=
    match nextFloor sha st.commandControlFloor s with
    | .error e => .error e
    | .ok controls => match admission s with
      | .error e => .error e
      | .ok () => .ok (.persist s bytes controls)
  match st.snapshot with
  | some current =>
    if s.generation < current.generation then .error "native_policy_snapshot_generation_downgrade"
    else if s.generation = current.generation then
      if bytes ≠ st.canonicalBytes then .error "native_policy_snapshot_generation_reused"
      else .ok (.answer (encodeAck current true ctx.residentGeneration))
    else persist
  | none =>
    if s.generation ≤ st.generationFloor then
      (encodeRequiresNewGeneration st ctx.residentGeneration).map .answer
    else persist

/-- A floor without a snapshot lets an older candidate through to the typed answer. -/
def minimumGeneration (st : PolicyState) (s : PolicySnapshotV3) : Nat :=
  if st.snapshot = none ∧ st.policyDigest.isSome ∧ s.generation ≤ st.generationFloor then 1
  else max st.generationFloor 1

def planPush (ctx : StoreContext) (st : PolicyState) (q : PushRequest) : Except String PushPlan :=
  match PolicySnapshotPushV1.fromValue q.value with
  | none => .error "native_policy_snapshot_push_invalid"
  | some request =>
    if request.schema ≠ pushSchema then .error "native_policy_snapshot_push_schema_mismatch"
    else match q.lease with
      | .error e => .error e
      | .ok () => match snapshotBytes request.snapshot with
        | .error e => .error e
        | .ok bytes => match q.now with
          | .error e => .error e
          | .ok now =>
            if st.invalidOnStartup ∧ st.generationFloor = 0 then .error "native_policy_snapshot_invalid"
            else match validateV3 sha request.snapshot (minimumGeneration st request.snapshot) ctx.runtimeIdentity
                ctx.ruleDigest ctx.verifierKey now with
              | .error e => .error e
              | .ok () =>
                if request.snapshot.scopeContract.scopeDigest ≠ ctx.scopeDigest then
                  .error "native_policy_snapshot_scope_mismatch"
                else compareWithState sha admission ctx st request.snapshot bytes

/-- `push`: the disk and the state afterwards, and the answer. -/
def push (ctx : StoreContext) (st : PolicyState) (disk : Option String) (q : PushRequest) :
    Option String × PolicyState × Except String PolicySnapshotAckV1 :=
  match planPush sha admission ctx st q with
  | .error e => (disk, st, .error e)
  | .ok (.answer ack) => (disk, st, .ok ack)
  | .ok (.persist s bytes controls) =>
    match authorityBytes sha s.generation s.policyDigest (some s) ctx.verifierKey controls with
    | .error e => (disk, st, .error e)
    | .ok record =>
      match persistPrivateBytes disk record q.fault with
      | (disk', .error e) => (disk', st, .error e)
      | (disk', .ok ()) =>
        (disk', ⟨some s, bytes, s.generation, some s.policyDigest, false, controls⟩,
          .ok (encodeAck s false ctx.residentGeneration))

/-! ### Runs -/

/-- The file, and the process that serves it when one is running. -/
structure World where
  disk : Option String
  running : Option (StoreContext × PolicyState)
  deriving DecidableEq

inductive StoreInput
  | push (request : PushRequest)
  | restart (ctx : StoreContext) (now : Except String Nat)

inductive StoreOutput
  | answered (result : Except String PolicySnapshotAckV1)
  | started (result : Except String Unit)
  | down
  deriving DecidableEq

/-- A push is answered by the running process; a restart ends it and loads the file, in a context of its own. -/
def storeMachine : Machine World StoreInput StoreOutput where
  step w
    | .push q => match w.running with
      | none => (w, .down)
      | some (ctx, st) =>
        let r := push sha admission ctx st w.disk q
        (⟨r.1, some (ctx, r.2.1)⟩, .answered r.2.2)
    | .restart ctx now => match loadCurrentAuthority sha reader ctx w.disk now with
      | .error e => (⟨w.disk, none⟩, .started (.error e))
      | .ok loaded => (⟨w.disk, some (ctx, .start admission loaded)⟩, .started (.ok ()))

end

end Policy
end Guard
