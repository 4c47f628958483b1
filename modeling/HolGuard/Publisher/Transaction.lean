import HolGuard.Publisher.Contract
/-!
# The publisher's transaction

`native_policy_snapshot_v3` with the storage below it: three files under one lock, a pending snapshot, the cached
snapshot and the generation state.  A call first completes what an earlier one left behind, then answers from the cache
or allocates a generation, builds a snapshot and writes pending, cache, generation state, and clears pending.

Every file is replaced atomically, so a call is the list of writes it makes in order and the result it returns after
them; a process that dies, or a write whose sync fails, performs a first part of the list and returns nothing.  The lock
makes calls exclude each other, so a history is a list of calls.  The snapshot files hold bytes; the generation state is
the record its file holds.

Not modelled: file ownership and permissions, the Windows variants, the provisioning of the verifier key.
-/
namespace Guard
namespace Publisher

open Lib (Json Bytes Hash isHexDigest fitsU64 Machine)
open Contracts (NativeCommandControlBindingV1)
open Policy (EffectiveNativePolicyV3 PolicySnapshotV3 PolicyAuthorityRecordV3)

structure GenerationState where
  generation : Nat
  policyDigest : String
  deriving DecidableEq

structure Files where
  pending : Option String
  cache : Option String
  generation : Option GenerationState
  deriving DecidableEq

inductive Write where
  | pending (snapshot : PolicySnapshotV3)
  | cache (snapshot : PolicySnapshotV3)
  | generation (state : GenerationState)
  | clearPending
  deriving DecidableEq

namespace Files

def empty : Files := ⟨none, none, none⟩

def apply (files : Files) : Write → Files
  | .pending s => { files with pending := some (snapshotText s) }
  | .cache s => { files with cache := some (snapshotText s) }
  | .generation g => { files with generation := some g }
  | .clearPending => { files with pending := none }

def perform (files : Files) (writes : List Write) : Files := writes.foldl apply files

/-- The generation on disk; generations start at one. -/
def storedGeneration (files : Files) : Nat := files.generation.elim 0 GenerationState.generation

end Files

section

variable {Config : Type} (sha : Hash) (read : String → Option Json) (ctx : PublisherContext Config)

/-! ## Reading -/

def authoritySnapshot (value : Json) (payload : String) (key : Bytes) : Except String PolicySnapshotV3 :=
  match PolicyAuthorityRecordV3.codec.decode value with
  | none => .error "native_policy_snapshot_cache_invalid"
  | some record =>
    match record.snapshot with
    | none => .error "native_policy_snapshot_cache_invalid"
    | some s =>
      if (PolicyAuthorityRecordV3.codec.encode record).text ≠ payload ∨ record.generationFloor = 0 ∨
          maxGeneration < record.generationFloor ∨ isHexDigest record.policyDigest = false ∨
          isHexDigest record.floorMac = false ∨ s.generation ≠ record.generationFloor ∨
          s.policyDigest ≠ record.policyDigest ∨
          (Policy.authorityFloorMac sha record.generationFloor record.policyDigest record.commandControlFloor
            key).toOption ≠ some record.floorMac then .error "native_policy_snapshot_cache_invalid"
      else do
        validateSnapshot sha ctx s false
        if Policy.integrityMac sha s key ≠ s.integrity.mac then .error "native_policy_snapshot_cache_integrity_invalid"
        else .ok s

def schemaMember : Json → Option String
  | .obj ms => Json.required .string ms "schema"
  | _ => none

/-- `_read_v3_snapshot_file` with a verifier key: the snapshot of a file and the bytes it was read from. -/
def readSnapshotFile (file : Option String) (key : Bytes) : Except String (Option (PolicySnapshotV3 × String)) :=
  match file with
  | none => .ok none
  | some payload =>
    if payload.utf8ByteSize = 0 ∨ Policy.snapshotMaxBytes < payload.utf8ByteSize then
      .error "native_policy_snapshot_cache_invalid"
    else match read payload with
      | none => .error "native_policy_snapshot_json_invalid"
      | some value =>
        if schemaMember value = some Policy.authorityRecordSchema then do
          let s ← authoritySnapshot sha ctx value payload key
          .ok (some (s, payload))
        else match PolicySnapshotV3.codec.decode value with
          | none => .error "native_policy_snapshot_unknown_field"
          | some s => do
            let canonical ← snapshotBytes sha ctx s
            if canonical ≠ payload then .error "native_policy_snapshot_cache_noncanonical"
            else if Policy.integrityMac sha s key ≠ s.integrity.mac then
              .error "native_policy_snapshot_cache_integrity_invalid"
            else .ok (some (s, payload))

def readGenerationState : Option GenerationState → Except String (Option GenerationState)
  | none => .ok none
  | some state =>
    if state.generation = 0 ∨ maxGeneration < state.generation ∨ isHexDigest state.policyDigest = false then
      .error "native_policy_snapshot_generation_state_invalid"
    else .ok (some state)

/-! ## Recovery -/

/-- The cache is written with the pending snapshot unless it already holds its bytes; a newer one is a conflict. -/
def recoverCache (pending : PolicySnapshotV3) (pendingBytes : String) (cached : Option (PolicySnapshotV3 × String)) :
    Except String (List Write) :=
  match cached with
  | some (snapshot, bytes) =>
    if bytes = pendingBytes then .ok []
    else if pending.generation < snapshot.generation then .error "native_policy_snapshot_transaction_conflict"
    else do
      let _ ← snapshotBytes sha ctx pending
      .ok [.cache pending]
  | none => do
    let _ ← snapshotBytes sha ctx pending
    .ok [.cache pending]

/-- `_recover_v3_snapshot_transaction`: the writes that complete what a crash left behind. -/
def recoverTransaction (files : Files) (key : Bytes) : Except String (List Write) := do
  match ← readSnapshotFile sha read ctx files.pending key with
  | none => .ok []
  | some (pending, pendingBytes) =>
    if isHexDigest pending.policyDigest = false then .error "native_policy_snapshot_transaction_invalid"
    else do
      let current ← readGenerationState files.generation
      -- a newer generation is already committed: the pending candidate can never be retried
      if current.any (fun c => decide (pending.generation < c.generation)) then .ok [.clearPending]
      else if current.any (fun c => c.generation == pending.generation && c.policyDigest != pending.policyDigest) then
        .error "native_policy_snapshot_transaction_conflict"
      else do
        let cached ← readSnapshotFile sha read ctx files.cache key
        let cacheWrites ← recoverCache sha ctx pending pendingBytes cached
        let stateWrites := if current.all (fun c => decide (c.generation < pending.generation)) then
            [Write.generation ⟨pending.generation, pending.policyDigest⟩]
          else []
        .ok (cacheWrites ++ stateWrites ++ [.clearPending])

/-! ## Generations -/

/-- `_v3_generation_for_policy` without writing the state; `rustState` says whether the resident's files exist. -/
def generationForPolicy (current : Option GenerationState) (policyDigest : String) (forceIncrement : Bool)
    (minimumGeneration : Option Nat) (rustState : Bool) : Except String Nat :=
  if minimumGeneration.any (fun m => m == 0 || decide (maxGeneration < m)) then
    .error "native_policy_snapshot_generation_invalid"
  else if current.any (fun c => c.policyDigest == policyDigest && !forceIncrement &&
      minimumGeneration.all (fun m => decide (m ≤ c.generation))) then .ok (current.elim 0 GenerationState.generation)
  else if current.any (fun c => c.generation == maxGeneration) then
    .error "native_policy_snapshot_generation_exhausted"
  else if minimumGeneration = some maxGeneration then .error "native_policy_snapshot_generation_exhausted"
  else match current with
    | none =>
      if minimumGeneration.isNone && rustState then .error "native_policy_snapshot_generation_state_missing"
      else .ok (max 1 (minimumGeneration.getD 0 + 1))
    | some c => .ok (max (c.generation + 1) (minimumGeneration.getD 0 + 1))

def nextSnapshotGeneration (current : Option GenerationState) (policyDigest : String) (renewAfter : Option Nat)
    (rustState : Bool) : Except String Nat :=
  if current.any (fun c => c.policyDigest == policyDigest) then
    if renewAfter.all (fun m => current.any (fun c => decide (m < c.generation))) then
      .error "native_policy_snapshot_cache_missing"
    else generationForPolicy current policyDigest true renewAfter rustState
  else generationForPolicy current policyDigest false renewAfter rustState

/-! ## Calls -/

/-- One call of `native_policy_snapshot_v3`: its arguments, what it finds of the resident's files, and the clock each
time it is read. -/
structure Call (Config : Type) where
  config : Config
  runtimeIdentity : String
  ruleDigest : String
  policyIntegrityKey : Bytes
  issuedAtMs : Option Nat
  expiresAtMs : Option Nat
  renewAfterGeneration : Option Nat
  commandExtensions : Option NativeCommandControlBindingV1
  rustState : Bool
  requestMs : Nat
  cacheMs : Nat
  buildMs : Nat

/-- `_validate_snapshot_request_v3` -/
def validateRequest (call : Call Config) : Except String Unit :=
  let issued := call.issuedAtMs.getD call.requestMs
  let expires := call.expiresAtMs.getD (issued + Policy.snapshotMaxExpiryMs)
  if call.renewAfterGeneration = some 0 then .error "native_policy_snapshot_generation_invalid"
  else if isHexDigest call.runtimeIdentity = false ∨ isHexDigest call.ruleDigest = false then
    .error "native_policy_snapshot_identity_invalid"
  else if fitsU64 issued = false then .error "native_policy_snapshot_expiry_invalid"
  else if fitsU64 expires = false ∨ expires ≤ issued ∨ Policy.snapshotMaxExpiryMs < expires - issued then
    .error "native_policy_snapshot_expiry_invalid"
  else .ok ()

structure SnapshotInputs where
  effectivePolicy : EffectiveNativePolicyV3
  mode : String
  configDigest : String
  policyDigest : String
  binding : Option NativeCommandControlBindingV1

/-- `_snapshot_inputs_v3`, after the capture of the control binding. -/
def snapshotInputs (call : Call Config) : Except String SnapshotInputs := do
  let binding ← call.commandExtensions.mapM ctx.captureBinding
  let policy ← ctx.effectivePolicy call.config
  if !validInputModes.contains (ctx.rawMode call.config) then .error "native_policy_snapshot_mode_invalid"
  else
    let mode := effectiveMode (ctx.rawMode call.config) policy
    let draft := assemble sha ctx policy mode call.runtimeIdentity call.ruleDigest [] 0 0 0 binding ""
    .ok ⟨policy, mode, draft.configDigest, draft.policyDigest, binding⟩

def snapshotMatchesInputs (s : PolicySnapshotV3) (call : Call Config) (inputs : SnapshotInputs) : Bool :=
  s.mode == inputs.mode && s.configDigest == inputs.configDigest && s.policyDigest == inputs.policyDigest &&
    s.runtimeIdentity == call.runtimeIdentity && s.ruleDigest == call.ruleDigest &&
    s.scopeContract.scopeDigest == ctx.scopeDigest

/-- `_cached_snapshot_v3`: the snapshot to answer with, if the cache has one, and the generation to renew after. -/
def cachedSnapshot (files : Files) (key : Bytes) (current : Option GenerationState) (call : Call Config)
    (inputs : SnapshotInputs) : Except String (Option PolicySnapshotV3 × Option Nat) := do
  match ← readSnapshotFile sha read ctx files.cache key with
  | none => .ok (none, call.renewAfterGeneration)
  | some (s, _) =>
    if !snapshotMatchesInputs ctx s call inputs then .ok (none, call.renewAfterGeneration)
    else if current ≠ some ⟨s.generation, inputs.policyDigest⟩ then
      .error "native_policy_snapshot_generation_state_invalid"
    else if call.cacheMs < s.expiresAtMs then
      if call.renewAfterGeneration.all (fun m => decide (m < s.generation)) then .ok (some s, call.renewAfterGeneration)
      else .ok (none, call.renewAfterGeneration)
    else .ok (none, some (max (call.renewAfterGeneration.getD 0) s.generation))

/-- `_materialize_snapshot_v3`: build, write pending, cache and generation state, clear pending. -/
def materializeSnapshot (call : Call Config) (inputs : SnapshotInputs) (key : Bytes) (generation : Nat) :
    Except String (List Write × PolicySnapshotV3) := do
  let s ← buildPolicySnapshot sha ctx (ctx.fromEffective inputs.effectivePolicy inputs.mode) call.runtimeIdentity
    call.ruleDigest key generation call.issuedAtMs call.expiresAtMs inputs.binding call.buildMs
  let _ ← snapshotBytes sha ctx s
  .ok ([.pending s, .cache s, .generation ⟨generation, inputs.policyDigest⟩, .clearPending], s)

/-- What a call does under the lock after recovery. -/
def answerCall (files : Files) (key : Bytes) (call : Call Config) (inputs : SnapshotInputs) :
    Except String (List Write × PolicySnapshotV3) := do
  let current ← readGenerationState files.generation
  let (cached, renewAfter) ← cachedSnapshot sha read ctx files key current call inputs
  match cached with
  | some s => .ok ([], s)
  | none => do
    let generation ← nextSnapshotGeneration current inputs.policyDigest renewAfter call.rustState
    materializeSnapshot sha ctx call inputs key generation

/-- `native_policy_snapshot_v3`: the writes it makes, and its result once they are made. -/
def nativePolicySnapshot (files : Files) (call : Call Config) : List Write × Except String PolicySnapshotV3 :=
  let prepared : Except String (Bytes × SnapshotInputs × List Write) := do
    validateRequest call
    let key ← deriveVerifierKey sha call.policyIntegrityKey
    let inputs ← snapshotInputs sha ctx call
    let recovery ← recoverTransaction sha read ctx files key
    .ok (key, inputs, recovery)
  match prepared with
  | .error e => ([], .error e)
  | .ok (key, inputs, recovery) =>
    match answerCall sha read ctx (files.perform recovery) key call inputs with
    | .error e => (recovery, .error e)
    | .ok (writes, s) => (recovery ++ writes, .ok s)

/-! ## Histories -/

/-- A call, and the number of writes after which it stops if it does not come to its end. -/
structure Attempt (Config : Type) where
  call : Call Config
  stopAfter : Option Nat

structure Outcome where
  performed : List Write
  result : Option (Except String PolicySnapshotV3)

def attempt (files : Files) (a : Attempt Config) : Outcome :=
  let (writes, result) := nativePolicySnapshot sha read ctx files a.call
  match a.stopAfter with
  | none => ⟨writes, some result⟩
  | some k => ⟨writes.take k, none⟩

def publisherMachine : Machine Files (Attempt Config) Outcome where
  step files a :=
    let outcome := attempt sha read ctx files a
    (files.perform outcome.performed, outcome)

end

/-- The snapshots an attempt wrote to the cache or returned. -/
def Outcome.published (o : Outcome) : List PolicySnapshotV3 :=
  o.performed.filterMap (fun w => match w with
    | .cache s => some s
    | _ => none) ++
  match o.result with
  | some (.ok s) => [s]
  | _ => []

end Publisher
end Guard
