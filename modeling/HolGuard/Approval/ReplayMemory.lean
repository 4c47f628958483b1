import HolGuard.Lib.KeyMap
import HolGuard.Lib.Machine
import HolGuard.Lib.Text
/-!
# The resident's approval replay memory

`approval_replay_memory.rs`: a bounded map from (epoch, nonce digest) to the binding an approval was registered under
and its status.  Every call prunes the expired entries first; a claim or a consume moves the status, emits, and puts
the status back when the emission fails.  The emission runs under the lock, so a panic inside it poisons the memory and
every later call is refused.
-/
namespace Guard
namespace Approval

open Lib (KeyMap Machine)

def replayMemoryMaxEntries : Nat := 4096

def maxStringBytes : Nat := 4 * 1024

inductive ReplayStatus
  | pending
  | claimed
  | consumed
  deriving DecidableEq, Repr

inductive ReplayTransition
  | claim
  | consume
  deriving DecidableEq, Repr

structure ApprovalReplayBinding where
  requestIdDigest : String
  requestDigest : String
  actionDigest : String
  policyGeneration : Nat
  policyDigest : String
  ruleDigest : String
  runtimeIdentity : String
  runtimeBinaryIdentity : String
  harness : String
  workspaceBinding : Option String
  deviceBinding : Option String
  installationBinding : Option String
  publisherBinding : Option String
  artifactBinding : Option String
  scopeContractVersion : String
  scopeContractDigest : String
  scopeBinding : Option String
  expiresAtMs : Nat
  deriving DecidableEq, Repr

structure ReplayEntry where
  binding : ApprovalReplayBinding
  status : ReplayStatus
  deriving DecidableEq, Repr

structure ReplayKey where
  epoch : String
  nonceDigest : String
  deriving DecidableEq, Repr

structure ApprovalReplayMemory where
  epoch : String
  poisoned : Bool
  entries : KeyMap ReplayKey ReplayEntry

inductive Reply
  | value (bytes : List UInt8)
  | error (message : String)
  | panicked
  deriving DecidableEq, Repr

def isBoundedText (value : String) : Bool := !Lib.isBlankText value && value.utf8ByteSize ≤ maxStringBytes

def isBoundedHexOption (value : Option String) : Bool := value.all Lib.isHexDigest

def ApprovalReplayBinding.isBoundedAndWellFormed (b : ApprovalReplayBinding) (now : Nat) : Bool :=
  decide (now < b.expiresAtMs) && decide (0 < b.policyGeneration) && decide (b.harness.utf8ByteSize ≤ maxStringBytes) &&
    !Lib.isBlankText b.harness &&
    [b.requestIdDigest, b.requestDigest, b.actionDigest, b.policyDigest, b.ruleDigest, b.runtimeIdentity,
      b.scopeContractDigest].all Lib.isHexDigest &&
    isBoundedHexOption b.workspaceBinding && isBoundedHexOption b.deviceBinding &&
    isBoundedHexOption b.installationBinding && isBoundedHexOption b.publisherBinding &&
    isBoundedHexOption b.artifactBinding && isBoundedHexOption b.scopeBinding &&
    isBoundedText b.runtimeBinaryIdentity && isBoundedText b.scopeContractVersion

def nonceDigestKey (epoch nonceDigest : String) : Except String ReplayKey :=
  if !Lib.isHexDigest epoch || !Lib.isHexDigest nonceDigest then .error "native_approval_receipt_invalid"
  else .ok ⟨epoch, nonceDigest⟩

namespace ApprovalReplayMemory

/-- A new resident's memory; `random_epoch` chose the epoch. -/
def new (epoch : String) : ApprovalReplayMemory := ⟨epoch, false, KeyMap.empty⟩

/-- `retain(|_, entry| entry.binding.expires_at_ms > now)` -/
def prune (m : ApprovalReplayMemory) (now : Nat) : ApprovalReplayMemory :=
  { m with entries := m.entries.retain (fun _ entry => decide (now < entry.binding.expiresAtMs)) }

def setStatus (m : ApprovalReplayMemory) (key : ReplayKey) (status : ReplayStatus) : ApprovalReplayMemory :=
  { m with entries := m.entries.modify key (fun entry => { entry with status := status }) }

def registerPending (m : ApprovalReplayMemory) (nonceDigest : String) (binding : ApprovalReplayBinding) (now : Nat) :
    ApprovalReplayMemory × Reply :=
  if binding.expiresAtMs ≤ now then (m, .error "native_approval_time_invalid")
  else if !binding.isBoundedAndWellFormed now then (m, .error "native_approval_binding_invalid")
  else match nonceDigestKey m.epoch nonceDigest with
    | .error e => (m, .error e)
    | .ok key =>
      if m.poisoned then (m, .error "native_approval_replay_unavailable")
      else if replayMemoryMaxEntries ≤ (m.prune now).entries.size then
        (m.prune now, .error "native_approval_replay_full")
      else if (m.prune now).entries.contains key then (m.prune now, .error "native_approval_replay")
      else ({ m.prune now with entries := (m.prune now).entries.insert key ⟨binding, .pending⟩ }, .value [])

end ApprovalReplayMemory

/-- The status a transition moves an entry to, or why it may not. -/
def nextStatus : ReplayTransition → ReplayStatus → Except String ReplayStatus
  | .claim, .pending => .ok .claimed
  | .claim, .claimed => .error "native_approval_replay"
  | .claim, .consumed => .error "native_approval_replay"
  | .consume, .pending => .error "native_approval_receipt_not_claimed"
  | .consume, .claimed => .ok .consumed
  | .consume, .consumed => .error "native_approval_receipt_consumed"

namespace ApprovalReplayMemory

/-- `emit` is what the emission would come back with, should the call reach it. -/
def transitionAndEmit (m : ApprovalReplayMemory) (epoch nonceDigest : String) (binding : ApprovalReplayBinding)
    (now : Nat) (transition : ReplayTransition) (emit : Reply) : ApprovalReplayMemory × Reply :=
  match nonceDigestKey epoch nonceDigest with
  | .error e => (m, .error e)
  | .ok key =>
    if m.poisoned then (m, .error "native_approval_replay_unavailable")
    -- the target's own expiry is read before the pruning, so that it keeps its error
    else if (m.entries.get? key).any (fun entry => decide (entry.binding.expiresAtMs ≤ now)) then
      (m.prune now, .error "native_approval_receipt_expired")
    else match (m.prune now).entries.get? key with
      | none => (m.prune now, .error "native_approval_receipt_not_claimed")
      | some entry =>
        if entry.binding ≠ binding then (m.prune now, .error "native_approval_binding_mismatch")
        else match nextStatus transition entry.status with
          | .error e => (m.prune now, .error e)
          | .ok status =>
            match emit with
            | .value bytes => ((m.prune now).setStatus key status, .value bytes)
            | .error e => (((m.prune now).setStatus key status).setStatus key entry.status, .error e)
            | .panicked => ({ (m.prune now).setStatus key status with poisoned := true }, .panicked)

def claimAndEmit (m : ApprovalReplayMemory) (epoch nonceDigest : String) (binding : ApprovalReplayBinding) (now : Nat)
    (emit : Reply) : ApprovalReplayMemory × Reply :=
  m.transitionAndEmit epoch nonceDigest binding now .claim emit

def consumeAndEmit (m : ApprovalReplayMemory) (epoch nonceDigest : String) (binding : ApprovalReplayBinding) (now : Nat)
    (emit : Reply) : ApprovalReplayMemory × Reply :=
  m.transitionAndEmit epoch nonceDigest binding now .consume emit

end ApprovalReplayMemory

/-! ## The memory as a machine -/

inductive Call
  | registerPending (nonceDigest : String) (binding : ApprovalReplayBinding) (now : Nat)
  | claimAndEmit (epoch nonceDigest : String) (binding : ApprovalReplayBinding) (now : Nat) (emit : Reply)
  | consumeAndEmit (epoch nonceDigest : String) (binding : ApprovalReplayBinding) (now : Nat) (emit : Reply)
  deriving DecidableEq, Repr

def replayMachine : Machine ApprovalReplayMemory Call Reply where
  step m
    | .registerPending nonceDigest binding now => m.registerPending nonceDigest binding now
    | .claimAndEmit epoch nonceDigest binding now emit => m.claimAndEmit epoch nonceDigest binding now emit
    | .consumeAndEmit epoch nonceDigest binding now emit => m.consumeAndEmit epoch nonceDigest binding now emit

end Approval
end Guard
