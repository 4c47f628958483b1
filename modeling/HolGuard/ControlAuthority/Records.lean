import HolGuard.ControlAuthority.Proof
import HolGuard.Lib.Faulty
/-!
# The records of the extension-control authority

The tables of `store_extension_control_authority_schema.py`, the anchor in the secret store, and the authenticated
records of `extension_control_authority.py`.

A record is kept with its SHA-256 and its HMAC; `Keys` has both functions, the key fixed, as well as the private hashes
and the digest of a mutation.  A text column that holds JSON holds what it decodes to.  The database, the secret store
and the native fence file are written one transaction or one value at a time, and any write can be the last thing a
process does: `interrupted` is how a failed write ends the operation, whether the process stops or an exception leaves
it.  No handler of the code catches it.
-/
namespace Guard
namespace ControlAuthority

open Lib (KeyMap Faulty)

inductive AuthorityPhase where
  | prepared
  | anchored
  | committed
deriving DecidableEq, Repr

inductive AuthorityHealth where
  | unenrolled
  | isProtected
  | tampered
  | recoveryRequired
deriving DecidableEq, Repr

structure ExtensionControlAuthorityView where
  health : AuthorityHealth
  revision : Nat
  catalogDigest : String
  layers : List ExtensionControlLayer
  managedRevision : Nat := 0
deriving DecidableEq, Repr

structure AuthorityAnchor where
  revision : Nat
  snapshotDigest : String
  phase : AuthorityPhase
deriving DecidableEq, Repr

/-! ## Authenticated records -/

structure SnapshotRecord where
  revision : Nat
  catalogDigest : String
  layers : List ExtensionControlLayer
  previousDigest : Option String
  committedAt : String
deriving DecidableEq, Repr

structure TransitionRecord where
  revision : Nat
  previousRevision : Nat
  previousDigest : String
  snapshotDigest : String
  catalogDigest : String
  actorIdHash : String
  idempotencyKeyHash : String
  nonceHash : String
  createdAt : String
  phase : AuthorityPhase
deriving DecidableEq, Repr

structure ManifestRecord where
  catalogDigest : String
  manifest : List (String × String)
  recordedAt : String
deriving DecidableEq, Repr

/-- What is authenticated of a managed activation. -/
structure ActivationRecord where
  bundleHash : String
  bundleVersion : Int
  workspaceId : String
  catalogDigest : String
  baseAuthorityRevision : Nat
  baseAuthoritySnapshotDigest : String
  extensionAuthorityRevision : Nat
  signedCloudLayers : List ExtensionControlLayer
deriving DecidableEq, Repr

/-- A record as it is stored. -/
structure Sealed (α : Type) where
  record : α
  digest : String
  mac : String
deriving DecidableEq, Repr

/-- The SHA-256 and the HMAC of the records of one purpose. -/
structure Authenticator (α : Type) where
  digest : α → String
  mac : α → String

namespace Authenticator

variable {α : Type} (a : Authenticator α)

/-- `authenticated_record` -/
def authenticate (record : α) : Sealed α := ⟨record, a.digest record, a.mac record⟩

/-- `verify_authenticated_record` -/
def verify (s : Sealed α) : Except String α :=
  if a.digest s.record ≠ s.digest ∨ a.mac s.record ≠ s.mac then .error "authority record authentication failed"
  else .ok s.record

@[simp] theorem verify_authenticate (record : α) :
    a.verify (a.authenticate record) = .ok record := by simp [verify, authenticate]

@[simp] theorem authenticate_record (record : α) : (a.authenticate record).record = record := rfl

theorem verify_eq_ok {s : Sealed α} {record : α} (h : a.verify s = .ok record) : s = a.authenticate record := by
  rw [verify, Lib.ite_error_eq_ok, not_or, not_not, not_not] at h
  obtain ⟨⟨hd, hm⟩, hr⟩ := h
  cases hr
  cases s
  simp_all [authenticate]

end Authenticator

/-- The `purpose` of `_private_hash`. -/
inductive HashPurpose where
  | actor
  | idempotency
  | nonce
  | proof
deriving DecidableEq

/-- What the code computes with the authority key, and the digest of a mutation. -/
structure Keys where
  snapshot : Authenticator SnapshotRecord
  transition : Authenticator TransitionRecord
  manifest : Authenticator ManifestRecord
  activation : Authenticator ActivationRecord
  managedRevision : Authenticator Nat
  privateHash : HashPurpose → String → String
  mutationDigest : ExtensionControlMutation → String

/-! ## Tables -/

structure SnapshotRow where
  revision : Nat
  catalogDigest : String
  layers : List ExtensionControlLayer
  previousDigest : Option String
  snapshot : Sealed SnapshotRecord
  committedAt : String
deriving DecidableEq, Repr

structure TransitionRow where
  revision : Nat
  previousRevision : Nat
  phase : AuthorityPhase
  actorIdHash : String
  idempotencyKeyHash : String
  nonceHash : String
  catalogDigest : String
  layers : List ExtensionControlLayer
  snapshot : Sealed SnapshotRecord
  transition : Sealed TransitionRecord
  createdAt : String
  committedAt : Option String
deriving DecidableEq, Repr

structure ProofRow where
  proofIdHash : String
  mutationDigest : String
  transitionRevision : Nat
  reservedAt : String
  consumedAt : Option String
deriving DecidableEq, Repr

structure ManifestRow where
  manifest : Manifest
  record : Sealed ManifestRecord
  recordedAt : String

/-- The part of `sync_state` that composes managed controls: the active row and the revision row. -/
structure ManagedState where
  active : Option (Sealed ActivationRecord)
  revision : Option (Sealed Nat)
deriving DecidableEq, Repr

/-- A row of the recovery archive. -/
structure ArchiveRow where
  reason : String
  archivedAt : String
  snapshot : Option SnapshotRow
  transitions : List TransitionRow
  proofs : List ProofRow
deriving DecidableEq, Repr

structure Database where
  snapshot : Option SnapshotRow
  transitions : List TransitionRow
  proofs : List ProofRow
  manifests : KeyMap String ManifestRow
  managed : ManagedState
  archive : List ArchiveRow

def Database.empty : Database := ⟨none, [], [], KeyMap.empty, ⟨none, none⟩, []⟩

/-- A successful `consume_extension_control_proof`: when, and with which active grant. -/
structure Consumption where
  proof : ExtensionControlProof
  mutation : ExtensionControlMutation
  metadata : GrantMetadata
  time : Int
deriving DecidableEq, Repr

/-- The stores, the active grants of the process, and the history of the grants it consumed. -/
structure World where
  db : Database
  anchor : Option AuthorityAnchor
  fence : Nat
  gate : GateState
  grants : KeyMap String GrantMetadata
  consumptions : List Consumption

abbrev Op (α : Type) := Faulty World α

def interrupted : String := "interrupted"

/-! ## Writes -/

def World.updateDb (f : Database → Database) (w : World) : World := { w with db := f w.db }

@[simp] theorem World.updateDb_db (f : Database → Database) (w : World) : (w.updateDb f).db = f w.db := rfl

@[simp] theorem World.updateDb_anchor (f : Database → Database) (w : World) : (w.updateDb f).anchor = w.anchor := rfl

def transact (f : Database → Database) : Op Unit := Faulty.write (World.updateDb f) interrupted

def World.setAnchor (anchor : AuthorityAnchor) (w : World) : World := { w with anchor := some anchor }

@[simp] theorem World.setAnchor_db (a : AuthorityAnchor) (w : World) : (w.setAnchor a).db = w.db := rfl

@[simp] theorem World.setAnchor_anchor (a : AuthorityAnchor) (w : World) : (w.setAnchor a).anchor = some a := rfl

def writeAndVerifyAnchor (anchor : AuthorityAnchor) : Op Unit := Faulty.write (World.setAnchor anchor) interrupted

def World.raiseFence (w : World) : World := { w with fence := w.fence + 1 }

def invalidateNativeExtensionControlPolicy : Op Unit := Faulty.write World.raiseFence interrupted

/-- An event appended to a log that no function here reads. -/
def recordEvent : Op Unit := Faulty.write id interrupted

end ControlAuthority
end Guard
