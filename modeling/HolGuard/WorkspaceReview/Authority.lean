import HolGuard.WorkspaceReview.SecureState
/-!
# Installing and loading the workspace-review authority

`install_record_at`, `load_at` and `validate_transition` of `workspace_review_authority.rs`.  The device and
installation bindings of the approval enrollment, or the reason it has none, are an argument of each call.
-/
namespace Guard.WorkspaceReview

open Lib

section

variable {A D : Type} [DecidableEq D] (p : Platform A D)

/-- What `trusted_local_bindings` answers: the device and the installation binding. -/
abbrev LocalBindings (D : Type) := Except String (D × D)

def ensureLocalBindings (locals : LocalBindings D) (v : VerifiedAuthority D) : Except String Unit :=
  match locals with
  | .error e => .error e
  | .ok (device, installation) =>
    if v.deviceBinding ≠ device ∨ v.installationBinding ≠ installation then
      .error "native_workspace_review_authority_provenance_mismatch"
    else .ok ()

/-- A record with its bytes and what its verification gives. -/
structure ReadRecord (D : Type) where
  record : AuthorityRecord D
  bytes : Bytes
  verified : VerifiedAuthority D

/-- `read_record` of the given bytes -/
def readRecord (bytes : Bytes) (nowMs : Option Nat) : Except String (ReadRecord D) :=
  match p.parseRecord bytes with
  | .error e => .error e
  | .ok record => (verifyRecord p record nowMs).map (fun v => ⟨record, bytes, v⟩)

/-- `read_record` of the installed file -/
def readTarget : Session A D (Option (ReadRecord D)) := do
  let disk ← Faulty.get
  match disk.record with
  | none => pure none
  | some bytes => do
    let r ← Faulty.lift (readRecord p bytes none)
    pure (some r)

def pendingRecord (s : SecureState D) : Except String (Option (ReadRecord D)) :=
  match s.pendingAuthorityRecord with
  | none => .ok none
  | some bytes =>
    if p.digest bytes ≠ s.authorityRecordDigest then .error secureStateInvalid
    else if !p.isCanonicalJson bytes then .error secureStateInvalid
    else
      match p.parseRecord bytes with
      | .error _ => .error secureStateInvalid
      | .ok record =>
        match verifyRecord p record none with
        | .error e => .error e
        | .ok v =>
          if !s.matchesAuthority v then .error "native_workspace_review_authority_provenance_mismatch"
          else .ok (some ⟨record, bytes, v⟩)

/-- The first part of `load_at`: a pending record that is not the installed one is installed. -/
def restorePending (locals : LocalBindings D) (state : Option (SecureState D)) (target : Option (ReadRecord D)) :
    Session A D (Option (ReadRecord D)) :=
  match state with
  | none => pure target
  | some s => do
    let pending ← Faulty.lift (pendingRecord p s)
    match pending with
    | none => pure target
    | some pending =>
      if target.any (fun t => decide (t.verified.recordDigest = pending.verified.recordDigest)) then pure target
      else do
        Faulty.lift (ensureLocalBindings locals pending.verified)
        persistRecord pending.bytes
        readTarget p

/-- The secure state follows a record it does not name yet. -/
def followRecord (s : SecureState D) (v : VerifiedAuthority D) : Session A D (SecureState D) :=
  if s.matchesAuthority v then pure s
  else if !s.canTransitionTo v then
    Faulty.fail (if s.status = .revoked then "native_workspace_review_authority_revoked"
      else "native_workspace_review_authority_provenance_mismatch")
  else do
    let next ← Faulty.lift (stateForAuthority p v (some s) none)
    storeSecure p next
    pure next

/-- The last part of `load_at`: the secure state follows the record and forgets what was pending. -/
def settleState (s : SecureState D) (v : VerifiedAuthority D) : Session A D Unit := do
  let s ← followRecord p s v
  if s.pendingAuthorityRecord.isSome then storeSecure p s.clearPendingAuthorityRecord else pure ()

def loadAt (locals : LocalBindings D) (nowMs : Option Nat) : Session A D (Option (VerifiedAuthority D)) := do
  let state ← loadSecure p
  let target ← readTarget p
  let target ← restorePending p locals state target
  match target with
  | none => if state.isSome then Faulty.fail secureStateUnavailable else pure none
  | some target => do
    let v ← Faulty.lift (verifyRecord p target.record nowMs)
    if v.recordDigest ≠ target.verified.recordDigest then Faulty.fail "native_workspace_review_authority_invalid"
    else do
      Faulty.lift (ensureLocalBindings locals v)
      match state with
      | none => Faulty.fail secureStateUnavailable
      | some s => do
        settleState p s v
        if v.status = .revoked then Faulty.fail "native_workspace_review_authority_revoked" else pure (some v)

def validateTransition (current : Option (VerifiedAuthority D)) (candidate : VerifiedAuthority D) :
    Except String Unit :=
  match current with
  | none =>
    if candidate.enrollmentGeneration = 1 ∧ candidate.status = .active then .ok ()
    else .error "native_workspace_review_authority_generation_invalid"
  | some current =>
    if current.status = .revoked then .error "native_workspace_review_authority_revoked"
    else if candidate.enrollmentGeneration ≤ current.enrollmentGeneration then
      .error "native_workspace_review_authority_generation_rollback"
    else if candidate.workspaceBinding ≠ current.workspaceBinding ∨ candidate.deviceBinding ≠ current.deviceBinding ∨
        candidate.installationBinding ≠ current.installationBinding ∨
        candidate.scopeContractVersion ≠ current.scopeContractVersion ∨
        candidate.scopeBinding ≠ current.scopeBinding then
      .error "native_workspace_review_authority_provenance_mismatch"
    else
      match candidate.status with
      | .active =>
        if candidate.previousKeyId ≠ some current.keyId ∨ candidate.keyId = current.keyId then
          .error "native_workspace_review_authority_generation_rollback"
        else .ok ()
      | .revoked =>
        if candidate.keyId ≠ current.keyId ∨ candidate.previousKeyId.isSome = true then
          .error "native_workspace_review_authority_generation_rollback"
        else .ok ()

/-- The decision of `install_record_at` when the candidate is not the installed record already. -/
def admitCandidate (current : Option (ReadRecord D)) (state : Option (SecureState D))
    (candidate : VerifiedAuthority D) : Except String Unit :=
  let candidateStateMatches := state.any (fun s => s.matchesAuthority candidate)
  match current with
  | some current =>
    match validateTransition (some current.verified) candidate with
    | .error e => .error e
    | .ok () =>
      if state.isNone ∧ candidateStateMatches = false then .error secureStateUnavailable
      else if state.any (fun s => s.matchesAuthority current.verified) = false ∧ candidateStateMatches = false then
        .error "native_workspace_review_authority_provenance_mismatch"
      else .ok ()
  | none =>
    if candidateStateMatches then .ok ()
    else
      match validateTransition none candidate with
      | .error e => .error e
      | .ok () =>
        if state.isSome then .error "native_workspace_review_authority_provenance_mismatch" else .ok ()

/-- The three writes of `install_record_at`. -/
def publishCandidate (candidate : ReadRecord D) (state : Option (SecureState D)) : Session A D Unit := do
  let next ← Faulty.lift (stateForAuthority p candidate.verified state (some candidate.bytes))
  storeSecure p next
  persistRecord candidate.bytes
  storeSecure p next.clearPendingAuthorityRecord

/-- `install_record_at` for the bytes of the given record file -/
def installRecordAt (locals : LocalBindings D) (candidateFile : Option Bytes) (nowMs : Nat) : Session A D Unit :=
  match candidateFile with
  | none => Faulty.fail "native_workspace_review_authority_missing"
  | some candidateBytes => do
    let candidate ← Faulty.lift (readRecord p candidateBytes (some nowMs))
    Faulty.lift (ensureLocalBindings locals candidate.verified)
    let current ← readTarget p
    let state ← loadSecure p
    match current.filter (fun c => decide (c.bytes = candidate.bytes)) with
    | some current =>
      match state with
      | none => Faulty.fail secureStateUnavailable
      | some s =>
        if !s.matchesAuthority current.verified then
          Faulty.fail "native_workspace_review_authority_provenance_mismatch"
        else if s.pendingAuthorityRecord.isSome then storeSecure p s.clearPendingAuthorityRecord
        else pure ()
    | none => do
      Faulty.lift (admitCandidate current state candidate.verified)
      publishCandidate p candidate state

end
end Guard.WorkspaceReview
