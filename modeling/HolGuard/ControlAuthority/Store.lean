import HolGuard.ControlAuthority.Records
/-!
# The store of the extension-control authority

`store_extension_control_authority.py` and `store_extension_control_authority_transitions.py`: reading the authority,
resuming an interrupted transition, committing layers, migrating a catalog, resetting and recovering.

The operations hold the authority lock, so they follow one another.  Each gets the texts the clock gives it.  The key is
in the secret store, and the schema is the current one.
-/
namespace Guard
namespace ControlAuthority

open Lib (KeyMap Faulty)
open Lib.Faulty (refuse)

variable (k : Keys)

/-! ## Reading -/

def byRevision (rows : List TransitionRow) : List TransitionRow :=
  rows.mergeSort fun a b => decide (a.revision ≤ b.revision)

def pendingTransition (db : Database) (revision : Nat) : Option TransitionRow :=
  db.transitions.find? fun row => row.revision = revision

def TransitionRow.expectedSnapshot (row : TransitionRow) (previousDigest : String) : SnapshotRecord where
  revision := row.revision
  catalogDigest := row.catalogDigest
  layers := row.layers
  previousDigest := some previousDigest
  committedAt := row.createdAt

def TransitionRow.expectedTransition (row : TransitionRow) (previousDigest : String) : TransitionRecord where
  revision := row.revision
  previousRevision := row.previousRevision
  previousDigest := previousDigest
  snapshotDigest := row.snapshot.digest
  catalogDigest := row.catalogDigest
  actorIdHash := row.actorIdHash
  idempotencyKeyHash := row.idempotencyKeyHash
  nonceHash := row.nonceHash
  createdAt := row.createdAt
  phase := .prepared

/-- One turn of the loop of `_validate_transition_chain`: the digest before the row, and the row's own. -/
def validateTransitionRow (prior : Option String) (row : TransitionRow) : Except String (Option String) := do
  if row.revision ≠ row.previousRevision + 1 then .error "extension control transition chain mismatch"
  else
    validateSerializedLayers row.layers
    let snapshot ← k.snapshot.verify row.snapshot
    match snapshot.previousDigest with
    | none => .error "extension control transition chain mismatch"
    | some previousDigest =>
      if ∃ p, prior = some p ∧ previousDigest ≠ p then .error "extension control transition chain mismatch"
      else if snapshot ≠ row.expectedSnapshot previousDigest then
        .error "extension control transition snapshot mismatch"
      else
        validateLayers row.layers row.catalogDigest
        let transition ← k.transition.verify row.transition
        if transition ≠ row.expectedTransition previousDigest then .error "extension control transition field mismatch"
        else .ok (some row.snapshot.digest)

def validateTransitionChain (rows : List TransitionRow) (revision : Nat) (currentSnapshotDigest : String) :
    Except String Unit := do
  let committed := (byRevision rows).filter fun row => row.phase = .committed
  if committed.map (·.revision) ≠ (List.range revision).map (· + 1) then .error "extension control transition gap"
  else
    let head ← committed.foldlM (validateTransitionRow k) none
    if ∃ d, head = some d ∧ d ≠ currentSnapshotDigest then .error "extension control transition head mismatch"
    else .ok ()

def SnapshotRow.expected (row : SnapshotRow) : SnapshotRecord where
  revision := row.revision
  catalogDigest := row.catalogDigest
  layers := row.layers
  previousDigest := row.previousDigest
  committedAt := row.committedAt

/-- The checks of the snapshot against the anchor and the transitions: whether the authority is protected or waits for
recovery. -/
def inspectAnchor (db : Database) (anchor : AuthorityAnchor) (row : SnapshotRow) : Except String AuthorityHealth :=
  if anchor.revision ≠ row.revision ∨ anchor.snapshotDigest ≠ row.snapshot.digest then
    match pendingTransition db (row.revision + 1) with
    | none => .error "extension control authority rollback detected"
    | some pending =>
      if anchor.phase = .anchored ∧ anchor.revision = row.revision + 1 ∧
          anchor.snapshotDigest = pending.snapshot.digest then
        .ok .recoveryRequired
      else .error "extension control authority rollback detected"
  else if (pendingTransition db (row.revision + 1)).isSome then .ok .recoveryRequired
  else if anchor.phase ≠ .committed then .ok .recoveryRequired
  else (validateTransitionChain k db.transitions row.revision row.snapshot.digest).map fun _ => .isProtected

/-- The checks of `_read_extension_control_authority_locked` on a snapshot of the catalog asked for; an error makes the
authority tampered. -/
def inspectSnapshot (db : Database) (anchor : AuthorityAnchor) (row : SnapshotRow) :
    Except String AuthorityHealth := do
  let payload ← k.snapshot.verify row.snapshot
  if payload ≠ row.expected then .error "extension control snapshot field mismatch"
  else
    validateSerializedLayers row.layers
    validateLayers row.layers row.catalogDigest
    inspectAnchor k db anchor row

def tamperedView (catalogDigest : String) : ExtensionControlAuthorityView := ⟨.tampered, 0, catalogDigest, [], 0⟩

def unenrolledView (catalogDigest : String) : ExtensionControlAuthorityView := ⟨.unenrolled, 0, catalogDigest, [], 0⟩

/-- Whether the last transition moved the authority to another catalog. -/
def catalogMigrated (db : Database) (revision : Nat) (catalogDigest : String) : Bool :=
  match pendingTransition db revision with
  | none => false
  | some current =>
    current.catalogDigest = catalogDigest &&
      (pendingTransition db current.previousRevision).any fun previous => previous.catalogDigest ≠ catalogDigest

def ensureCatalogMigratedEvent (db : Database) (revision : Nat) (catalogDigest : String) : Op Unit :=
  if revision ≥ 1 ∧ catalogMigrated db revision catalogDigest then recordEvent else pure ()

def readSnapshot (db : Database) (anchor : AuthorityAnchor) (row : SnapshotRow) : Op ExtensionControlAuthorityView :=
  match inspectSnapshot k db anchor row with
  | .error _ => pure (tamperedView row.catalogDigest)
  | .ok .isProtected => do
    ensureCatalogMigratedEvent db row.revision row.catalogDigest
    pure ⟨.isProtected, row.revision, row.catalogDigest, row.layers, 0⟩
  | .ok health => pure ⟨health, row.revision, row.catalogDigest, [], 0⟩

/-- `_read_extension_control_authority_locked` without a registry. -/
def readExtensionControlAuthority (catalogDigest : String) : Op ExtensionControlAuthorityView := do
  let w ← Faulty.get
  match w.db.snapshot, w.anchor with
  | none, none => pure (unenrolledView catalogDigest)
  | some row, some anchor =>
    if row.catalogDigest ≠ catalogDigest then pure (tamperedView catalogDigest) else readSnapshot k w.db anchor row
  | _, _ => pure (tamperedView catalogDigest)

/-! ## Resuming -/

/-- What a caller asks an interrupted transition to be. -/
structure ResumeRequest where
  catalogDigest : String
  layers : List ExtensionControlLayer
  actorHash : String
  idempotencyHash : String
  nonceHash : String
  expectedRevision : Nat

def ResumeRequest.Matches (q : ResumeRequest) (row : TransitionRow) : Prop :=
  row.previousRevision = q.expectedRevision ∧ row.catalogDigest = q.catalogDigest ∧ row.layers = q.layers ∧
    row.actorIdHash = q.actorHash ∧ row.idempotencyKeyHash = q.idempotencyHash ∧ row.nonceHash = q.nonceHash

instance (q : ResumeRequest) (row : TransitionRow) : Decidable (q.Matches row) := by
  unfold ResumeRequest.Matches
  infer_instance

def TransitionRow.asRequest (row : TransitionRow) : ResumeRequest where
  catalogDigest := row.catalogDigest
  layers := row.layers
  actorHash := row.actorIdHash
  idempotencyHash := row.idempotencyKeyHash
  nonceHash := row.nonceHash
  expectedRevision := row.previousRevision

def previousDigestOf (snapshot : SnapshotRow) (row : TransitionRow) : Except String String :=
  if snapshot.revision = row.previousRevision then .ok snapshot.snapshot.digest
  else if snapshot.revision = row.revision then
    match snapshot.previousDigest with
    | none => .error "idempotent transition chain mismatch"
    | some d => .ok d
  else .error "idempotent transition revision mismatch"

def checkPending (row : TransitionRow) (previousDigest : String) : Except String Unit := do
  let transition ← k.transition.verify row.transition
  if transition ≠ row.expectedTransition previousDigest then .error "idempotent transition authentication mismatch"
  else
    let snapshot ← k.snapshot.verify row.snapshot
    if snapshot ≠ row.expectedSnapshot previousDigest then .error "idempotent snapshot authentication mismatch"
    else .ok ()

def Database.deleteTransition (revision : Nat) (db : Database) : Database :=
  { db with transitions := db.transitions.filter fun row => row.revision ≠ revision }

def setCommitted (revision : Nat) (at_ : String) (row : TransitionRow) : TransitionRow :=
  if row.revision = revision then { row with phase := .committed, committedAt := some at_ } else row

def TransitionRow.toSnapshot (row : TransitionRow) (previousDigest : String) : SnapshotRow where
  revision := row.revision
  catalogDigest := row.catalogDigest
  layers := row.layers
  previousDigest := some previousDigest
  snapshot := row.snapshot
  committedAt := row.createdAt

def Database.commitPendingTransition (row : TransitionRow) (at_ : String) (db : Database) : Database :=
  { db with
    snapshot := db.snapshot.map fun s =>
      if s.revision = row.previousRevision then row.toSnapshot s.snapshot.digest else s
    transitions := db.transitions.map (setCommitted row.revision at_) }

def Database.markCommitted (revision : Nat) (at_ : String) (db : Database) : Database :=
  { db with transitions := db.transitions.map (setCommitted revision at_) }

/-- What is left to do once the snapshot of the transition is in place. -/
def finishTransition (row : TransitionRow) : Op (Option ExtensionControlAuthorityView) := do
  writeAndVerifyAnchor ⟨row.revision, row.snapshot.digest, .committed⟩
  recordEvent
  let resumed ← readExtensionControlAuthority k row.catalogDigest
  refuse (resumed.health ≠ .isProtected ∨ resumed.revision ≠ row.revision) "idempotent transition recovery failed"
  pure (some resumed)

/-- The end of `_resume_idempotent_transition` when the anchor names the transition. -/
def completeTransition (snapshot : SnapshotRow) (row : TransitionRow) (at_ : String) :
    Op (Option ExtensionControlAuthorityView) :=
  if snapshot.revision = row.previousRevision then do
    transact (Database.commitPendingTransition row at_)
    finishTransition k row
  else if row.phase ≠ .committed then do
    transact (Database.markCommitted row.revision at_)
    finishTransition k row
  else finishTransition k row

/-- The transition against the snapshot and the anchor that are stored. -/
def resumeFrom (row : TransitionRow) (current : ExtensionControlAuthorityView) (at_ : String) (snapshot : SnapshotRow)
    (anchor : Option AuthorityAnchor) : Op (Option ExtensionControlAuthorityView) := do
  let previousDigest ← Faulty.lift (previousDigestOf snapshot row)
  Faulty.lift (checkPending k row previousDigest)
  match anchor with
  | none => Faulty.fail "extension control authority anchor missing"
  | some anchor =>
    if snapshot.revision = row.previousRevision ∧ anchor = ⟨row.previousRevision, previousDigest, .committed⟩ ∧
        row.phase = .prepared then do
      transact (Database.deleteTransition row.revision)
      pure none
    else if anchor.revision = row.revision ∧ anchor.snapshotDigest = row.snapshot.digest ∧
        (anchor.phase = .anchored ∨ anchor.phase = .committed) then
      completeTransition k snapshot row at_
    else if current.health = .isProtected ∧ current.revision = row.revision then do
      recordEvent
      pure (some current)
    else Faulty.fail "idempotent transition state mismatch"

/-- `_resume_idempotent_transition`: `none` when it took the transition back. -/
def resumeIdempotentTransition (row : TransitionRow) (current : ExtensionControlAuthorityView) (q : ResumeRequest)
    (at_ : String) : Op (Option ExtensionControlAuthorityView) := do
  invalidateNativeExtensionControlPolicy
  Faulty.lift (validateSerializedLayers q.layers)
  refuse (¬ q.Matches row) "idempotency key request mismatch"
  let w ← Faulty.get
  match w.db.snapshot with
  | none => Faulty.fail "extension control authority snapshot missing"
  | some snapshot => resumeFrom k row current at_ snapshot w.anchor

end ControlAuthority
end Guard
