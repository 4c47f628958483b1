import HolGuard.ControlAuthority.Store
/-!
# The operations on the extension-control authority

`commit_extension_control_layers`, the catalog migration, the reset and `recover_extension_control_authority`.
-/
namespace Guard
namespace ControlAuthority

open Lib (KeyMap Faulty)
open Lib.Faulty (refuse)

variable (k : Keys)

/-! ## New transitions -/

/-- A transition that is about to be prepared. -/
structure NewTransition where
  revision : Nat
  actorHash : String
  idempotencyHash : String
  nonceHash : String
  catalogDigest : String
  layers : List ExtensionControlLayer
  previousDigest : String
  createdAt : String

def NewTransition.snapshotRecord (t : NewTransition) : SnapshotRecord where
  revision := t.revision + 1
  catalogDigest := t.catalogDigest
  layers := t.layers
  previousDigest := some t.previousDigest
  committedAt := t.createdAt

def NewTransition.transitionRecord (t : NewTransition) : TransitionRecord where
  revision := t.revision + 1
  previousRevision := t.revision
  previousDigest := t.previousDigest
  snapshotDigest := k.snapshot.digest t.snapshotRecord
  catalogDigest := t.catalogDigest
  actorIdHash := t.actorHash
  idempotencyKeyHash := t.idempotencyHash
  nonceHash := t.nonceHash
  createdAt := t.createdAt
  phase := .prepared

def NewTransition.row (t : NewTransition) : TransitionRow where
  revision := t.revision + 1
  previousRevision := t.revision
  phase := .prepared
  actorIdHash := t.actorHash
  idempotencyKeyHash := t.idempotencyHash
  nonceHash := t.nonceHash
  catalogDigest := t.catalogDigest
  layers := t.layers
  snapshot := k.snapshot.authenticate t.snapshotRecord
  transition := k.transition.authenticate (t.transitionRecord k)
  createdAt := t.createdAt
  committedAt := none

/-- The exception of the database, which is not one of the authority's. -/
def constraintFailed : String := "UNIQUE constraint failed"

/-- The uniqueness constraints of the transition table. -/
def TransitionRow.Clashes (row : TransitionRow) (rows : List TransitionRow) : Prop :=
  ∃ other ∈ rows, other.revision = row.revision ∨ other.idempotencyKeyHash = row.idempotencyKeyHash ∨
    other.nonceHash = row.nonceHash

instance (row : TransitionRow) (rows : List TransitionRow) : Decidable (row.Clashes rows) := by
  unfold TransitionRow.Clashes
  infer_instance

def Database.insertTransition (row : TransitionRow) (db : Database) : Database :=
  { db with transitions := db.transitions ++ [row] }

def Database.insertProof (row : ProofRow) (db : Database) : Database := { db with proofs := db.proofs ++ [row] }

def Database.deleteProof (proofHash : String) (db : Database) : Database :=
  { db with proofs := db.proofs.filter fun row => row.proofIdHash ≠ proofHash }

def Database.findProof (db : Database) (proofHash : String) : Option ProofRow :=
  db.proofs.find? fun row => row.proofIdHash = proofHash

/-- The transaction that installs a transition: the snapshot, and the phase, which passes through `anchored`. -/
def Database.install (row : TransitionRow) (previousDigest : String) (db : Database) : Database :=
  { db with
    snapshot := db.snapshot.map fun _ => row.toSnapshot previousDigest
    transitions := db.transitions.map (setCommitted row.revision row.createdAt) }

/-- `set consumed_at = ?` on the reserved proof of a transition. -/
def Database.consumeProof (proofHash : String) (revision : Nat) (at_ : String) (db : Database) : Database :=
  { db with
    proofs := db.proofs.map fun row =>
      if row.proofIdHash = proofHash ∧ row.transitionRevision = revision ∧ row.consumedAt = none then
        { row with consumedAt := some at_ }
      else row }

/-- `set consumed_at = coalesce(consumed_at, ?)` -/
def Database.noteProof (proofHash : String) (at_ : String) (db : Database) : Database :=
  { db with
    proofs := db.proofs.map fun row =>
      if row.proofIdHash = proofHash then { row with consumedAt := some (row.consumedAt.getD at_) } else row }

/-! ## Committing layers -/

structure CommitCall where
  layers : List ExtensionControlLayer
  catalogDigest : String
  actorId : String
  expectedRevision : Nat
  idempotencyKey : String
  nonce : String
  proof : ExtensionControlProof
deriving DecidableEq

/-- What the clock says: as a text, and for the expiry of grants. -/
structure Clock where
  stamp : String
  micros : Int

namespace CommitCall

variable (c : CommitCall)

def mutation : ExtensionControlMutation where
  previousRevision := c.expectedRevision
  catalogDigest := c.catalogDigest
  layers := c.layers
  actorId := c.actorId
  idempotencyKey := c.idempotencyKey
  nonce := c.nonce

/-- `_validate_commit_input` -/
def checkInput : Except String Unit := do
  validateLayers c.layers c.catalogDigest
  if [c.actorId, c.idempotencyKey, c.nonce].any fun value => !validIdentity value then
    .error "invalid extension control transition identity"
  else .ok ()

/-- Everything that is checked before the lock is taken. -/
def check : Except String Unit := do
  c.checkInput
  c.mutation.check
  validateExtensionControlProof k.mutationDigest c.proof c.mutation
  validateSerializedLayers c.layers

def actorHash : String := k.privateHash .actor c.actorId

def idempotencyHash : String := k.privateHash .idempotency c.idempotencyKey

def nonceHash : String := k.privateHash .nonce c.nonce

def proofHash : String := k.privateHash .proof c.proof.proofId

def digest : String := k.mutationDigest c.mutation.canonical

def request : ResumeRequest where
  catalogDigest := c.catalogDigest
  layers := c.layers
  actorHash := c.actorHash k
  idempotencyHash := c.idempotencyHash k
  nonceHash := c.nonceHash k
  expectedRevision := c.expectedRevision

def transition (revision : Nat) (previousDigest stamp : String) : NewTransition where
  revision := revision
  actorHash := c.actorHash k
  idempotencyHash := c.idempotencyHash k
  nonceHash := c.nonceHash k
  catalogDigest := c.catalogDigest
  layers := c.layers
  previousDigest := previousDigest
  createdAt := stamp

def proofRow (revision : Nat) (reservedAt : String) (consumedAt : Option String) : ProofRow :=
  ⟨c.proofHash k, c.digest k, revision, reservedAt, consumedAt⟩

end CommitCall

/-- `consume_extension_control_proof` -/
def consume (proof : ExtensionControlProof) (m : ExtensionControlMutation) (now : Int) (w : World) :
    Except String Unit × World :=
  match validateExtensionControlProof k.mutationDigest proof m with
  | .error e => (.error e, w)
  | .ok _ =>
    match validateGrantLocked w.gate w.grants proof.grant (extensionControlDemand proof) now with
    | .error refusal =>
      (.error refusal.code,
        if refusal.drops then { w with grants := dropGrant w.grants proof.grant.grantId } else w)
    | .ok metadata =>
      (.ok (),
        { w with
          grants := dropGrant w.grants proof.grant.grantId
          consumptions := w.consumptions ++ [⟨proof, m, metadata, now⟩] })

def consumeExtensionControlProof (c : CommitCall) (now : Int) : Op Unit :=
  Faulty.act (consume k c.proof c.mutation now)

def settleResumed (c : CommitCall) (clock : Clock) (proofRecord : Option ProofRow) (replay : TransitionRow) : Op Unit :=
  match proofRecord with
  | none => do
    consumeExtensionControlProof k c clock.micros
    transact (Database.insertProof (c.proofRow k replay.revision clock.stamp (some clock.stamp)))
  | some _ => transact (Database.noteProof (c.proofHash k) clock.stamp)

def anchorAndInstall (c : CommitCall) (row : TransitionRow) (previousDigest : String) :
    Op ExtensionControlAuthorityView := do
  writeAndVerifyAnchor ⟨row.revision, row.snapshot.digest, .anchored⟩
  let w ← Faulty.get
  refuse (!w.db.snapshot.any fun s => s.revision = row.previousRevision ∧ s.snapshot.digest = previousDigest)
    "extension control authority concurrent update"
  refuse (¬ ∃ p ∈ w.db.proofs, p.proofIdHash = c.proofHash k ∧ p.transitionRevision = row.revision ∧
    p.consumedAt = none) "extension control authority proof state conflict"
  transact fun db => (db.install row previousDigest).consumeProof (c.proofHash k) row.revision row.createdAt
  writeAndVerifyAnchor ⟨row.revision, row.snapshot.digest, .committed⟩
  recordEvent
  readExtensionControlAuthority k c.catalogDigest

/-- The second half of a call: a new transition from the protected revision `current`. -/
def prepareAndCommit (c : CommitCall) (clock : Clock) (current : ExtensionControlAuthorityView)
    (proofAlreadyConsumed : Bool) : Op ExtensionControlAuthorityView := do
  refuse (current.health ≠ .isProtected) "extension control authority unavailable"
  refuse (current.revision ≠ c.expectedRevision) "extension control authority revision conflict"
  let w ← Faulty.get
  refuse (∃ row ∈ w.db.transitions, row.nonceHash = c.nonceHash k) "extension control authority nonce replay"
  refuse ((w.db.findProof (c.proofHash k)).isSome) "extension control authority proof replay"
  match w.db.snapshot with
  | none => Faulty.fail "extension control authority snapshot missing"
  | some snapshot => do
    let row := (c.transition k current.revision snapshot.snapshot.digest clock.stamp).row k
    refuse (row.Clashes w.db.transitions) constraintFailed
    transact fun db => (db.insertProof (c.proofRow k row.revision clock.stamp none)).insertTransition row
    if proofAlreadyConsumed then pure () else consumeExtensionControlProof k c clock.micros
    anchorAndInstall k c row snapshot.snapshot.digest

def commitExtensionControlLayers (c : CommitCall) (clock : Clock) : Op ExtensionControlAuthorityView := do
  Faulty.lift (c.check k)
  invalidateNativeExtensionControlPolicy
  let current ← readExtensionControlAuthority k c.catalogDigest
  let w ← Faulty.get
  let proofRecord := w.db.findProof (c.proofHash k)
  match w.db.transitions.find? fun row => row.idempotencyKeyHash = c.idempotencyHash k with
  | none => do
    refuse (proofRecord.isSome) "extension control authority proof replay"
    prepareAndCommit k c clock current false
  | some replay => do
    refuse (proofRecord.isSome ∧ replay.phase = .committed) "extension control authority proof replay"
    refuse (∃ p, proofRecord = some p ∧ (p.mutationDigest ≠ c.digest k ∨ p.transitionRevision ≠ replay.revision))
      "extension control authority proof state conflict"
    match ← resumeIdempotentTransition k replay current (c.request k) clock.stamp with
    | some resumed => do
      settleResumed k c clock proofRecord replay
      pure resumed
    | none => do
      let current ← readExtensionControlAuthority k c.catalogDigest
      if proofRecord.isSome then transact (Database.deleteProof (c.proofHash k)) else pure ()
      prepareAndCommit k c clock current proofRecord.isSome

/-! ## Catalog migration -/

def loadCatalogManifest (db : Database) (catalogDigest : String) : Except String (Option Manifest) :=
  match db.manifests.get? catalogDigest with
  | none => .ok none
  | some row => do
    let payload ← k.manifest.verify row.record
    if payload ≠ ⟨catalogDigest, row.manifest.pairs, row.recordedAt⟩ then
      .error "extension control catalog manifest field mismatch"
    else .ok (some row.manifest)

def rebindLayers (layers : List ExtensionControlLayer) (catalogDigest : String) (previous current : Manifest) :
    List ExtensionControlLayer :=
  layers.map fun layer =>
    { layer with
      catalogDigest := catalogDigest
      controls := layer.controls.filter fun control => preserveMigratedExtensionControl control previous current }

def migrationRef (previous : ExtensionControlAuthorityView) (catalogDigest : String) : String :=
  "catalog-migration:" ++ previous.catalogDigest ++ ":" ++ catalogDigest ++ ":" ++ toString previous.revision

def migrationTransition (previous : ExtensionControlAuthorityView) (catalogDigest : String)
    (layers : List ExtensionControlLayer) (previousDigest stamp : String) : NewTransition where
  revision := previous.revision
  actorHash := k.privateHash .actor "trusted-catalog-migration"
  idempotencyHash := k.privateHash .idempotency (migrationRef previous catalogDigest)
  nonceHash := k.privateHash .nonce (migrationRef previous catalogDigest)
  catalogDigest := catalogDigest
  layers := layers
  previousDigest := previousDigest
  createdAt := stamp

def migrateExtensionControlCatalog (previous : ExtensionControlAuthorityView) (registry : Registry) (stamp : String) :
    Op ExtensionControlAuthorityView := do
  invalidateNativeExtensionControlPolicy
  let w ← Faulty.get
  let previousManifest ← Faulty.lift (loadCatalogManifest k w.db previous.catalogDigest)
  let layers := rebindLayers (expandLegacyDnsLayers previous.layers) registry.catalogDigest
    (previousManifest.getD Lib.SortedMap.empty) registry.manifest
  Faulty.lift (validateLayers layers registry.catalogDigest)
  Faulty.lift (validateSerializedLayers layers)
  match w.db.snapshot with
  | none => Faulty.fail "extension control catalog migration source changed"
  | some snapshot => do
    refuse (snapshot.catalogDigest ≠ previous.catalogDigest) "extension control catalog migration source changed"
    let row := (migrationTransition k previous registry.catalogDigest layers snapshot.snapshot.digest stamp).row k
    refuse (row.Clashes w.db.transitions) constraintFailed
    transact (Database.insertTransition row)
    writeAndVerifyAnchor ⟨row.revision, row.snapshot.digest, .anchored⟩
    refuse (snapshot.revision ≠ previous.revision) "extension control catalog migration conflict"
    transact (Database.install row snapshot.snapshot.digest)
    writeAndVerifyAnchor ⟨row.revision, row.snapshot.digest, .committed⟩
    readExtensionControlAuthority k registry.catalogDigest

/-- The transition to the registry's catalog is resumed, if one is under way. -/
def resumeMigration (db : Database) (row : SnapshotRow) (registry : Registry) (stamp : String) :
    Op (Option ExtensionControlAuthorityView) :=
  match pendingTransition db (row.revision + 1) with
  | none => pure none
  | some pending =>
    if pending.catalogDigest = registry.catalogDigest then
      resumeIdempotentTransition k pending ⟨.recoveryRequired, row.revision, row.catalogDigest, [], 0⟩
        pending.asRequest stamp
    else pure none

/-- A migration from a catalog under which the authority is protected. -/
def migrateFrom (catalogDigest : String) (registry : Registry) (stamp : String) : Op ExtensionControlAuthorityView := do
  let previous ← readExtensionControlAuthority k catalogDigest
  refuse (previous.health ≠ .isProtected) "extension control catalog migration source unavailable"
  migrateExtensionControlCatalog k previous registry stamp

def readOtherCatalog (db : Database) (row : SnapshotRow) (registry : Registry) (stamp : String) :
    Op ExtensionControlAuthorityView := do
  let resumed ← resumeMigration k db row registry stamp
  match resumed.filter fun view => view.health = .isProtected with
  | some view => pure view
  | none => migrateFrom k row.catalogDigest registry stamp

/-- `_read_extension_control_authority_locked` with a registry. -/
def readWithRegistry (catalogDigest : String) (registry : Option Registry) (stamp : String) :
    Op ExtensionControlAuthorityView := do
  let w ← Faulty.get
  match w.db.snapshot, w.anchor, registry with
  | some row, some _, some registry =>
    if row.catalogDigest ≠ catalogDigest ∧ registry.catalogDigest = catalogDigest then
      Faulty.rescue [interrupted, constraintFailed] (readOtherCatalog k w.db row registry stamp) fun _ =>
        pure (tamperedView catalogDigest)
    else readExtensionControlAuthority k catalogDigest
  | _, _, _ => readExtensionControlAuthority k catalogDigest

/-! ## Enrollment, reset and recovery -/

def bootstrapSnapshot (catalogDigest stamp : String) : SnapshotRow where
  revision := 0
  catalogDigest := catalogDigest
  layers := []
  previousDigest := none
  snapshot := k.snapshot.authenticate ⟨0, catalogDigest, [], none, stamp⟩
  committedAt := stamp

def bootstrapExtensionControlAuthority (catalogDigest stamp : String) : Op ExtensionControlAuthorityView := do
  invalidateNativeExtensionControlPolicy
  let w ← Faulty.get
  refuse (w.db.snapshot.isSome) "extension control authority already exists"
  transact fun db => { db with snapshot := some (bootstrapSnapshot k catalogDigest stamp) }
  writeAndVerifyAnchor ⟨0, (bootstrapSnapshot k catalogDigest stamp).snapshot.digest, .committed⟩
  pure ⟨.isProtected, 0, catalogDigest, [], 0⟩

/-- The proof of a first enrollment is not part of the model. -/
def enrollExtensionControlAuthority (catalogDigest stamp : String) : Op ExtensionControlAuthorityView := do
  let current ← readExtensionControlAuthority k catalogDigest
  refuse (current.health ≠ .unenrolled) "extension control authority already enrolled"
  bootstrapExtensionControlAuthority k catalogDigest stamp

def Database.archiveAndClear (reason stamp : String) (db : Database) : Database :=
  { db with
    archive := db.archive ++ [⟨reason, stamp, db.snapshot, byRevision db.transitions, db.proofs⟩]
    proofs := []
    transitions := []
    snapshot := none }

/-- `_reset_extension_control_authority` with the key at hand. -/
def resetExtensionControlAuthority (catalogDigest reason stamp : String) : Op ExtensionControlAuthorityView := do
  invalidateNativeExtensionControlPolicy
  transact (Database.archiveAndClear reason stamp)
  bootstrapExtensionControlAuthority k catalogDigest stamp

def recoverable (db : Database) (current : Nat) : Option TransitionRow :=
  ((byRevision db.transitions).filter fun row =>
    (row.revision = current ∧ row.phase ≠ .committed) ∨ row.revision = current + 1).head?

/-- The end of a recovery whose anchor names the stored snapshot. -/
def recoverAnchored (catalogDigest : String) (registry : Option Registry) (stamp : String) (snapshot : SnapshotRow) :
    Op ExtensionControlAuthorityView := do
  let w ← Faulty.get
  if 0 < snapshot.revision ∧ ¬ ∃ row ∈ w.db.transitions, row.revision = snapshot.revision ∧ row.phase = .committed then
    resetExtensionControlAuthority k catalogDigest "committed-transition-missing" stamp
  else do
    if 0 < snapshot.revision then recordEvent else pure ()
    let recovered ← readWithRegistry k catalogDigest registry stamp
    if recovered.health = .isProtected then pure recovered
    else resetExtensionControlAuthority k catalogDigest "authenticated-recovery-unverifiable" stamp

/-- The recovery goes on without a resumed transition. -/
def recoverUnresumed (catalogDigest : String) (registry : Option Registry) (stamp : String) (snapshot : SnapshotRow)
    (anchor : AuthorityAnchor) : Op ExtensionControlAuthorityView :=
  if anchor.revision = snapshot.revision ∧ anchor.snapshotDigest = snapshot.snapshot.digest then
    if anchor.phase ≠ .committed then do
      writeAndVerifyAnchor ⟨snapshot.revision, snapshot.snapshot.digest, .committed⟩
      recoverAnchored k catalogDigest registry stamp snapshot
    else recoverAnchored k catalogDigest registry stamp snapshot
  else resetExtensionControlAuthority k catalogDigest "authenticated-recovery-unverifiable" stamp

/-- The transition that recovery looks at is resumed. -/
def resumeRecoverable (db : Database) (catalogDigest stamp : String) (snapshot : SnapshotRow) :
    Op (Option ExtensionControlAuthorityView) :=
  match recoverable db snapshot.revision with
  | none => pure none
  | some pending =>
    resumeIdempotentTransition k pending ⟨.recoveryRequired, snapshot.revision, catalogDigest, [], 0⟩ pending.asRequest
      stamp

/-- A recovery that finds a snapshot and an anchor. -/
def recoverFrom (db : Database) (catalogDigest : String) (registry : Option Registry) (stamp : String)
    (snapshot : SnapshotRow) (anchor : AuthorityAnchor) : Op ExtensionControlAuthorityView := do
  let resumed ← resumeRecoverable k db catalogDigest stamp snapshot
  match resumed.filter fun view => view.health = .isProtected with
  | some view => pure view
  | none => recoverUnresumed k catalogDigest registry stamp snapshot anchor

def recoverExtensionControlAuthority (catalogDigest : String) (registry : Option Registry) (stamp : String) :
    Op ExtensionControlAuthorityView := do
  invalidateNativeExtensionControlPolicy
  let w ← Faulty.get
  match w.db.snapshot, w.anchor with
  | some snapshot, some anchor => recoverFrom k w.db catalogDigest registry stamp snapshot anchor
  | _, _ => resetExtensionControlAuthority k catalogDigest "snapshot-or-anchor-missing" stamp

end ControlAuthority
end Guard
