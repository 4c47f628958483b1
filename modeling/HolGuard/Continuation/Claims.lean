import HolGuard.Lib.PyObject
import HolGuard.Lib.PyTime
import HolGuard.Review.Outbox
/-!
# Continuation claims

The two transactions of `store_continuation.py`: `claim_continuation_attempt`, which takes a lease on one offer, and
`finalize_continuation_attempt`, which stores the evidence of an attempt, appends its events and, when an approval is
handed over, consumes it.  Both run under `begin immediate`, so they are steps of one machine; a transaction that raises
or answers `False` is rolled back.

The resume and operation tables only receive what `_persist_continuation_resume_state` writes: their type is a
parameter.  A lease column holds the `isoformat` text of a datetime and is read back as that datetime.
-/
namespace Guard.Continuation

open Lib Guard.Review

inductive ClaimState where
  | claimed
  | waiting
  | completed
deriving DecidableEq

/-- The primary key of `guard_continuation_claims`. -/
structure ClaimKey where
  requestId : String
  offerHash : String
  action : String
deriving DecidableEq

/-- A row of `guard_continuation_claims`. -/
structure ClaimRow where
  state : ClaimState
  claimedAt : String
  leaseExpiresAt : Option DateTime
  claimId : Option String
  evidenceId : Option String
deriving DecidableEq

/-- A row of `guard_continuation_effects`. -/
structure Effect where
  requestId : String
  evidenceId : String
  eventName : String
  createdAt : String

/-- A row of `guard_events`. -/
structure GuardEvent where
  eventName : String
  payload : PyDict
  occurredAt : String

/-- The integrity columns of a signed row. -/
structure Integrity where
  integrityVersion : Option Int
  payloadHash : Option String
  payloadMac : Option String
  integrityKeyId : Option String
  signedAt : Option String
deriving DecidableEq

/-- A row of `guard_local_once_approvals` without its `approval_id`. -/
structure LocalOnceApproval where
  requestId : String
  harness : String
  artifactId : Option String
  artifactHash : Option String
  workspace : Option String
  publisher : Option String
  action : String
  createdAt : String
  expiresAt : String
  claimedAt : Option String
  integrity : Integrity
  authorityKind : Option String
deriving DecidableEq

/-- The columns of `approval_requests` that a finalisation reads. -/
structure ApprovalRequest where
  status : Option String
  resolutionAction : Option String
  resolutionScope : Option String
  policyAction : Option String
  harness : Option String
  artifactId : Option String
  artifactHash : Option String
  workspace : Option String
  publisher : Option String
  oauthSource : Option String

structure World (ρ : Type) where
  claims : KeyMap ClaimKey ClaimRow
  effects : KeyMap String Effect
  guardEvents : List GuardEvent
  outbox : Outbox
  requests : KeyMap String ApprovalRequest
  approvals : KeyMap String LocalOnceApproval
  authorityRevision : Option Int
  resumes : ρ

/-- What `_persist_continuation_resume_state` is given. -/
structure ResumeState where
  requestId : String
  resumeSeed : PyDict
  resumeUpdate : PyDict
  operationUpdate : Option PyDict
  now : String

/-- The functions of other modules and libraries; a `none` is a `ValueError`, or a null of SQLite. -/
structure Env (ρ : Type) where
  fromisoformat : String → Option DateTime
  canonicalUtcTimestamp : String → Option String
  julianday : String → Option ℚ
  workspacePolicyKey : Option String → Option String
  sha256 : String → String
  signLocalAuthorityPayload : PyDict → String → String → String → String → Integrity
  verifyLocalAuthorityPayload : PyDict → Integrity → String → String → String → Bool
  persistResumeState : ResumeState → ρ → Except String ρ
  reviewEventPayloadJson : ApprovalRequest → EventType → String → PyDict → String
  review : Services

def columnText (value : Option String) : String := value.getD "None"

variable {ρ : Type}

/-! ## Consuming a one-use approval -/

def localOnceLegacyAuthorityKind : String := "legacy"

def exactCloudAuthorityKind : String := "exact-cloud"

def localOnceIntegrityPurpose (authorityKind : Option String) : String :=
  if authorityKind = some exactCloudAuthorityKind then "guard-exact-cloud-local-once-v1"
  else "guard-local-once-approval"

def localOnceApprovalIsReusable (artifactId : String) : Bool :=
  containsText ":package-request:".toList artifactId.toList

def localOnceApprovalSignedPayload (approvalId : String) (row : LocalOnceApproval) : PyDict :=
  [("approval_id", .str approvalId), ("request_id", .str row.requestId), ("harness", .str row.harness),
    ("artifact_id", .ofText row.artifactId), ("artifact_hash", .ofText row.artifactHash),
    ("workspace", .ofText row.workspace), ("publisher", .ofText row.publisher), ("action", .str row.action),
    ("created_at", .str row.createdAt), ("expires_at", .str row.expiresAt), ("claimed_at", .ofText row.claimedAt)] ++
  (match row.authorityKind with
    | none => []
    | some kind => [("authority_kind", .str kind)])

/-- `_local_once_approval_payload`, of a row that verified. -/
def localOnceApprovalPayload (approvalId : String) (row : LocalOnceApproval) : PyDict :=
  [("action", .str row.action), ("approval_id", .str approvalId), ("artifact_hash", .ofText row.artifactHash),
    ("artifact_id", .ofText row.artifactId), ("decision_id", .none), ("expires_at", .str row.expiresAt),
    ("harness", .str row.harness), ("integrity_key_id", .ofText row.integrity.integrityKeyId),
    ("integrity_status", .str "valid"), ("integrity_version", .ofInt? row.integrity.integrityVersion),
    ("owner", .none), ("publisher", .ofText row.publisher), ("reason", .str "approved once in review"),
    ("request_id", .str row.requestId), ("scope", .str "artifact"), ("source", .str "approval-gate-once"),
    ("signed_at", .ofText row.integrity.signedAt), ("updated_at", .str row.createdAt),
    ("workspace", .ofText row.workspace)] ++
  (match row.authorityKind with
    | none => []
    | some kind => [("authority_kind", .str kind)])

/-- The keys on which the row must still be the one the caller was shown. -/
def identityKeys : List String :=
  ["action", "approval_id", "artifact_hash", "artifact_id", "expires_at", "harness", "integrity_key_id",
    "integrity_status", "integrity_version", "publisher", "request_id", "source", "signed_at", "updated_at",
    "workspace", "authority_kind"]

/-- SQL `julianday(left) > julianday(right)`; a null is not true. -/
def Env.after (e : Env ρ) (left right : String) : Bool :=
  match e.julianday left, e.julianday right with
  | some p, some q => decide (q < p)
  | _, _ => false

/-- `_verify_local_once_approval(...).status == "valid"` -/
def Env.verifyLocalOnceApproval (e : Env ρ) (approvalId : String) (row : LocalOnceApproval) (key keyId : String) :
    Bool :=
  e.verifyLocalAuthorityPayload (localOnceApprovalSignedPayload approvalId row) row.integrity key keyId
    (localOnceIntegrityPurpose row.authorityKind)

/-- The row after the claim: `claimed_at` is set and the row is signed again. -/
def Env.claimedRow (e : Env ρ) (approvalId : String) (row : LocalOnceApproval) (key keyId now : String) :
    LocalOnceApproval :=
  let claimed := { row with claimedAt := some now }
  { claimed with
    integrity := e.signLocalAuthorityPayload (localOnceApprovalSignedPayload approvalId claimed) key keyId
      (localOnceIntegrityPurpose row.authorityKind) now }

/-- `_claim_local_once_approval_by_id_locked` with `consume`; the update fires the authority revision trigger. -/
def claimLocalOnceApprovalByIdLocked (e : Env ρ) (w : World ρ) (approvalId now : String) (expected : PyDict)
    (key keyId authorityKind : String) : Except String (Option (World ρ)) :=
  match e.canonicalUtcTimestamp now with
  | none => .error "Invalid isoformat string"
  | some now =>
    match w.approvals.get? approvalId with
    | none => .ok none
    | some row =>
      if row.claimedAt.isSome ∨ e.after row.expiresAt now = false then .ok none
      else if row.authorityKind ≠ some authorityKind then .ok none
      else if e.verifyLocalOnceApproval approvalId row key keyId = false then .ok none
      else if identityKeys.any (fun k =>
          !PyObject.scalarEq (PyDict.get (localOnceApprovalPayload approvalId row) k) (PyDict.get expected k)) then
        .ok none
      else
        .ok (some { w with
          approvals := w.approvals.insert approvalId (e.claimedRow approvalId row key keyId now)
          authorityRevision := w.authorityRevision.map (· + 1) })

/-- `_text` of an exact Cloud binding. -/
def bindingText (value : Option String) : Option String := value.filter (fun s => s != "")

structure RequestBindings where
  requestId : String
  harness : String
  artifactId : String
  artifactHash : String
  workspace : Option String
  publisher : Option String

def requestBindings (e : Env ρ) (requestId : String) (request : ApprovalRequest) : Option RequestBindings :=
  if request.status ≠ some "resolved" ∨ request.resolutionAction ≠ some "allow" then none
  else if request.resolutionScope ≠ some "artifact" then none
  else if request.policyAction ≠ some "review" ∧ request.policyAction ≠ some "require-reapproval" then none
  else do
    let requestId ← bindingText (some requestId)
    let harness ← bindingText request.harness
    let artifactId ← bindingText request.artifactId
    let artifactHash ← bindingText request.artifactHash
    some ⟨requestId, harness, artifactId, artifactHash, e.workspacePolicyKey (bindingText request.workspace),
      bindingText request.publisher⟩

/-- `order by created_at desc, approval_id desc`: the left row comes first. -/
def comesFirst (left right : String × LocalOnceApproval) : Bool :=
  decide (right.2.createdAt < left.2.createdAt) ||
    (left.2.createdAt == right.2.createdAt && decide (right.1 < left.1))

def exactRowLocked (e : Env ρ) (w : World ρ) (b : RequestBindings) (now : String) :
    Option (String × LocalOnceApproval) :=
  let matching := w.approvals.pairs.filter (fun (_, row) =>
    row.authorityKind == some exactCloudAuthorityKind && row.requestId == b.requestId && row.harness == b.harness &&
      row.artifactId == some b.artifactId && row.artifactHash == some b.artifactHash && row.claimedAt.isNone &&
      e.after row.expiresAt now && row.workspace == b.workspace && row.publisher == b.publisher)
  matching.foldl (fun best row =>
    match best with
    | none => some row
    | some b => some (if comesFirst row b then row else b)) none

def claimExactCloudLocalOnceApprovalLocked (e : Env ρ) (w : World ρ) (requestId : String) (expected : PyDict)
    (now key keyId : String) : Except String (Option (World ρ)) :=
  match (w.requests.get? requestId).bind (requestBindings e requestId) with
  | none => .ok none
  | some bindings =>
    match e.canonicalUtcTimestamp now with
    | none => .error "Invalid isoformat string"
    | some canonical =>
      match exactRowLocked e w bindings canonical with
      | none => .ok none
      | some (approvalId, row) =>
        if e.verifyLocalOnceApproval approvalId row key keyId = false then .ok none
        else claimLocalOnceApprovalByIdLocked e w approvalId now expected key keyId exactCloudAuthorityKind

inductive ClaimDisposition where
  | consumed
  | retained
deriving DecidableEq

def approvalReuseClaimDisposition (decision : PyDict) : Option ClaimDisposition :=
  if (PyDict.get decision "action").text? ≠ some "allow" then none
  else
    match (PyDict.get decision "approval_id").nonEmptyText? with
    | some _ =>
      (PyDict.get decision "artifact_id").nonEmptyText?.map (fun artifactId =>
        if localOnceApprovalIsReusable artifactId then .retained else .consumed)
    | none =>
      (PyDict.get decision "decision_id").int?.map (fun _ =>
        if (PyDict.get decision "source").text? = some "approval-gate" ∧
            (PyDict.get decision "expires_at").isNone = false then .consumed
        else .retained)

def World.approvalAuthorityRevision (w : World ρ) : Int := w.authorityRevision.getD (-1)

/-- `_claim_continuation_approval_authority`: the store after the claim, or `none` for `False`. -/
def claimContinuationApprovalAuthority (e : Env ρ) (w : World ρ) (requestId : String) (decision : PyDict)
    (now : String) (secret : Option String × Option String) : Except String (Option (World ρ)) :=
  match (PyDict.get decision "approval_id").nonEmptyText?,
      (PyDict.get decision "_approval_authority_revision").int? with
  | some approvalId, some revision =>
    if revision < 0 ∨ (PyDict.get decision "action").text? ≠ some "allow" ∨
        approvalReuseClaimDisposition decision ≠ some .consumed then .ok none
    else
      match secret with
      | (some key, some keyId) =>
        if w.approvalAuthorityRevision ≠ revision then .ok none
        else if (PyDict.get decision "authority_kind").text? = some exactCloudAuthorityKind then
          claimExactCloudLocalOnceApprovalLocked e w requestId decision now key keyId
        else if (PyDict.get decision "authority_kind").text? ≠ some localOnceLegacyAuthorityKind then .ok none
        else claimLocalOnceApprovalByIdLocked e w approvalId now decision key keyId localOnceLegacyAuthorityKind
      | _ => .ok none
  | _, _ => .ok none

/-! ## Finalisation -/

/-- The arguments of `finalize_continuation_attempt`, with what the call finds outside the tables: the signing secret,
the id of a review event and the OAuth binding it is delivered under. -/
structure Finalize where
  key : ClaimKey
  claimId : Option String
  evidenceId : String
  terminal : Bool
  resumeSeed : PyDict
  resumeUpdate : PyDict
  operationUpdate : Option PyDict
  events : List (String × PyDict)
  now : String
  approvalDecision : Option PyDict
  secret : Option String × Option String
  reviewEventId : String
  binding : Option OAuthBinding

/-- `sha256(f"{evidence_id}\0{event_name}")` -/
def Env.effectKey (e : Env ρ) (evidenceId eventName : String) : String :=
  e.sha256 (evidenceId ++ String.singleton (Char.ofNat 0) ++ eventName)

/-- `insert or ignore` of an effect: the new table, and whether the row was inserted. -/
def insertEffect (e : Env ρ) (w : World ρ) (requestId evidenceId eventName now : String) : World ρ × Bool :=
  let key := e.effectKey evidenceId eventName
  if w.effects.contains key then (w, false)
  else ({ w with effects := w.effects.insert key ⟨requestId, evidenceId, eventName, now⟩ }, true)

/-- One event of `_persist_continuation_events`. -/
def persistContinuationEvent (e : Env ρ) (f : Finalize) (w : World ρ) (event : String × PyDict) : World ρ :=
  let (w, inserted) := insertEffect e w f.key.requestId f.evidenceId event.1 f.now
  if inserted then { w with guardEvents := w.guardEvents ++ [⟨event.1, event.2, f.now⟩] } else w

def persistContinuationEvents (e : Env ρ) (f : Finalize) (w : World ρ) : World ρ :=
  f.events.foldl (persistContinuationEvent e f) w

def terminalStatuses : List String :=
  ["resumed", "already_resumed", "manual_retry_required", "blocked_not_resumed", "unsupported", "failed"]

/-- `first_evidence.get("correlationId")` -/
def correlationId (resumeUpdate : PyDict) : PyObject :=
  match PyDict.get resumeUpdate "continuation_evidence" with
  | .list (.dict first :: _) => PyDict.get first "correlationId"
  | _ => .none

def terminalEffect : String := "review.outbox.terminal"

def appendTerminalReviewEvent (e : Env ρ) (f : Finalize) (w : World ρ) : Except String (World ρ) :=
  let (w, inserted) := insertEffect e w f.key.requestId f.evidenceId terminalEffect f.now
  if inserted = false then .ok w
  else
    match (PyDict.get f.resumeUpdate "continuation_status").nonEmptyText?,
        (PyDict.get f.resumeUpdate "continuation_capability").nonEmptyText?,
        (PyDict.get f.resumeUpdate "continuation_reason").nonEmptyText?,
        (PyDict.get f.resumeUpdate "continuation_completed_at").nonEmptyText?,
        (correlationId f.resumeUpdate).nonEmptyText? with
    | some status, some capability, some reason, some completedAt, some correlation =>
      if status ∉ terminalStatuses then .error "terminal continuation status is invalid"
      else
        match w.requests.get? f.key.requestId with
        | none => .error "terminal continuation request is missing"
        | some request =>
          (appendRequestSnapshotEvent e.review
            { requestId := f.key.requestId
              source := columnText request.oauthSource
              eventType := .continuation status
              occurredAt := f.now
              payloadJson := e.reviewEventPayloadJson request (.continuation status) f.now
                [("action", .str f.key.action), ("capability", .str capability), ("completedAt", .str completedAt),
                  ("correlationId", .str correlation), ("evidenceId", .str f.evidenceId), ("reason", .str reason),
                  ("status", .str status)]
              eventId := f.reviewEventId
              current := f.binding } w.outbox).map (fun outbox => { w with outbox })
    | _, _, _, _, _ => .error "terminal continuation result is incomplete"

def continuationClaimAllowsFinalization (w : World ρ) (f : Finalize) : Except String Bool :=
  let claim := w.claims.get? f.key
  let owned : Except String Bool :=
    match f.claimId with
    | none => .ok true
    | some claimId =>
      match claim with
      | none => .error "continuation claim ownership changed before finalization"
      | some row =>
        if row.state = .completed then .ok false
        else if row.state ≠ .claimed ∨ columnText row.claimId ≠ claimId then
          .error "continuation claim ownership changed before finalization"
        else .ok true
  owned.map (fun owned => owned &&
    match claim with
    | none => true
    | some row =>
      if row.state ≠ .completed then true
      else
        match row.evidenceId with
        | none => true
        | some stored => stored == f.evidenceId)

def Finalize.row (f : Finalize) : ClaimRow :=
  ⟨if f.terminal then .completed else .waiting, f.now, none, none, some f.evidenceId⟩

def persistContinuationCompletion (e : Env ρ) (f : Finalize) (w : World ρ) : Except String (World ρ) :=
  let w := persistContinuationEvents e f { w with claims := w.claims.insert f.key f.row }
  if f.terminal then appendTerminalReviewEvent e f w else .ok w

def persistContinuationResumeState (e : Env ρ) (f : Finalize) (w : World ρ) : Except String (World ρ) :=
  (e.persistResumeState ⟨f.key.requestId, f.resumeSeed, f.resumeUpdate, f.operationUpdate, f.now⟩ w.resumes).map
    (fun resumes => { w with resumes })

/-- The approval a finalisation is handed, consumed; `none` when it cannot be. -/
def claimSuppliedApproval (e : Env ρ) (f : Finalize) (w : World ρ) : Except String (Option (World ρ)) :=
  match f.approvalDecision with
  | none => .ok (some w)
  | some decision => claimContinuationApprovalAuthority e w f.key.requestId decision f.now f.secret

/-- The transaction of `finalize_continuation_attempt`: the store to commit, or `none` for a rollback and `False`. -/
def finalizeTransaction (e : Env ρ) (f : Finalize) (w : World ρ) : Except String (Option (World ρ)) :=
  claimSuppliedApproval e f w >>= fun approved =>
    match approved with
    | none => .ok none
    | some w =>
      continuationClaimAllowsFinalization w f >>= fun allowed =>
        if allowed = false then .ok none
        else
          persistContinuationResumeState e f w >>= fun w =>
            (persistContinuationCompletion e f w).map some

/-! ## Claims -/

/-- The arguments of `claim_continuation_attempt` and the claim id it generates. -/
structure Claim where
  key : ClaimKey
  now : String
  leaseSeconds : ℚ
  claimId : String

/-- `timedelta(seconds=…)`: whole microseconds, a tie to the even one. -/
def timedelta (seconds : ℚ) : Int :=
  let micros := seconds * 1000000
  let below := ⌊micros⌋
  if micros - below < 1 / 2 then below
  else if 1 / 2 < micros - below then below + 1
  else if below % 2 = 0 then below else below + 1

/-- A lease that is still running at an instant of the caller's clock. -/
def unexpired (lease : Option DateTime) (observedAt : Int) : Bool :=
  match lease.bind DateTime.instant? with
  | none => false
  | some expiry => decide (observedAt < expiry)

/-- The claim is refused: the row is final, or its lease runs. -/
def ClaimRow.refuses (row : ClaimRow) (observedAt : Int) : Bool :=
  match row.state with
  | .completed | .waiting => true
  | .claimed => unexpired row.leaseExpiresAt observedAt

/-- The transaction of `claim_continuation_attempt`: the store to commit and whether the claim is granted. -/
def claimTransaction (e : Env ρ) (c : Claim) (w : World ρ) : Except String (World ρ × Bool) :=
  match e.fromisoformat c.now with
  | none => .error "Invalid isoformat string"
  | some observed =>
    match observed.instant? with
    | none => .error "continuation claim timestamp must be timezone-aware"
    | some observedAt =>
      if c.leaseSeconds ≤ 0 then .error "continuation claim lease must be positive"
      else
        let wall := observed.wall + timedelta c.leaseSeconds
        if DateTime.largest < wall then .error "date value out of range"
        else if (w.claims.get? c.key).any (fun row => row.refuses observedAt) then .ok (w, false)
        else
          let row : ClaimRow := ⟨.claimed, c.now, some ⟨wall, observed.utcoffset⟩, some c.claimId, none⟩
          .ok ({ w with claims := w.claims.insert c.key row }, true)

/-! ## The store as a machine -/

inductive Call where
  | claim (c : Claim)
  | finalize (f : Finalize)

inductive Answer where
  | claimed (id : Option String)
  | finalized (result : Bool)
  | raised (message : String)
deriving DecidableEq

/-- The commit of the connection context, after `finalize_review_event_payload_hashes`. -/
def commit (e : Env ρ) (w : World ρ) : World ρ :=
  { w with outbox := finalizeReviewEventPayloadHashes e.review w.outbox }

def perform (e : Env ρ) (w : World ρ) : Call → World ρ × Answer
  | .claim c =>
    match claimTransaction e c w with
    | .error message => (w, .raised message)
    | .ok (w', granted) => (commit e w', .claimed (if granted then some c.claimId else none))
  | .finalize f =>
    match finalizeTransaction e f w with
    | .error message => (w, .raised message)
    | .ok none => (commit e w, .finalized false)
    | .ok (some w') => (commit e w', .finalized true)

def store (e : Env ρ) : Machine (World ρ) Call Answer := ⟨perform e⟩

end Guard.Continuation
