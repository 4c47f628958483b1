import HolGuard.Lib.KeyMap
import HolGuard.Lib.Machine
import HolGuard.Lib.Text
/-!
# The review event outbox

The three tables of the outbox (`store_review_event_outbox_schema.py`) and the transactions on them: the appends of the
approval triggers and of `append_request_snapshot_event`, `acknowledge_review_events`, `retry_review_events`,
`quarantine_review_event`, `bind_review_events_for_request` and `recover_review_snapshot_sequences`.

A transaction is one step.  One that raises is rolled back by the connection context; one that succeeds is committed
after `finalize_review_event_payload_hashes`.  The OAuth binding that `load_review_oauth_binding` finds in other tables
is an argument of each transaction that reads it, as are the generated event ids and the payload texts.
-/
namespace Guard.Review

open Lib

/-- A complete delivery identity. -/
structure OAuthBinding where
  oauthSubjectHash : String
  workspaceId : String
  machineId : String
  machineInstallationId : String
deriving DecidableEq

/-- The identity columns of the outbox tables, each nullable. -/
structure IdentityColumns where
  oauthSubjectHash : Option String
  workspaceId : Option String
  machineId : Option String
  machineInstallationId : Option String
deriving DecidableEq

def OAuthBinding.columns (b : OAuthBinding) : IdentityColumns :=
  ⟨some b.oauthSubjectHash, some b.workspaceId, some b.machineId, some b.machineInstallationId⟩

def IdentityColumns.unbound : IdentityColumns := ⟨none, none, none, none⟩

def IdentityColumns.values (c : IdentityColumns) : List (Option String) :=
  [c.oauthSubjectHash, c.workspaceId, c.machineId, c.machineInstallationId]

/-- SQL `coalesce`, column by column. -/
def IdentityColumns.orElse (c d : IdentityColumns) : IdentityColumns :=
  ⟨c.oauthSubjectHash <|> d.oauthSubjectHash, c.workspaceId <|> d.workspaceId, c.machineId <|> d.machineId,
    c.machineInstallationId <|> d.machineInstallationId⟩

inductive BindingStatus where
  | ready
  | quarantined
deriving DecidableEq

inductive EventType where
  | created
  | refreshed
  | resolved
  | snapshotRequeued
  | snapshotMigrated
  | continuation (status : String)
deriving DecidableEq

/-- A row of `guard_review_outbox_events` without its number. -/
structure ReviewEvent where
  eventId : String
  localRequestId : String
  requestSequence : Int
  eventType : EventType
  eventSchemaVersion : Nat
  payloadJson : String
  payloadHash : String
  occurredAt : String
  oauthSource : Option String
  identity : IdentityColumns
  bindingStatus : BindingStatus
  quarantineReason : Option String
  acknowledgedAt : Option String
  attemptCount : Nat
  nextAttemptAt : Option String
  lastError : Option String
deriving DecidableEq

/-- A row of `guard_review_outbox_events`. -/
structure EventRow where
  streamSequence : Int
  event : ReviewEvent
deriving DecidableEq

/-- A row of `guard_review_outbox_request_sequences`. -/
structure RequestSequence where
  lastSequence : Int
  updatedAt : String
  oauthSource : Option String
  identity : IdentityColumns
deriving DecidableEq

/-- A row of `guard_review_outbox_cursors`. -/
structure Cursor where
  acknowledgedStreamSequence : Int
  updatedAt : String
deriving DecidableEq

structure Outbox where
  events : List EventRow
  requestSequences : KeyMap String RequestSequence
  cursors : KeyMap (String × OAuthBinding) Cursor
  /-- the row SQLite keeps for the table's autoincrement key -/
  sqliteSequence : Option Int

def Outbox.empty : Outbox := ⟨[], .empty, .empty, none⟩

/-- What `decode_stored_review_event` returns of a row it authenticates. -/
structure StoredReviewEvent where
  streamSequence : Int
  eventId : String
  eventType : EventType

/-- The functions of other modules the outbox calls: `review_event_payload_digest`, a hexadecimal HMAC,
`decode_stored_review_event` and `_retry_at`. -/
structure Services where
  payloadDigest : String → Option String → IdentityColumns → String
  payloadDigest_ne : ∀ payload source identity, payloadDigest payload source identity ≠ ""
  decodeStoredReviewEvent : EventRow → Option StoredReviewEvent
  retryAt : String → Nat → String

def reviewEventSchemaVersion : Nat := 1

/-- The row carries the full OAuth binding. -/
def ReviewEvent.boundTo (e : ReviewEvent) (source : String) (binding : OAuthBinding) : Bool :=
  e.oauthSource == some source && e.identity == binding.columns

def ReviewEvent.ready (e : ReviewEvent) : Bool := e.bindingStatus == .ready

def ReviewEvent.unacknowledged (e : ReviewEvent) : Bool := e.acknowledgedAt.isNone

/-- An SQL `update … where`. -/
def Outbox.update (s : Outbox) (matching : EventRow → Bool) (set : ReviewEvent → ReviewEvent) : Outbox :=
  { s with events := s.events.map (fun r => if matching r then { r with event := set r.event } else r) }

/-! ## Appends -/

/-- `coalesce(max(stream_sequence), 0)`. -/
def largestSequence (events : List EventRow) : Int := (events.map EventRow.streamSequence).max?.getD 0

def largestRowid : Int := 2 ^ 63 - 1

/-- The key of an insert that names none: one above the largest the table ever had. -/
def nextSequence (s : Outbox) : Int := max (s.sqliteSequence.getD 0) (largestSequence s.events) + 1

/-- An insert without a key; SQLite refuses it when the keys are used up. -/
def insertEvent (s : Outbox) (e : ReviewEvent) : Except String Outbox :=
  if largestRowid < nextSequence s then .error "database or disk is full"
  else if s.events.any (fun r => r.event.eventId == e.eventId) then
    .error "UNIQUE constraint failed: guard_review_outbox_events.event_id"
  else if s.events.any (fun r => r.event.localRequestId == e.localRequestId &&
      r.event.requestSequence == e.requestSequence) then
    .error ("UNIQUE constraint failed: guard_review_outbox_events.local_request_id, " ++
      "guard_review_outbox_events.request_sequence")
  else .ok { s with events := s.events ++ [⟨nextSequence s, e⟩], sqliteSequence := some (nextSequence s) }

/-- The upsert both append paths make: the next sequence of the request, and the binding columns where they were null.
The triggers name no binding. -/
def nextRequestSequence (s : Outbox) (requestId updatedAt : String) (source : Option String)
    (identity : IdentityColumns) : RequestSequence :=
  match s.requestSequences.get? requestId with
  | none => ⟨1, updatedAt, source, identity⟩
  | some q => ⟨q.lastSequence + 1, updatedAt, q.oauthSource <|> source, q.identity.orElse identity⟩

def allocateRequestSequence (s : Outbox) (requestId updatedAt : String) (source : Option String)
    (identity : IdentityColumns) : Outbox :=
  { s with requestSequences :=
      s.requestSequences.insert requestId (nextRequestSequence s requestId updatedAt source identity) }

/-- What an approval trigger reads of the written row: `status` differs from the old one or not, and the payload is the
one of the event it writes. -/
structure ApprovalWrite where
  requestId : String
  oauthSource : Option String
  statusChanged : Bool
  payloadJson : String
  occurredAt : String
  eventId : String

/-- `guard_review_outbox_after_insert` -/
def afterInsert (w : ApprovalWrite) (s : Outbox) : Except String Outbox :=
  let q := nextRequestSequence s w.requestId w.occurredAt none .unbound
  insertEvent (allocateRequestSequence s w.requestId w.occurredAt none .unbound)
    { eventId := w.eventId
      localRequestId := w.requestId
      requestSequence := q.lastSequence
      eventType := .created
      eventSchemaVersion := reviewEventSchemaVersion
      payloadJson := w.payloadJson
      payloadHash := ""
      occurredAt := w.occurredAt
      oauthSource := w.oauthSource
      identity := .unbound
      bindingStatus := .quarantined
      quarantineReason := some "identity_incomplete"
      acknowledgedAt := none
      attemptCount := 0
      nextAttemptAt := none
      lastError := none }

/-- `guard_review_outbox_after_update` -/
def afterUpdate (w : ApprovalWrite) (s : Outbox) : Except String Outbox :=
  let q := nextRequestSequence s w.requestId w.occurredAt none .unbound
  let complete := q.identity.values.all Option.isSome
  insertEvent (allocateRequestSequence s w.requestId w.occurredAt none .unbound)
    { eventId := w.eventId
      localRequestId := w.requestId
      requestSequence := q.lastSequence
      eventType := if w.statusChanged then .resolved else .refreshed
      eventSchemaVersion := reviewEventSchemaVersion
      payloadJson := w.payloadJson
      payloadHash := ""
      occurredAt := w.occurredAt
      oauthSource := q.oauthSource <|> w.oauthSource
      identity := q.identity
      bindingStatus := if complete then .ready else .quarantined
      quarantineReason := if complete then none else some "identity_incomplete"
      acknowledgedAt := none
      attemptCount := 0
      nextAttemptAt := none
      lastError := none }

/-- `_binding_for_append`: the columns of the new event, its status and its quarantine reason. -/
def bindingForAppend (current : Option OAuthBinding) (prior : Option RequestSequence) :
    IdentityColumns × BindingStatus × Option String :=
  match prior with
  | none =>
    match current with
    | none => (.unbound, .quarantined, some "identity_incomplete")
    | some b => (b.columns, .ready, none)
  | some q =>
    if q.identity.values.all (fun v => v.any (fun text => !(pythonStrip text).isEmpty)) then
      match current with
      | none => (q.identity, .quarantined, some "identity_changed_requires_confirmation")
      | some b =>
        if q.identity.oauthSubjectHash ≠ some b.oauthSubjectHash ∨ q.identity.workspaceId ≠ some b.workspaceId then
          (q.identity, .quarantined, some "identity_changed_requires_confirmation")
        else (b.columns, .ready, none)
    else (q.identity, .quarantined, some "identity_incomplete")

structure SnapshotAppend where
  requestId : String
  source : String
  eventType : EventType
  occurredAt : String
  payloadJson : String
  eventId : String
  current : Option OAuthBinding

/-- `append_request_snapshot_event`, once the request row is found and its payload built. -/
def appendRequestSnapshotEvent (v : Services) (a : SnapshotAppend) (s : Outbox) : Except String Outbox :=
  let (columns, status, reason) := bindingForAppend a.current (s.requestSequences.get? a.requestId)
  let q := nextRequestSequence s a.requestId a.occurredAt (some a.source) columns
  insertEvent (allocateRequestSequence s a.requestId a.occurredAt (some a.source) columns)
    { eventId := a.eventId
      localRequestId := a.requestId
      requestSequence := q.lastSequence
      eventType := a.eventType
      eventSchemaVersion := reviewEventSchemaVersion
      payloadJson := a.payloadJson
      payloadHash := v.payloadDigest a.payloadJson (some a.source) columns
      occurredAt := a.occurredAt
      oauthSource := some a.source
      identity := columns
      bindingStatus := status
      quarantineReason := reason
      acknowledgedAt := none
      attemptCount := 0
      nextAttemptAt := none
      lastError := none }

def finalizeReviewEventPayloadHashes (v : Services) (s : Outbox) : Outbox :=
  s.update (fun r => r.event.payloadHash == "")
    (fun e => { e with payloadHash := v.payloadDigest e.payloadJson e.oauthSource e.identity })

/-! ## Binding -/

/-- The rows `bind_review_events_for_request` may bind: the unbound first event of a request that has no other. -/
def isBindable (s : Outbox) (requestId source : String) (r : EventRow) : Bool :=
  r.event.localRequestId == requestId && r.event.requestSequence == 1 && r.event.oauthSource == some source &&
    r.event.bindingStatus == .quarantined && r.event.identity == .unbound &&
    !s.events.any (fun later => later.event.localRequestId == requestId && decide (1 < later.event.requestSequence))

def bindReviewEventsForRequest (v : Services) (requestId source : String) (current : Option OAuthBinding)
    (s : Outbox) : Outbox :=
  match current, s.events.find? (isBindable s requestId source) with
  | some b, some candidate =>
    let bound := s.update (fun r => r.streamSequence == candidate.streamSequence) (fun e =>
      { e with payloadHash := v.payloadDigest candidate.event.payloadJson (some source) b.columns,
               identity := b.columns, bindingStatus := .ready, quarantineReason := none })
    { bound with requestSequences :=
        bound.requestSequences.modify requestId (fun q =>
          { q with oauthSource := some source, identity := b.columns }) }
  | _, _ => s

def normalizedDeliveryBinding (b : OAuthBinding) : Except String OAuthBinding :=
  let values : OAuthBinding :=
    ⟨pythonStrip b.oauthSubjectHash, pythonStrip b.workspaceId, pythonStrip b.machineId,
      pythonStrip b.machineInstallationId⟩
  if values.oauthSubjectHash.isEmpty || values.workspaceId.isEmpty || values.machineId.isEmpty ||
      values.machineInstallationId.isEmpty then .error "complete Cloud Review OAuth binding is required"
  else .ok values

/-! ## Delivery -/

/-- `sorted({int(sequence) for sequence in sequences if int(sequence) > 0})` -/
def positiveSequences (sequences : List Int) : List Int :=
  (sequences.filter (fun n => decide (0 < n))).dedup.mergeSort (fun a b => decide (a ≤ b))

structure Acknowledgement where
  source : String
  sequences : List Int
  binding : OAuthBinding
  acknowledgedAt : String

def isAcknowledged (a : Acknowledgement) (r : EventRow) : Bool :=
  (positiveSequences a.sequences).contains r.streamSequence && r.event.boundTo a.source a.binding && r.event.ready &&
    r.event.unacknowledged

def markAcknowledged (a : Acknowledgement) (s : Outbox) : Outbox :=
  s.update (isAcknowledged a) (fun e => { e with acknowledgedAt := some a.acknowledgedAt })

/-- The acknowledged rows before the first unacknowledged one of the binding, in stream order. -/
def acknowledgedRun (a : Acknowledgement) (s : Outbox) : List EventRow :=
  ((s.events.filter (fun r => r.event.boundTo a.source a.binding && r.event.ready)).mergeSort
    (fun r q => decide (r.streamSequence ≤ q.streamSequence))).takeWhile (fun r => !r.event.unacknowledged)

/-- The cursor upsert takes the larger of the two sequences. -/
def raisedCursor (a : Acknowledgement) (n : Int) : Option Cursor → Cursor
  | none => ⟨n, a.acknowledgedAt⟩
  | some c => ⟨max c.acknowledgedStreamSequence n, a.acknowledgedAt⟩

def raiseCursor (a : Acknowledgement) (n : Int) (s : Outbox) : Outbox :=
  let key := (a.source, a.binding)
  { s with cursors := s.cursors.insert key (raisedCursor a n (s.cursors.get? key)) }

def isKept (sequences : List Int) (r : EventRow) : Bool :=
  !(sequences.contains r.streamSequence && r.event.ready)

def compact (sequences : List Int) (s : Outbox) : Outbox := { s with events := s.events.filter (isKept sequences) }

/-- `acknowledge_review_events` of `store_review_event_acknowledgment.py` -/
def acknowledgeReviewEvents (a : Acknowledgement) (s : Outbox) : Outbox × Nat :=
  if (positiveSequences a.sequences).isEmpty then (s, 0)
  else
    let marked := markAcknowledged a s
    let compacted := (acknowledgedRun a marked).map EventRow.streamSequence
    match compacted.getLast? with
    | none => (marked, 0)
    | some n =>
      let kept := compact compacted marked
      (raiseCursor a n kept, marked.events.length - kept.events.length)

structure Retry where
  source : String
  sequences : List Int
  binding : OAuthBinding
  now : String
  error : String

/-- `error[:512]` and its like -/
def takeText (n : Nat) (text : String) : String := String.ofList (text.toList.take n)

/-- One turn of the loop of `retry_review_events`; acknowledged rows are not retried, quarantined ones are. -/
def retryReviewEvent (v : Services) (i : Retry) (acc : Outbox × Nat) (sequence : Int) : Outbox × Nat :=
  match acc.1.events.find? (fun r => r.streamSequence == sequence && r.event.boundTo i.source i.binding &&
      r.event.unacknowledged) with
  | none => acc
  | some row =>
    let attempts := row.event.attemptCount + 1
    (acc.1.update (fun r => r.streamSequence == sequence) (fun e =>
        { e with attemptCount := attempts, nextAttemptAt := some (v.retryAt i.now attempts),
                 lastError := some (takeText 512 i.error) }),
      acc.2 + (acc.1.events.filter (fun r => r.streamSequence == sequence)).length)

def retryReviewEvents (v : Services) (i : Retry) (s : Outbox) : Outbox × Nat :=
  (positiveSequences i.sequences).foldl (retryReviewEvent v i) (s, 0)

structure Quarantine where
  source : String
  sequence : Int
  binding : OAuthBinding
  reason : String
  error : String

def isQuarantinable (i : Quarantine) (r : EventRow) : Bool :=
  r.streamSequence == i.sequence && r.event.boundTo i.source i.binding && r.event.ready && r.event.unacknowledged

def quarantineReviewEvent (i : Quarantine) (s : Outbox) : Outbox × Nat :=
  (s.update (isQuarantinable i) (fun e =>
      { e with bindingStatus := .quarantined, quarantineReason := some (takeText 128 i.reason),
               lastError := some (takeText 512 i.error) }),
    (s.events.filter (isQuarantinable i)).length)

/-! ## Sequence recovery -/

def maxSafeStreamSequence : Int := 2 ^ 53 - 1

def maxSnapshotSequenceCollisions : Nat := 256

structure Recovery where
  source : String
  collisions : KeyMap Int String
  acknowledgedThrough : Int
  binding : OAuthBinding
  current : Option OAuthBinding

def isTrimmed (text : String) : Bool := !text.isEmpty && pythonStrip text == text

/-- The checks on the arguments, before the transaction begins. -/
def recoveryArgumentsOk (i : Recovery) : Bool :=
  !i.collisions.pairs.isEmpty && decide (i.collisions.size ≤ maxSnapshotSequenceCollisions) &&
    decide (0 ≤ i.acknowledgedThrough) && decide (i.acknowledgedThrough ≤ maxSafeStreamSequence) &&
    isTrimmed i.binding.oauthSubjectHash && isTrimmed i.binding.workspaceId && isTrimmed i.binding.machineId &&
    isTrimmed i.binding.machineInstallationId &&
    i.collisions.pairs.all (fun c => decide (0 < c.1) && decide (c.1 ≤ maxSafeStreamSequence) && isTrimmed c.2) &&
    decide (i.collisions.pairs.map Prod.snd).Nodup

/-- The named sequences in ascending order. -/
def collidedSequences (i : Recovery) : List Int :=
  (i.collisions.pairs.map Prod.fst).mergeSort (fun a b => decide (a ≤ b))

def collidedIds (i : Recovery) : List String := i.collisions.pairs.map Prod.snd

/-- An unnamed unacknowledged event of the source comes later in the row's request. -/
def hasLaterEvent (i : Recovery) (s : Outbox) (row : EventRow) : Bool :=
  s.events.any (fun r => r.event.localRequestId == row.event.localRequestId &&
    decide (row.event.requestSequence < r.event.requestSequence) && r.event.unacknowledged &&
    r.event.oauthSource == some i.source && !(collidedIds i).contains r.event.eventId)

/-- The row a collision names is the event it names, deliverable, a requeued snapshot, and authentic. -/
def isRebasable (v : Services) (i : Recovery) (s : Outbox) (sequence : Int) : Bool :=
  match s.events.find? (fun r => r.streamSequence == sequence), i.collisions.get? sequence with
  | some row, some eventId =>
    !hasLaterEvent i s row && row.event.eventId == eventId && row.event.boundTo i.source i.binding &&
      row.event.ready && row.event.unacknowledged && row.event.eventType == .snapshotRequeued &&
      (v.decodeStoredReviewEvent row).any (fun stored => stored.streamSequence == sequence &&
        stored.eventId == eventId && stored.eventType == .snapshotRequeued)
  | _, _ => false

def localCursor (i : Recovery) (s : Outbox) : Int :=
  ((s.cursors.get? (i.source, i.binding)).map Cursor.acknowledgedStreamSequence).getD 0

/-- The largest number any of the counters knows. -/
def recoveryBase (i : Recovery) (s : Outbox) : Int :=
  max (max (max i.acknowledgedThrough (localCursor i s)) (largestSequence s.events)) (s.sqliteSequence.getD 0)

/-- `{old: base + index for index, old in enumerate(sequences, start=1)}` -/
def replacements (base : Int) (sequences : List Int) : List (Int × Int) :=
  sequences.zipIdx.map (fun p => (p.1, base + (p.2 + 1 : Nat)))

/-- The row one turn of the renumbering loop updates. -/
def isRenumbered (i : Recovery) (old : Int) (r : EventRow) : Bool :=
  r.streamSequence == old && some r.event.eventId == i.collisions.get? old && r.event.boundTo i.source i.binding &&
    r.event.ready && r.event.unacknowledged

/-- One turn of the renumbering loop; the key stays unique and one row must change. -/
def renumberEvent (i : Recovery) (s : Outbox) (move : Int × Int) : Except String Outbox :=
  let hits := (s.events.filter (isRenumbered i move.1)).length
  if hits ≠ 0 ∧ s.events.any (fun r => r.streamSequence == move.2) = true then
    .error "UNIQUE constraint failed: guard_review_outbox_events.stream_sequence"
  else if hits ≠ 1 then .error "Review snapshot sequence recovery lost its validated row."
  else .ok { s with events := s.events.map (fun r =>
    if isRenumbered i move.1 r then { r with streamSequence := move.2 } else r) }

/-- `update sqlite_sequence set seq = max(seq, ?)`, or an insert where there is no row. -/
def raiseSqliteSequence (n : Int) (s : Outbox) : Outbox :=
  match s.sqliteSequence with
  | none => { s with sqliteSequence := some n }
  | some q => { s with sqliteSequence := some (max q n) }

/-- The checks of `recover_review_snapshot_sequences` inside the transaction. -/
def recoveryChecksOk (v : Services) (i : Recovery) (s : Outbox) : Bool :=
  i.current == some i.binding &&
    ((s.events.filter (fun r => (collidedSequences i).contains r.streamSequence)).map
      EventRow.streamSequence).dedup.length == i.collisions.size &&
    (collidedSequences i).all (isRebasable v i s) &&
    decide (recoveryBase i s ≤ maxSafeStreamSequence - (collidedSequences i).length)

/-- `recover_review_snapshot_sequences` of `store_review_event_outbox_writes.py` -/
def recoverReviewSnapshotSequences (v : Services) (i : Recovery) (s : Outbox) :
    Except String (Outbox × List (Int × Int)) :=
  if !recoveryArgumentsOk i then .ok (s, [])
  else if !recoveryChecksOk v i s then .ok (s, [])
  else
    let moves := replacements (recoveryBase i s) (collidedSequences i)
    (moves.foldlM (renumberEvent i) s).map (fun moved =>
      (raiseSqliteSequence (recoveryBase i s + (collidedSequences i).length) moved, moves))

/-! ## The store -/

inductive Operation where
  | approvalInserted (w : ApprovalWrite)
  | approvalUpdated (w : ApprovalWrite)
  | appendSnapshot (a : SnapshotAppend)
  | bind (requestId source : String) (current : Option OAuthBinding)
  | acknowledge (a : Acknowledgement)
  | retry (i : Retry)
  | quarantine (i : Quarantine)
  | recover (i : Recovery)

inductive Answer where
  | count (n : Nat)
  | replaced (moves : List (Int × Int))

/-- One transaction of the store mixins, before the commit.  An acknowledgement or a retry that names no sequence
returns before its binding is looked at, and a recovery with an incomplete binding answers with no replacement. -/
def perform (v : Services) (s : Outbox) : Operation → Except String (Outbox × Answer)
  | .approvalInserted w => (afterInsert w s).map (fun t => (t, .count 1))
  | .approvalUpdated w => (afterUpdate w s).map (fun t => (t, .count 1))
  | .appendSnapshot a => (appendRequestSnapshotEvent v a s).map (fun t => (t, .count 1))
  | .bind requestId source current => .ok (bindReviewEventsForRequest v requestId source current s, .count 0)
  | .acknowledge a =>
    if (positiveSequences a.sequences).isEmpty then .ok (s, .count 0)
    else (normalizedDeliveryBinding a.binding).map (fun b =>
      ((acknowledgeReviewEvents { a with binding := b } s).1,
        .count (acknowledgeReviewEvents { a with binding := b } s).2))
  | .retry i =>
    if (positiveSequences i.sequences).isEmpty then .ok (s, .count 0)
    else (normalizedDeliveryBinding i.binding).map (fun b =>
      ((retryReviewEvents v { i with binding := b } s).1, .count (retryReviewEvents v { i with binding := b } s).2))
  | .quarantine i =>
    (normalizedDeliveryBinding i.binding).map (fun b =>
      ((quarantineReviewEvent { i with binding := b } s).1, .count (quarantineReviewEvent { i with binding := b } s).2))
  | .recover i =>
    match normalizedDeliveryBinding i.binding with
    | .error _ => .ok (s, .replaced [])
    | .ok b => (recoverReviewSnapshotSequences v { i with binding := b } s).map (fun r => (r.1, .replaced r.2))

/-- A transaction as its caller sees it: committed as a whole, or raised and rolled back. -/
def transact (v : Services) (s : Outbox) (op : Operation) : Outbox × Except String Answer :=
  match perform v s op with
  | .error e => (s, .error e)
  | .ok (t, answer) => (finalizeReviewEventPayloadHashes v t, .ok answer)

def store (v : Services) : Machine Outbox Operation (Except String Answer) := ⟨transact v⟩

end Guard.Review
