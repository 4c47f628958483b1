import HolGuard.Lib.Checks
import HolGuard.Lib.NumberedStream
import HolGuard.Review.Outbox
/-!
# Delivery order of the review outbox

The outbox is a numbered stream (`Outbox.stream`): the request is the lane, the request sequence the position, the OAuth
source the tag, and SQLite's autoincrement counter the mark.  Every transaction is a run of the stream's steps
(`transact_runs`), so the invariants of such streams hold after any history of transactions.  What an acknowledgement
may delete and what a recovery may move is read off the transactions themselves.
-/
namespace Guard.Review

open Lib Lib.NumberedStream

def entryOf (r : EventRow) : Entry String String (Option String) :=
  ⟨r.streamSequence, r.event.eventId, r.event.localRequestId, r.event.requestSequence, r.event.oauthSource,
    !r.event.unacknowledged⟩

def Outbox.lastSequence (s : Outbox) (requestId : String) : Int :=
  ((s.requestSequences.get? requestId).map RequestSequence.lastSequence).getD 0

/-- **The abstract stream an outbox holds.** -/
def Outbox.stream (s : Outbox) : Stream String String (Option String) :=
  ⟨s.events.map entryOf, s.sqliteSequence.getD 0, s.lastSequence⟩

def after (v : Services) (ops : List Operation) : Outbox := (store v).final .empty ops

theorem after_concat (v : Services) (ops : List Operation) (op : Operation) :
    after v (ops ++ [op]) = (transact v (after v ops) op).1 := by
  unfold after
  rw [Machine.final_append]
  rfl

theorem sound_empty : Sound Outbox.empty.stream := by
  constructor <;> simp [Outbox.stream, Outbox.empty]

/-! ## Transactions that only rewrite columns -/

/-- An update leaves alone what the stream reads of an event. -/
structure KeepsEvent (set : ReviewEvent → ReviewEvent) : Prop where
  eventId : ∀ e, (set e).eventId = e.eventId
  localRequestId : ∀ e, (set e).localRequestId = e.localRequestId
  requestSequence : ∀ e, (set e).requestSequence = e.requestSequence
  oauthSource : ∀ e, (set e).oauthSource = e.oauthSource
  acknowledgedAt : ∀ e, (set e).acknowledgedAt = e.acknowledgedAt

theorem stream_update (s : Outbox) (matching : EventRow → Bool) (set : ReviewEvent → ReviewEvent)
    (h : KeepsEvent set) : (s.update matching set).stream = s.stream := by
  have hrow : ∀ r : EventRow, entryOf (if matching r then { r with event := set r.event } else r) = entryOf r := by
    intro r
    split
    · simp [entryOf, ReviewEvent.unacknowledged, h.eventId, h.localRequestId, h.requestSequence, h.oauthSource,
        h.acknowledgedAt]
    · rfl
  unfold Outbox.stream Outbox.update
  simp only [List.map_map]
  congr 1
  exact List.map_congr_left fun r _ => hrow r

theorem keepsEvent_finalize (v : Services) : KeepsEvent (fun e =>
    { e with payloadHash := v.payloadDigest e.payloadJson e.oauthSource e.identity }) := by
  constructor <;> intro e <;> rfl

theorem stream_finalize (v : Services) (s : Outbox) : (finalizeReviewEventPayloadHashes v s).stream = s.stream :=
  stream_update s _ _ (keepsEvent_finalize v)

theorem stream_retryReviewEvent (v : Services) (i : Retry) (acc : Outbox × Nat) (sequence : Int) :
    (retryReviewEvent v i acc sequence).1.stream = acc.1.stream := by
  unfold retryReviewEvent
  split
  · rfl
  · exact stream_update _ _ _ (by constructor <;> intro e <;> rfl)

theorem stream_retryReviewEvents (v : Services) (i : Retry) (s : Outbox) :
    (retryReviewEvents v i s).1.stream = s.stream :=
  List.foldlRecOn (motive := fun acc : Outbox × Nat => acc.1.stream = s.stream) _ _ rfl fun acc hacc n _ =>
    (stream_retryReviewEvent v i acc n).trans hacc

theorem stream_quarantineReviewEvent (i : Quarantine) (s : Outbox) :
    (quarantineReviewEvent i s).1.stream = s.stream :=
  stream_update _ _ _ (by constructor <;> intro e <;> rfl)

theorem stream_bind (v : Services) (requestId source : String) (current : Option OAuthBinding) (s : Outbox) :
    (bindReviewEventsForRequest v requestId source current s).stream = s.stream := by
  unfold bindReviewEventsForRequest
  split
  · rename_i b candidate _
    have hupdate := stream_update s (fun r => r.streamSequence == candidate.streamSequence) (fun e =>
      { e with payloadHash := v.payloadDigest candidate.event.payloadJson (some source) b.columns,
               identity := b.columns, bindingStatus := .ready, quarantineReason := none })
      (by constructor <;> intro e <;> rfl)
    rw [← hupdate]
    unfold Outbox.stream Outbox.lastSequence
    simp only
    congr 1
    funext request
    rw [KeyMap.get?_modify]
    split
    · cases Outbox.requestSequences _ |>.get? request <;> rfl
    · rfl
  · rfl

/-! ## Appends -/

variable {s t : Outbox}

theorem insertEvent_eq_ok {e : ReviewEvent} (h : insertEvent s e = .ok t) :
    (∀ r ∈ s.events, r.event.eventId ≠ e.eventId) ∧
      t = { s with events := s.events ++ [⟨nextSequence s, e⟩], sqliteSequence := some (nextSequence s) } := by
  unfold insertEvent at h
  simp only [ite_error_eq_ok] at h
  obtain ⟨-, hid, -, h⟩ := h
  refine ⟨fun r hr heq => hid (List.any_eq_true.2 ⟨r, hr, beq_iff_eq.2 heq⟩), (Except.ok.inj h).symm⟩

theorem lastSequence_allocate (s : Outbox) (requestId updatedAt : String) (source : Option String)
    (identity : IdentityColumns) : (allocateRequestSequence s requestId updatedAt source identity).lastSequence =
      Function.update s.lastSequence requestId
        (nextRequestSequence s requestId updatedAt source identity).lastSequence := by
  funext request
  unfold Outbox.lastSequence allocateRequestSequence
  rw [KeyMap.get?_insert]
  by_cases hr : request = requestId
  · subst hr
    simp
  · simp [hr]

theorem nextRequestSequence_lastSequence (s : Outbox) (requestId updatedAt : String) (source : Option String)
    (identity : IdentityColumns) :
    (nextRequestSequence s requestId updatedAt source identity).lastSequence = s.lastSequence requestId + 1 := by
  unfold nextRequestSequence Outbox.lastSequence
  cases s.requestSequences.get? requestId <;> simp

/-- **An append grows the stream**: the number is the next one of the table, the position the next one of the
request. -/
theorem append_grows {requestId updatedAt : String} {source : Option String}
    {identity : IdentityColumns} {e : ReviewEvent} (hid : e.localRequestId = requestId)
    (hopen : e.acknowledgedAt = none)
    (hseq : e.requestSequence = (nextRequestSequence s requestId updatedAt source identity).lastSequence)
    (ht : insertEvent (allocateRequestSequence s requestId updatedAt source identity) e = .ok t) :
    Growth s.stream t.stream := by
  subst hid
  obtain ⟨hfresh, hnew⟩ := insertEvent_eq_ok ht
  have hstream : t.stream = ⟨s.stream.entries ++ [entryOf ⟨nextSequence s, e⟩], nextSequence s,
      Function.update s.stream.last e.localRequestId e.requestSequence⟩ := by
    rw [hnew]
    unfold Outbox.stream
    simp only [List.map_append, List.map_cons, List.map_nil, Option.getD_some, hseq]
    rw [← lastSequence_allocate]
    rfl
  rw [hstream]
  refine Growth.append s.stream (entryOf ⟨nextSequence s, e⟩) (by simp [entryOf, ReviewEvent.unacknowledged, hopen])
    ?_ ?_ ?_
  · show s.sqliteSequence.getD 0 < nextSequence s
    unfold nextSequence
    omega
  · show s.lastSequence e.localRequestId < e.requestSequence
    rw [hseq, nextRequestSequence_lastSequence]
    omega
  · intro d hd
    obtain ⟨r, hr, rfl⟩ := List.mem_map.1 hd
    exact hfresh r hr

/-! ## Acknowledgements -/

variable {r : EventRow}

theorem sequence_le_mark (h : Sound s.stream) (hr : r ∈ s.events) :
    r.streamSequence ≤ s.stream.mark :=
  h.mark _ (List.mem_map_of_mem hr)

theorem nodup_sequences (h : Sound s.stream) : (s.events.map EventRow.streamSequence).Nodup := by
  have hentries : (s.events.map entryOf).Pairwise (fun e d => e.number ≠ d.number) := h.numbers
  have hrows := List.pairwise_map.1 hentries
  exact List.pairwise_map.2 hrows

/-- The key of the events table: a number names one row. -/
theorem row_eq_of_sequence (h : Sound s.stream) {q : EventRow} (hr : r ∈ s.events)
    (hq : q ∈ s.events) (hn : r.streamSequence = q.streamSequence) : r = q :=
  List.inj_on_of_nodup_map (nodup_sequences h) hr hq hn

variable {sequences : List Int} {n : Int}

theorem mem_positiveSequences : n ∈ positiveSequences sequences ↔ n ∈ sequences ∧ 0 < n := by
  simp [positiveSequences]

variable {a : Acknowledgement}

theorem mem_markAcknowledged (h : r ∈ (markAcknowledged a s).events) :
    r ∈ s.events ∨ ∃ q ∈ s.events, isAcknowledged a q = true ∧
      r = { q with event := { q.event with acknowledgedAt := some a.acknowledgedAt } } := by
  obtain ⟨q, hq, rfl⟩ := List.mem_map.1 h
  by_cases hm : isAcknowledged a q = true
  · exact .inr ⟨q, hq, hm, by simp [hm]⟩
  · simp only [hm]
    exact .inl hq

/-- **Marking is a step of the stream.** -/
theorem markAcknowledged_step (h : Sound s.stream) (a : Acknowledgement) :
    Step s.stream (markAcknowledged a s).stream := by
  have hstream : (markAcknowledged a s).stream = { s.stream with entries := s.stream.entries.map (Entry.finish
      (fun e => s.events.any (fun r => r.streamSequence == e.number && isAcknowledged a r))) } := by
    unfold Outbox.stream markAcknowledged Outbox.update
    simp only [List.map_map]
    congr 1
    refine List.map_congr_left fun r hr => ?_
    -- the number of an entry names the row, so the rows an update matches are given by their numbers
    have hnamed : s.events.any (fun q => q.streamSequence == (entryOf r).number && isAcknowledged a q) =
        isAcknowledged a r := by
      rw [Bool.eq_iff_iff, List.any_eq_true]
      constructor
      · rintro ⟨q, hq, hm⟩
        simp only [Bool.and_eq_true, beq_iff_eq] at hm
        rw [← row_eq_of_sequence h hq hr hm.1]
        exact hm.2
      · exact fun hm => ⟨r, hr, by simpa [entryOf] using hm⟩
    simp only [Function.comp, Entry.finish, hnamed]
    by_cases hm : isAcknowledged a r = true <;> simp [hm, entryOf, ReviewEvent.unacknowledged]
  rw [hstream]
  exact Step.finish _ _

theorem mem_acknowledgedRun (h : r ∈ acknowledgedRun a s) :
    r ∈ s.events ∧ r.event.boundTo a.source a.binding = true ∧ r.event.ready = true ∧
      r.event.unacknowledged = false := by
  have hack := List.mem_takeWhile_imp h
  have hmem := List.mem_mergeSort.1 ((List.takeWhile_subset _) h)
  obtain ⟨hr, hbound⟩ := List.mem_filter.1 hmem
  simp only [Bool.and_eq_true] at hbound
  exact ⟨hr, hbound.1, hbound.2, by simpa using hack⟩

/-- **Compaction is a step of the stream**: what it deletes is acknowledged. -/
theorem compact_step (h : Sound s.stream) (a : Acknowledgement) :
    Step s.stream (compact ((acknowledgedRun a s).map EventRow.streamSequence) s).stream := by
  set compacted := (acknowledgedRun a s).map EventRow.streamSequence with hc
  have hrow : ∀ r ∈ s.events, r.streamSequence ∈ compacted → r ∈ acknowledgedRun a s := by
    intro r hr hn
    obtain ⟨q, hq, hqn⟩ := List.mem_map.1 hn
    rwa [← row_eq_of_sequence h (mem_acknowledgedRun hq).1 hr hqn]
  have hstream : (compact compacted s).stream =
      { s.stream with entries := s.stream.entries.filter (fun e => !compacted.contains e.number) } := by
    unfold Outbox.stream Outbox.lastSequence compact
    simp only [List.filter_map]
    congr 2
    refine List.filter_congr fun r hr => ?_
    by_cases hn : r.streamSequence ∈ compacted
    · simp [isKept, entryOf, hn, (mem_acknowledgedRun (hrow r hr hn)).2.2.1]
    · simp [isKept, entryOf, hn]
  rw [hstream]
  refine Step.drop _ _ fun e he hgone => ?_
  obtain ⟨r, hr, rfl⟩ := List.mem_map.1 he
  have := (mem_acknowledgedRun (hrow r hr (by simpa [entryOf] using hgone))).2.2.2
  simp [entryOf, this]

/-- What an acknowledgement does to the tables, after the marking. -/
theorem acknowledge_cases (a : Acknowledgement) (s : Outbox) : (acknowledgeReviewEvents a s).1 = s ∨
    (acknowledgeReviewEvents a s).1 = markAcknowledged a s ∨ ∃ n, (acknowledgeReviewEvents a s).1 = raiseCursor a n
      (compact ((acknowledgedRun a (markAcknowledged a s)).map EventRow.streamSequence) (markAcknowledged a s)) := by
  unfold acknowledgeReviewEvents
  split
  · exact .inl rfl
  · simp only
    split
    · exact .inr (.inl rfl)
    · exact .inr (.inr ⟨_, rfl⟩)

theorem acknowledge_runs (h : Sound s.stream) (a : Acknowledgement) :
    Runs s.stream (acknowledgeReviewEvents a s).1.stream := by
  have hmark := markAcknowledged_step h a
  obtain heq | heq | ⟨n, heq⟩ := acknowledge_cases a s
  · rw [heq]
  · rw [heq]
    exact .single hmark
  · rw [heq]
    exact (Relation.ReflTransGen.single hmark).tail (compact_step (hmark.sound h) a)

/-! ## Recoveries -/

def rebased (moves : List (Int × Int)) (n : Int) : Int := (moves.lookup n).getD n

def Outbox.rebase (moves : List (Int × Int)) (s : Outbox) : Outbox :=
  { s with events := s.events.map (fun r => { r with streamSequence := rebased moves r.streamSequence }) }

/-- The moves can be made one after the other: each names a row the loop will match and has a number of its own that
no row holds and no move names. -/
structure Movable (i : Recovery) (s : Outbox) (moves : List (Int × Int)) : Prop where
  sources : (moves.map Prod.fst).Nodup
  targets : (moves.map Prod.snd).Nodup
  present : ∀ m ∈ moves, ∃ r ∈ s.events, r.streamSequence = m.1
  matched : ∀ m ∈ moves, ∀ r ∈ s.events, r.streamSequence = m.1 → isRenumbered i m.1 r = true
  free : ∀ m ∈ moves, ∀ r ∈ s.events, r.streamSequence ≠ m.2
  apart : ∀ m ∈ moves, ∀ m' ∈ moves, m.1 ≠ m'.2
  unique : (s.events.map EventRow.streamSequence).Nodup

variable {i : Recovery}

theorem isRenumbered_sequence (h : isRenumbered i n r = true) : r.streamSequence = n := by
  simp only [isRenumbered, Bool.and_eq_true, beq_iff_eq] at h
  exact h.1.1.1.1

variable {moves : List (Int × Int)} {m : Int × Int}

/-- The row a turn of the loop renumbers is the one with the old number. -/
theorem isRenumbered_iff (h : Movable i s moves) (hm : m ∈ moves) (hr : r ∈ s.events) :
    isRenumbered i m.1 r = true ↔ r.streamSequence = m.1 :=
  ⟨isRenumbered_sequence, h.matched m hm r hr⟩

theorem length_filter_of_unique {events : List EventRow}
    (hu : (events.map EventRow.streamSequence).Nodup) (h : ∃ r ∈ events, r.streamSequence = n) :
    (events.filter (fun r => r.streamSequence == n)).length = 1 := by
  have hcount := List.count_eq_one_of_mem hu (List.mem_map.2 h)
  rwa [List.count, List.countP_map, List.countP_eq_length_filter] at hcount

theorem rebased_singleton (m : Int × Int) (n : Int) : rebased [m] n = if n = m.1 then m.2 else n := by
  rw [rebased, List.lookup_cons]
  by_cases hn : n = m.1
  · simp [hn]
  · simp [hn, beq_false_of_ne hn]

/-- **One turn of the renumbering loop** gives the named row its new number. -/
theorem renumberEvent_eq (h : Movable i s moves) (hm : m ∈ moves) :
    renumberEvent i s m = .ok (s.rebase [m]) := by
  have hfilter : s.events.filter (isRenumbered i m.1) = s.events.filter (fun r => r.streamSequence == m.1) :=
    List.filter_congr fun r hr => by
      rw [Bool.eq_iff_iff, isRenumbered_iff h hm hr, beq_iff_eq]
  have hhits : (s.events.filter (isRenumbered i m.1)).length = 1 := by
    rw [hfilter]
    exact length_filter_of_unique h.unique (h.present m hm)
  have hfree : s.events.any (fun r => r.streamSequence == m.2) = false := by
    rw [List.any_eq_false]
    exact fun r hr hn => h.free m hm r hr (beq_iff_eq.1 hn)
  unfold renumberEvent Outbox.rebase
  rw [hhits, hfree]
  simp only [ne_eq, Bool.false_eq_true, and_false, if_false, not_true_eq_false]
  congr 2
  refine List.map_congr_left fun r hr => ?_
  rw [rebased_singleton]
  by_cases hn : r.streamSequence = m.1
  · rw [if_pos hn, if_pos ((isRenumbered_iff h hm hr).2 hn)]
  · rw [if_neg hn, if_neg fun hyes => hn (isRenumbered_sequence hyes)]

theorem lookup_mem {n' : Int} (h : moves.lookup n = some n') : (n, n') ∈ moves := by
  obtain ⟨before, after, rfl, -⟩ := List.lookup_eq_some_iff.1 h
  simp

theorem rebased_of_notMem (h : n ∉ moves.map Prod.fst) : rebased moves n = n := by
  unfold rebased
  cases hl : moves.lookup n with
  | none => rfl
  | some n' => exact absurd (List.mem_map_of_mem (lookup_mem hl)) h

theorem rebased_cons (h : m.2 ∉ moves.map Prod.fst) (n : Int) :
    rebased moves (rebased [m] n) = rebased (m :: moves) n := by
  rw [rebased_singleton]
  by_cases hn : n = m.1
  · rw [if_pos hn, rebased_of_notMem h, rebased, List.lookup_cons, hn, beq_self_eq_true]
    rfl
  · rw [if_neg hn, rebased, rebased, List.lookup_cons, beq_false_of_ne hn]

/-- After the first move the others can still be made. -/
theorem Movable.tail (h : Movable i s (m :: moves)) : Movable i (s.rebase [m]) moves := by
  have hsources := h.sources
  have htargets := h.targets
  simp only [List.map_cons, List.nodup_cons] at hsources htargets
  have hrow : ∀ r ∈ s.events, ∀ m' ∈ moves, rebased [m] r.streamSequence = m'.1 ↔ r.streamSequence = m'.1 := by
    intro r hr m' hm'
    rw [rebased_singleton]
    split
    · rename_i hn
      rw [hn]
      refine iff_of_false (fun heq => ?_) (fun heq => hsources.1 (heq ▸ List.mem_map_of_mem hm'))
      exact h.apart m' (List.mem_cons_of_mem _ hm') m List.mem_cons_self heq.symm
    · rfl
  refine ⟨hsources.2, htargets.2, fun m' hm' => ?_, fun m' hm' r' hr' hn => ?_, fun m' hm' r' hr' => ?_,
    fun a ha b hb => h.apart a (List.mem_cons_of_mem _ ha) b (List.mem_cons_of_mem _ hb), ?_⟩
  · obtain ⟨r, hr, hn⟩ := h.present m' (List.mem_cons_of_mem _ hm')
    exact ⟨_, List.mem_map_of_mem hr, (hrow r hr m' hm').2 hn⟩
  · obtain ⟨r, hr, rfl⟩ := List.mem_map.1 hr'
    have hold := (hrow r hr m' hm').1 hn
    have := h.matched m' (List.mem_cons_of_mem _ hm') r hr hold
    simp only [isRenumbered, Bool.and_eq_true, beq_iff_eq] at this ⊢
    exact ⟨⟨⟨⟨hn, this.1.1.1.2⟩, this.1.1.2⟩, this.1.2⟩, this.2⟩
  · obtain ⟨r, hr, rfl⟩ := List.mem_map.1 hr'
    simp only [rebased_singleton]
    split
    · exact fun heq => htargets.1 (heq ▸ List.mem_map_of_mem hm')
    · exact h.free m' (List.mem_cons_of_mem _ hm') r hr
  · have hmap : (s.rebase [m]).events.map EventRow.streamSequence =
        (s.events.map EventRow.streamSequence).map (rebased [m]) := by
      simp [Outbox.rebase, Function.comp_def]
    rw [hmap]
    refine List.Nodup.map_on (fun a ha b hb heq => ?_) h.unique
    obtain ⟨r, hr, rfl⟩ := List.mem_map.1 ha
    obtain ⟨q, hq, rfl⟩ := List.mem_map.1 hb
    have hfree := h.free m List.mem_cons_self
    rw [rebased_singleton, rebased_singleton] at heq
    split at heq <;> split at heq
    · exact (‹r.streamSequence = m.1›).trans (Eq.symm ‹_›)
    · exact absurd heq.symm (hfree q hq)
    · exact absurd heq (hfree r hr)
    · exact heq

/-- **The renumbering loop makes every move.** -/
theorem foldlM_renumberEvent : ∀ {moves : List (Int × Int)} {s : Outbox}, Movable i s moves →
    moves.foldlM (renumberEvent i) s = .ok (s.rebase moves)
  | [], s, _ => by
    have hid : s.rebase [] = s := by simp [Outbox.rebase, rebased]
    rw [hid]
    rfl
  | m :: moves, s, h => by
    rw [List.foldlM_cons, renumberEvent_eq h List.mem_cons_self]
    have htail := foldlM_renumberEvent h.tail
    have hfresh : m.2 ∉ moves.map Prod.fst := by
      rintro hmem
      obtain ⟨m', hm', heq⟩ := List.mem_map.1 hmem
      exact h.apart m' (List.mem_cons_of_mem _ hm') m List.mem_cons_self heq
    have hcompose : (s.rebase [m]).rebase moves = s.rebase (m :: moves) := by
      simp only [Outbox.rebase, List.map_map, Function.comp_def, rebased_cons hfresh]
    rw [← hcompose]
    exact htail

theorem lookup_of_mem (hu : (moves.map Prod.fst).Nodup) (h : m ∈ moves) :
    moves.lookup m.1 = some m.2 := by
  obtain ⟨n', hn'⟩ := Option.isSome_iff_exists.1 (List.lookup_isSome_iff.2 ⟨m, h, beq_self_eq_true m.1⟩)
  rw [hn', ← List.inj_on_of_nodup_map hu (lookup_mem hn') h rfl]

theorem replacements_fst (base : Int) (sequences : List Int) :
    (replacements base sequences).map Prod.fst = sequences := by
  simp [replacements, Function.comp_def]

theorem mem_replacements {base : Int} :
    m ∈ replacements base sequences ↔ ∃ k, ∃ hk : k < sequences.length, m = (sequences[k], base + (k + 1 : Nat)) := by
  unfold replacements
  constructor
  · intro h
    obtain ⟨⟨n, k⟩, hp, rfl⟩ := List.mem_map.1 h
    obtain ⟨hk, hn⟩ := List.mem_zipIdx' hp
    exact ⟨k, hk, by rw [hn]⟩
  · rintro ⟨k, hk, rfl⟩
    exact List.mem_map.2 ⟨(sequences[k], k), List.mk_mem_zipIdx_iff_getElem?.2 (List.getElem?_eq_getElem hk), rfl⟩

theorem replacements_above {base : Int} (h : m ∈ replacements base sequences) :
    base < m.2 ∧ m.2 ≤ base + sequences.length := by
  obtain ⟨k, hk, rfl⟩ := mem_replacements.1 h
  constructor <;> simp only <;> omega

theorem replacements_snd_nodup (base : Int) (sequences : List Int) :
    ((replacements base sequences).map Prod.snd).Nodup := by
  have hsnd : (replacements base sequences).map Prod.snd =
      (List.range' 0 sequences.length).map (fun k => base + ((k + 1 : Nat) : Int)) := by
    rw [replacements, List.map_map, ← List.zipIdx_map_snd 0 sequences, List.map_map]
    rfl
  rw [hsnd]
  refine List.Nodup.map (fun a b hab => ?_) List.nodup_range'
  omega

theorem rebased_replacements {base : Int} (hu : sequences.Nodup) {k : Nat} (hk : k < sequences.length) :
    rebased (replacements base sequences) sequences[k] = base + (k + 1 : Nat) := by
  have hlookup := lookup_of_mem (by rwa [replacements_fst]) (mem_replacements.2 ⟨k, hk, rfl⟩ :
    (sequences[k], base + ((k + 1 : Nat) : Int)) ∈ replacements base sequences)
  simp only at hlookup
  rw [rebased, hlookup]
  rfl

/-- **The moves keep the old order.** -/
theorem rebased_replacements_lt {base : Int} (hs : sequences.Pairwise (· < ·)) {m : Int}
    (hn : n ∈ sequences) (hm : m ∈ sequences) (h : n < m) :
    rebased (replacements base sequences) n < rebased (replacements base sequences) m := by
  have hu : sequences.Nodup := hs.imp fun hlt => hlt.ne
  obtain ⟨a, ha, rfl⟩ := List.getElem_of_mem hn
  obtain ⟨b, hb, rfl⟩ := List.getElem_of_mem hm
  have hab : a < b := by
    by_contra hle
    rcases Nat.lt_or_eq_of_le (Nat.not_lt.1 hle) with hlt | heq
    · exact absurd (List.pairwise_iff_getElem.1 hs b a hb ha hlt) h.le.not_gt
    · subst heq
      exact lt_irrefl _ h
  rw [rebased_replacements hu ha, rebased_replacements hu hb]
  omega

theorem collidedSequences_perm (i : Recovery) : (collidedSequences i).Perm (i.collisions.pairs.map Prod.fst) :=
  List.mergeSort_perm _ _

theorem pairwise_collidedSequences (i : Recovery) : (collidedSequences i).Pairwise (· < ·) := by
  have hle : (collidedSequences i).Pairwise (fun a b => decide (a ≤ b) = true) :=
    List.pairwise_mergeSort (by simpa using fun a b c => Int.le_trans) (by simpa using Int.le_total) _
  have hne : (collidedSequences i).Pairwise (· ≠ ·) := (collidedSequences_perm i).nodup_iff.2 i.collisions.keysNodup
  refine (hle.and hne).imp fun {a b} h => ?_
  exact lt_of_le_of_ne (of_decide_eq_true h.1) h.2

theorem mem_collidedSequences : n ∈ collidedSequences i ↔ ∃ id, i.collisions.get? n = some id := by
  rw [(collidedSequences_perm i).mem_iff, KeyMap.mem_keys_iff]

/-- A row the recovery has validated. -/
structure Validated (i : Recovery) (s : Outbox) (r : EventRow) : Prop where
  mem : r ∈ s.events
  named : i.collisions.get? r.streamSequence = some r.event.eventId
  bound : r.event.boundTo i.source i.binding = true
  ready : r.event.ready = true
  unacknowledged : r.event.unacknowledged = true
  last : hasLaterEvent i s r = false

variable {v : Services}

theorem validated_of_isRebasable (h : isRebasable v i s n = true) :
    ∃ r, r.streamSequence = n ∧ Validated i s r := by
  unfold isRebasable at h
  split at h
  · rename_i row eventId hrow hid
    have hmem := List.mem_of_find?_eq_some hrow
    have hn : row.streamSequence = n := by simpa using List.find?_some hrow
    simp only [Bool.and_eq_true, Bool.not_eq_true', beq_iff_eq] at h
    obtain ⟨⟨⟨⟨⟨⟨hlater, heq⟩, hbound⟩, hready⟩, hopen⟩, -⟩, -⟩ := h
    exact ⟨row, hn, hmem, by rw [hn, hid, heq], hbound, hready, hopen, hlater⟩
  · cases h

theorem boundTo_iff {e : ReviewEvent} {source : String} {b : OAuthBinding} :
    e.boundTo source b = true ↔ e.oauthSource = some source ∧ e.identity = b.columns := by
  simp [ReviewEvent.boundTo]

theorem mark_le_recoveryBase (i : Recovery) (s : Outbox) : s.stream.mark ≤ recoveryBase i s :=
  le_max_right _ _

/-- The validated moves can be made. -/
theorem movable_replacements (h : Sound s.stream)
    (hv : ∀ n ∈ collidedSequences i, ∃ r, r.streamSequence = n ∧ Validated i s r) :
    Movable i s (replacements (recoveryBase i s) (collidedSequences i)) := by
  have hbase := mark_le_recoveryBase i s
  have hsource : ∀ m ∈ replacements (recoveryBase i s) (collidedSequences i), m.1 ∈ collidedSequences i := by
    intro m hm
    rw [← replacements_fst (recoveryBase i s) (collidedSequences i)]
    exact List.mem_map_of_mem hm
  refine ⟨?_, replacements_snd_nodup _ _, fun m hm => ?_, fun m hm r hr hn => ?_, fun m hm r hr => ?_,
    fun m hm m' hm' => ?_, nodup_sequences h⟩
  · rw [replacements_fst]
    exact (pairwise_collidedSequences i).imp fun hlt => hlt.ne
  · obtain ⟨r, hn, hval⟩ := hv m.1 (hsource m hm)
    exact ⟨r, hval.mem, hn⟩
  · obtain ⟨q, hq, hval⟩ := hv m.1 (hsource m hm)
    obtain rfl := row_eq_of_sequence h hr hval.mem (hn.trans hq.symm)
    simp only [isRenumbered, Bool.and_eq_true, beq_iff_eq]
    exact ⟨⟨⟨⟨hn, by rw [← hn, hval.named]⟩, hval.bound⟩, hval.ready⟩, hval.unacknowledged⟩
  · have := sequence_le_mark h hr
    have := (replacements_above hm).1
    omega
  · obtain ⟨r, hn, hval⟩ := hv m.1 (hsource m hm)
    have := sequence_le_mark h hval.mem
    have := (replacements_above hm').1
    omega

theorem eventId_unique (h : Sound s.stream) {q : EventRow} (hr : r ∈ s.events) (hq : q ∈ s.events)
    (hid : r.event.eventId = q.event.eventId) : r = q := by
  have hentries : (s.events.map entryOf).Pairwise (fun e d => e.name ≠ d.name) := h.names
  have hrows := List.pairwise_map.1 hentries
  have hnodup : (s.events.map (fun r => r.event.eventId)).Nodup := List.pairwise_map.2 hrows
  exact List.inj_on_of_nodup_map hnodup hr hq hid

theorem stream_rebase (s : Outbox) (base : Int) (sequences : List Int) :
    (s.rebase (replacements base sequences)).stream.entries = s.stream.entries.map
      (Entry.moveTo sequences.toFinset (rebased (replacements base sequences))) := by
  unfold Outbox.stream Outbox.rebase
  simp only [List.map_map]
  refine List.map_congr_left fun r _ => ?_
  by_cases hn : r.streamSequence ∈ sequences
  · simp [entryOf, Entry.moveTo, hn]
  · have hsame : rebased (replacements base sequences) r.streamSequence = r.streamSequence :=
      rebased_of_notMem (by rwa [replacements_fst])
    simp [entryOf, Entry.moveTo, hn, hsame]

theorem stream_raiseSqliteSequence (h : s.stream.mark ≤ n) :
    (raiseSqliteSequence n s).stream = ⟨s.stream.entries, max s.stream.mark n, s.stream.last⟩ := by
  have hmark : (raiseSqliteSequence n s).sqliteSequence.getD 0 = max (s.sqliteSequence.getD 0) n := by
    have h : s.sqliteSequence.getD 0 ≤ n := h
    unfold raiseSqliteSequence
    cases hq : s.sqliteSequence with
    | none =>
      rw [hq] at h
      exact (max_eq_right h).symm
    | some q => rfl
  have hrest : (raiseSqliteSequence n s).events = s.events ∧
      (raiseSqliteSequence n s).requestSequences = s.requestSequences := by
    unfold raiseSqliteSequence
    split <;> exact ⟨rfl, rfl⟩
  unfold Outbox.stream Outbox.lastSequence
  simp only [hmark, hrest.1, hrest.2]

/-- **A recovery's renumbering grows the stream.** -/
theorem rebase_grows (h : Sound s.stream)
    (hv : ∀ n ∈ collidedSequences i, ∃ r, r.streamSequence = n ∧ Validated i s r) :
    Growth s.stream (raiseSqliteSequence (recoveryBase i s + (collidedSequences i).length)
      (s.rebase (replacements (recoveryBase i s) (collidedSequences i)))).stream := by
  set moves := replacements (recoveryBase i s) (collidedSequences i) with hmoves
  have hbase := mark_le_recoveryBase i s
  have habove : ∀ n ∈ collidedSequences i, s.stream.mark < rebased moves n ∧
      rebased moves n ≤ recoveryBase i s + (collidedSequences i).length := by
    intro n hn
    obtain ⟨k, hk, rfl⟩ := List.getElem_of_mem hn
    rw [hmoves, rebased_replacements ((pairwise_collidedSequences i).imp fun hlt => hlt.ne) hk]
    omega
  have hmark : (s.rebase moves).stream.mark = s.stream.mark := rfl
  have hstream : (raiseSqliteSequence (recoveryBase i s + (collidedSequences i).length) (s.rebase moves)).stream =
      { s.stream with
        entries := s.stream.entries.map (Entry.moveTo (collidedSequences i).toFinset (rebased moves))
        mark := max s.stream.mark (recoveryBase i s + (collidedSequences i).length) } := by
    rw [stream_raiseSqliteSequence (by omega), stream_rebase]
    rfl
  rw [hstream]
  refine Growth.renumber _ _ _ _ (le_max_left _ _) (fun n hn m hm hlt => ?_) (fun n hn => ?_)
    (fun e he hme d hd hmd hopen hl ht => ?_)
  · exact rebased_replacements_lt (pairwise_collidedSequences i) (List.mem_toFinset.1 hn) (List.mem_toFinset.1 hm) hlt
  · have := habove n (List.mem_toFinset.1 hn)
    omega
  · obtain ⟨r, hr, rfl⟩ := List.mem_map.1 he
    obtain ⟨q, hq, rfl⟩ := List.mem_map.1 hd
    obtain ⟨r', hn, hval⟩ := hv _ (List.mem_toFinset.1 hme)
    obtain rfl := row_eq_of_sequence h hval.mem hr hn
    -- a later event of the request would be unnamed: its id names another row
    by_contra hlt
    have hid : q.event.eventId ∉ collidedIds i := by
      intro hmem
      obtain ⟨⟨n', id⟩, hpair, hid⟩ := List.mem_map.1 hmem
      have hget : i.collisions.get? n' = some id := KeyMap.get?_eq_some.2 hpair
      obtain ⟨c, hcn, hc⟩ := hv n' (mem_collidedSequences.2 ⟨id, hget⟩)
      have hsame : c.event.eventId = q.event.eventId := by
        have := hc.named
        rw [hcn, hget] at this
        exact (Option.some.inj this).symm.trans hid
      obtain rfl := eventId_unique h hc.mem hq hsame
      exact hmd (List.mem_toFinset.2 (mem_collidedSequences.2 ⟨_, hc.named⟩))
    have hlater : hasLaterEvent i s r' = true := by
      unfold hasLaterEvent
      refine List.any_eq_true.2 ⟨q, hq, ?_⟩
      have hsource := (boundTo_iff.1 hval.bound).1
      simp only [entryOf] at hl ht hopen hlt
      simp only [Bool.and_eq_true, beq_iff_eq, decide_eq_true_eq, Bool.not_eq_true']
      refine ⟨⟨⟨⟨hl, by omega⟩, by simpa using hopen⟩, by rw [ht, hsource]⟩, ?_⟩
      simpa using hid
    rw [hval.last] at hlater
    cases hlater

/-- What a recovery does: nothing, or the renumbering of rows it has validated. -/
theorem recover_cases (v : Services) (i : Recovery) (h : Sound s.stream) :
    recoverReviewSnapshotSequences v i s = .ok (s, []) ∨
      (∀ n ∈ collidedSequences i, ∃ r, r.streamSequence = n ∧ Validated i s r) ∧
        recoverReviewSnapshotSequences v i s =
          .ok (raiseSqliteSequence (recoveryBase i s + (collidedSequences i).length)
            (s.rebase (replacements (recoveryBase i s) (collidedSequences i))),
            replacements (recoveryBase i s) (collidedSequences i)) := by
  unfold recoverReviewSnapshotSequences
  split
  · exact .inl rfl
  · split
    · exact .inl rfl
    · rename_i _ hchecks
      simp only [Bool.not_eq_true', Bool.not_eq_false, recoveryChecksOk, Bool.and_eq_true, List.all_eq_true] at hchecks
      have hv : ∀ n ∈ collidedSequences i, ∃ r, r.streamSequence = n ∧ Validated i s r := fun n hn =>
        validated_of_isRebasable (hchecks.1.2 n hn)
      refine .inr ⟨hv, ?_⟩
      simp only
      rw [foldlM_renumberEvent (movable_replacements h hv)]
      rfl

/-! ## Transactions -/

abbrev Grows (s t : Outbox) : Prop := s.stream = t.stream ∨ Growth s.stream t.stream

/-- **What a transaction other than an acknowledgement does.** -/
inductive Performed (v : Services) (s : Outbox) : Outbox → Prop
  | idle : Performed v s s
  | append {t : Outbox} {updatedAt : String} {source : Option String} {identity : IdentityColumns} {e : ReviewEvent}
      (isOpen : e.acknowledgedAt = none)
      (next : e.requestSequence = (nextRequestSequence s e.localRequestId updatedAt source identity).lastSequence)
      (inserted : insertEvent (allocateRequestSequence s e.localRequestId updatedAt source identity) e = .ok t) :
      Performed v s t
  | bind (requestId source : String) (current : Option OAuthBinding) :
      Performed v s (bindReviewEventsForRequest v requestId source current s)
  | retry (i : Retry) : Performed v s (retryReviewEvents v i s).1
  | quarantine (i : Quarantine) : Performed v s (quarantineReviewEvent i s).1
  | recover (i : Recovery) {r : Outbox × List (Int × Int)} (recovered : recoverReviewSnapshotSequences v i s = .ok r) :
      Performed v s r.1

/-- **What a transaction does.**  An acknowledgement that takes effect does so under the normalised binding. -/
theorem perform_cases {op : Operation} {answer : Answer} (h : perform v s op = .ok (t, answer)) :
    Performed v s t ∨ ∃ a b, op = .acknowledge a ∧ normalizedDeliveryBinding a.binding = .ok b ∧
      t = (acknowledgeReviewEvents { a with binding := b } s).1 := by
  cases op with
  | approvalInserted w | approvalUpdated w | appendSnapshot a =>
    obtain ⟨u, hu, heq⟩ := map_eq_ok.1 h
    obtain ⟨rfl, -⟩ := Prod.mk.inj heq
    exact .inl (.append rfl rfl hu)
  | bind requestId source current =>
    obtain ⟨rfl, -⟩ := Prod.mk.inj (Except.ok.inj h)
    exact .inl (.bind requestId source current)
  | acknowledge a =>
    simp only [perform] at h
    split at h
    · obtain ⟨rfl, -⟩ := Prod.mk.inj (Except.ok.inj h)
      exact .inl .idle
    · obtain ⟨b, hb, heq⟩ := map_eq_ok.1 h
      obtain ⟨rfl, -⟩ := Prod.mk.inj heq
      exact .inr ⟨a, b, rfl, hb, rfl⟩
  | retry i =>
    simp only [perform] at h
    split at h
    · obtain ⟨rfl, -⟩ := Prod.mk.inj (Except.ok.inj h)
      exact .inl .idle
    · obtain ⟨b, -, heq⟩ := map_eq_ok.1 h
      obtain ⟨rfl, -⟩ := Prod.mk.inj heq
      exact .inl (.retry _)
  | quarantine i =>
    obtain ⟨b, -, heq⟩ := map_eq_ok.1 h
    obtain ⟨rfl, -⟩ := Prod.mk.inj heq
    exact .inl (.quarantine _)
  | recover i =>
    simp only [perform] at h
    split at h
    · obtain ⟨rfl, -⟩ := Prod.mk.inj (Except.ok.inj h)
      exact .inl .idle
    · obtain ⟨u, hu, heq⟩ := map_eq_ok.1 h
      obtain ⟨rfl, -⟩ := Prod.mk.inj heq
      exact .inl (.recover _ hu)

theorem transact_cases (v : Services) (s : Outbox) (op : Operation) : (transact v s op).1 = s ∨
    ∃ t, (transact v s op).1 = finalizeReviewEventPayloadHashes v t ∧
      (Performed v s t ∨ ∃ a b, op = .acknowledge a ∧ normalizedDeliveryBinding a.binding = .ok b ∧
        t = (acknowledgeReviewEvents { a with binding := b } s).1) := by
  unfold transact
  cases h : perform v s op with
  | error e => exact .inl rfl
  | ok r => exact .inr ⟨r.1, rfl, perform_cases h⟩

theorem Performed.grows (hs : Sound s.stream) (h : Performed v s t) : Grows s t := by
  cases h with
  | idle => exact .inl rfl
  | append isOpen next inserted => exact .inr (append_grows rfl isOpen next inserted)
  | bind requestId source current => exact .inl (stream_bind v requestId source current s).symm
  | retry i => exact .inl (stream_retryReviewEvents v i s).symm
  | quarantine i => exact .inl (stream_quarantineReviewEvent i s).symm
  | recover i recovered =>
    obtain heq | ⟨hv, heq⟩ := recover_cases v i hs <;> rw [heq] at recovered <;> obtain rfl := Except.ok.inj recovered
    · exact .inl rfl
    · exact .inr (rebase_grows hs hv)

/-- **Every transaction is a run of the stream.** -/
theorem transact_runs (v : Services) (hs : Sound s.stream) (op : Operation) :
    Runs s.stream (transact v s op).1.stream := by
  obtain heq | ⟨t, heq, hperformed | ⟨a, b, rfl, -, rfl⟩⟩ := transact_cases v s op <;> rw [heq]
  · rw [stream_finalize]
    obtain hsame | hg := hperformed.grows hs
    · rw [hsame]
    · exact .single (.grow hg)
  · rw [stream_finalize]
    exact acknowledge_runs hs _

/-- **The outbox is a sound stream after every history, and its stream only runs on.** -/
theorem sound_after (v : Services) (ops : List Operation) : Sound (after v ops).stream :=
  (store v).final_invariant (fun s => Sound s.stream) (fun _ op hs => (transact_runs v hs op).sound hs) ops _
    sound_empty

theorem runs_after (v : Services) (ops more : List Operation) :
    Runs (after v ops).stream (after v (ops ++ more)).stream := by
  induction more using List.reverseRecOn with
  | nil => rw [List.append_nil]
  | append_singleton more op ih =>
    rw [← List.append_assoc, after_concat]
    exact ih.trans (transact_runs v (sound_after v _) op)

/-! ## Deletions -/

def EventRow.SameEvent (r q : EventRow) : Prop :=
  r.event.eventId = q.event.eventId ∧ r.event.localRequestId = q.event.localRequestId ∧
    r.event.requestSequence = q.event.requestSequence

/-- The acknowledgement names the row by its number, under the full OAuth binding the row carries. -/
def Acknowledgement.Names (a : Acknowledgement) (r : EventRow) : Prop :=
  r.streamSequence ∈ a.sequences ∧ r.event.oauthSource = some a.source ∧
    ∃ b, normalizedDeliveryBinding a.binding = .ok b ∧ r.event.identity = b.columns

theorem EventRow.SameEvent.trans {q c : EventRow} (h : r.SameEvent q) (h' : q.SameEvent c) : r.SameEvent c :=
  ⟨h.1.trans h'.1, h.2.1.trans h'.2.1, h.2.2.trans h'.2.2⟩

theorem sameEvent_of_entry {q : EventRow} (h : (entryOf r).SameEvent (entryOf q)) : r.SameEvent q :=
  ⟨h.1, h.2.1, h.2.2.1⟩

theorem names_of_isAcknowledged {b : OAuthBinding} (hb : normalizedDeliveryBinding a.binding = .ok b)
    (h : isAcknowledged { a with binding := b } r = true) : a.Names r := by
  simp only [isAcknowledged, Bool.and_eq_true, List.contains_iff_mem, boundTo_iff] at h
  exact ⟨(mem_positiveSequences.1 h.1.1.1).1, h.1.1.2.1, b, hb, h.1.1.2.2⟩

/-- Every row of the state before a commit is in the committed state up to its hash, and the other way round. -/
theorem exists_entry_of_stream_eq (h : s.stream = t.stream) (hr : r ∈ s.events) :
    ∃ q ∈ t.events, entryOf q = entryOf r := by
  have hmem : entryOf r ∈ t.stream.entries := by
    rw [← h]
    exact List.mem_map_of_mem hr
  exact List.mem_map.1 hmem

/-- Where the acknowledged rows of an acknowledgement come from: marked before, or named now. -/
theorem acknowledge_origin (hr : r ∈ (acknowledgeReviewEvents a s).1.events) (hack : r.event.unacknowledged = false) :
    r ∈ s.events ∨ ∃ q ∈ s.events, q.SameEvent r ∧ isAcknowledged a q = true := by
  have hmarked : r ∈ s.events ∨ r ∈ (markAcknowledged a s).events := by
    obtain heq | heq | ⟨n, heq⟩ := acknowledge_cases a s <;> rw [heq] at hr
    · exact .inl hr
    · exact .inr hr
    · exact .inr (List.mem_filter.1 hr).1
  rcases hmarked with hr | hr
  · exact .inl hr
  · obtain hr | ⟨q, hq, hm, rfl⟩ := mem_markAcknowledged hr
    · exact .inl hr
    · exact .inr ⟨q, hq, ⟨rfl, rfl, rfl⟩, hm⟩

/-- **What an acknowledgement deletes** was acknowledged before, or is named by it. -/
theorem acknowledge_deletes (hs : Sound s.stream) (hr : r ∈ s.events)
    (hgone : ∀ q ∈ (acknowledgeReviewEvents a s).1.events, ¬ q.SameEvent r) :
    r.event.unacknowledged = false ∨ isAcknowledged a r = true := by
  obtain heq | heq | ⟨n, heq⟩ := acknowledge_cases a s <;> rw [heq] at hgone
  · exact absurd ⟨rfl, rfl, rfl⟩ (hgone r hr)
  all_goals
    by_cases hm : isAcknowledged a r = true
    · exact .inr hm
    have hr' : r ∈ (markAcknowledged a s).events := List.mem_map.2 ⟨r, hr, by simp [hm]⟩
  · exact absurd ⟨rfl, rfl, rfl⟩ (hgone r hr')
  · refine .inl ?_
    by_cases hkept : isKept ((acknowledgedRun a (markAcknowledged a s)).map EventRow.streamSequence) r = true
    · exact absurd ⟨rfl, rfl, rfl⟩ (hgone r (List.mem_filter.2 ⟨hr', hkept⟩))
    · have hsound := (markAcknowledged_step hs a).sound hs
      simp only [isKept, Bool.not_eq_true', Bool.not_eq_false, Bool.and_eq_true, List.contains_iff_mem] at hkept
      obtain ⟨q, hq, hn⟩ := List.mem_map.1 hkept.1
      have hrun := mem_acknowledgedRun hq
      rw [← row_eq_of_sequence hsound hrun.1 hr' hn]
      exact hrun.2.2.2

/-- **The acknowledged rows of a state** come from acknowledged rows, or were named by the transaction. -/
theorem transact_origin (hs : Sound s.stream) {op : Operation} (hr : r ∈ (transact v s op).1.events)
    (hack : r.event.unacknowledged = false) :
    (∃ q ∈ s.events, q.event.unacknowledged = false ∧ q.SameEvent r) ∨
      ∃ a, op = .acknowledge a ∧ ∃ q ∈ s.events, q.SameEvent r ∧ a.Names q := by
  obtain heq | ⟨t, heq, hcase⟩ := transact_cases v s op <;> rw [heq] at hr
  · exact .inl ⟨r, hr, hack, rfl, rfl, rfl⟩
  obtain ⟨r', hr', hentry⟩ := exists_entry_of_stream_eq (stream_finalize v t) hr
  have hsame : r'.SameEvent r := sameEvent_of_entry (hentry ▸ .refl _)
  have hack' : r'.event.unacknowledged = false := by
    have := congrArg Entry.done hentry
    simp only [entryOf, hack, Bool.not_false, Bool.not_eq_true'] at this
    exact this
  obtain hperformed | ⟨a, b, rfl, hb, rfl⟩ := hcase
  · have hdone : (entryOf r').done = true := by simp [entryOf, hack']
    obtain ⟨e, he, hedone, hesame⟩ : ∃ e ∈ s.stream.entries, e.done = true ∧ e.SameEvent (entryOf r') := by
      obtain heq | hg := hperformed.grows hs
      · exact ⟨entryOf r', heq ▸ List.mem_map_of_mem hr', hdone, .refl _⟩
      · exact hg.done_of_done (List.mem_map_of_mem hr') hdone
    obtain ⟨q, hq, rfl⟩ := List.mem_map.1 he
    exact .inl ⟨q, hq, by simpa [entryOf] using hedone, (sameEvent_of_entry hesame).trans hsame⟩
  · obtain hold | ⟨q, hq, hqr, hm⟩ := acknowledge_origin hr' hack'
    · exact .inl ⟨r', hold, hack', hsame⟩
    · exact .inr ⟨a, rfl, q, hq, hqr.trans hsame, names_of_isAcknowledged hb hm⟩

/-- **What a transaction deletes** was acknowledged before, or is named by it. -/
theorem transact_deletes (hs : Sound s.stream) {op : Operation} (hr : r ∈ s.events)
    (hgone : ∀ q ∈ (transact v s op).1.events, ¬ q.SameEvent r) :
    r.event.unacknowledged = false ∨ ∃ a, op = .acknowledge a ∧ a.Names r := by
  obtain heq | ⟨t, heq, hcase⟩ := transact_cases v s op <;> rw [heq] at hgone
  · exact absurd ⟨rfl, rfl, rfl⟩ (hgone r hr)
  have hgone' : ∀ q ∈ t.events, ¬ q.SameEvent r := by
    intro q hq hsame
    obtain ⟨q', hq', hentry⟩ := exists_entry_of_stream_eq (stream_finalize v t).symm hq
    exact hgone q' hq' ((sameEvent_of_entry (hentry ▸ .refl _)).trans hsame)
  obtain hperformed | ⟨a, b, rfl, hb, rfl⟩ := hcase
  · obtain ⟨d, hd, hsame⟩ : ∃ d ∈ t.stream.entries, (entryOf r).SameEvent d := by
      obtain heq | hg := hperformed.grows hs
      · exact ⟨entryOf r, heq ▸ List.mem_map_of_mem hr, .refl _⟩
      · exact hg.retains (List.mem_map_of_mem hr)
    obtain ⟨q, hq, rfl⟩ := List.mem_map.1 hd
    exact absurd ⟨hsame.1.symm, hsame.2.1.symm, hsame.2.2.1.symm⟩ (hgone' q hq)
  · exact (acknowledge_deletes hs hr hgone').imp_right fun hm => ⟨a, rfl, names_of_isAcknowledged hb hm⟩

/-- An acknowledgement of the history named the row, under the number the event then had. -/
def NamedIn (v : Services) (ops : List Operation) (r : EventRow) : Prop :=
  ∃ pre a post, ops = pre ++ .acknowledge a :: post ∧ ∃ q ∈ (after v pre).events, q.SameEvent r ∧ a.Names q

theorem NamedIn.concat {ops : List Operation} {q : EventRow} (h : NamedIn v ops r)
    (hsame : r.SameEvent q) (op : Operation) : NamedIn v (ops ++ [op]) q := by
  obtain ⟨pre, a, post, rfl, c, hc, hcr, hnames⟩ := h
  exact ⟨pre, a, post ++ [op], by simp, c, hc, hcr.trans hsame, hnames⟩

/-- **Every acknowledged row was named by an acknowledgement of the history.** -/
theorem namedIn_of_acknowledged (v : Services) (ops : List Operation) :
    ∀ r ∈ (after v ops).events, r.event.unacknowledged = false → NamedIn v ops r := by
  induction ops using List.reverseRecOn with
  | nil => exact fun r hr => absurd hr List.not_mem_nil
  | append_singleton ops op ih =>
    intro r hr hack
    rw [after_concat] at hr
    obtain ⟨q, hq, hqack, hsame⟩ | ⟨a, rfl, q, hq, hsame, hnames⟩ := transact_origin (sound_after v ops) hr hack
    · exact (ih q hq hqack).concat hsame op
    · exact ⟨ops, a, [], rfl, q, hq, hsame, hnames⟩

/-! ## Cursors -/

/-- The number a binding's cursor stands at. -/
def cursorAt (s : Outbox) (key : String × OAuthBinding) : Option Int :=
  (s.cursors.get? key).map Cursor.acknowledgedStreamSequence

theorem cursors_retryReviewEvents (v : Services) (i : Retry) (s : Outbox) :
    (retryReviewEvents v i s).1.cursors = s.cursors := by
  refine List.foldlRecOn (motive := fun acc : Outbox × Nat => acc.1.cursors = s.cursors) _ _ rfl fun acc hacc n _ => ?_
  rw [← hacc]
  unfold retryReviewEvent
  split <;> rfl

theorem Performed.cursors (hs : Sound s.stream) (h : Performed v s t) : t.cursors = s.cursors := by
  cases h with
  | idle => rfl
  | append isOpen next inserted =>
    rw [(insertEvent_eq_ok inserted).2]
    rfl
  | bind requestId source current =>
    unfold bindReviewEventsForRequest
    split <;> rfl
  | retry i => exact cursors_retryReviewEvents v i s
  | quarantine i => rfl
  | recover i recovered =>
    obtain heq | ⟨-, heq⟩ := recover_cases v i hs <;> rw [heq] at recovered <;> obtain rfl := Except.ok.inj recovered
    · rfl
    · unfold raiseSqliteSequence
      split <;> rfl

theorem cursorAt_raiseCursor (a : Acknowledgement) (n : Int) (s : Outbox) {key : String × OAuthBinding} {c : Int}
    (h : cursorAt s key = some c) : ∃ d, cursorAt (raiseCursor a n s) key = some d ∧ c ≤ d := by
  unfold cursorAt raiseCursor at *
  simp only [KeyMap.get?_insert]
  by_cases hk : key = (a.source, a.binding)
  · rw [if_pos hk]
    rw [hk] at h
    obtain ⟨cursor, hcursor, rfl⟩ := Option.map_eq_some_iff.1 h
    rw [hcursor]
    exact ⟨_, rfl, le_max_left _ _⟩
  · rw [if_neg hk]
    exact ⟨c, h, le_refl c⟩

/-- **No transaction lowers a cursor.** -/
theorem cursorAt_transact (hs : Sound s.stream) (op : Operation) {key : String × OAuthBinding}
    {c : Int} (h : cursorAt s key = some c) :
    ∃ d, cursorAt (transact v s op).1 key = some d ∧ c ≤ d := by
  have hsame : ∃ d, cursorAt s key = some d ∧ c ≤ d := ⟨c, h, le_refl c⟩
  obtain heq | ⟨t, heq, hcase⟩ := transact_cases v s op <;> rw [heq]
  · exact hsame
  show ∃ d, cursorAt t key = some d ∧ c ≤ d
  obtain hperformed | ⟨a, b, rfl, -, rfl⟩ := hcase
  · rwa [cursorAt, hperformed.cursors hs]
  · obtain heq | heq | ⟨n, heq⟩ := acknowledge_cases { a with binding := b } s <;> rw [heq]
    · exact hsame
    · exact hsame
    · exact cursorAt_raiseCursor _ n _ h

/-! ## Recovery in a history -/

/-- No committed row waits for its hash. -/
def Outbox.Hashed (s : Outbox) : Prop := ∀ r ∈ s.events, r.event.payloadHash ≠ ""

theorem hashed_finalize (v : Services) (s : Outbox) : (finalizeReviewEventPayloadHashes v s).Hashed := by
  intro r hr
  obtain ⟨q, hq, rfl⟩ := List.mem_map.1 hr
  by_cases hempty : q.event.payloadHash = ""
  · simpa [hempty] using v.payloadDigest_ne _ _ _
  · simp [hempty]

theorem update_of_unmatched {matching : EventRow → Bool} (set : ReviewEvent → ReviewEvent)
    (h : ∀ r ∈ s.events, matching r = false) : s.update matching set = s := by
  have hrow : s.events.map (fun r => if matching r then { r with event := set r.event } else r) = s.events := by
    refine (List.map_congr_left fun r hr => ?_).trans (List.map_id' s.events)
    simp [h r hr]
  unfold Outbox.update
  rw [hrow]

theorem finalize_of_hashed (v : Services) (h : s.Hashed) :
    finalizeReviewEventPayloadHashes v s = s :=
  update_of_unmatched _ fun r hr => beq_false_of_ne (h r hr)

theorem hashed_after (v : Services) (ops : List Operation) : (after v ops).Hashed := by
  refine (store v).final_invariant Outbox.Hashed (fun s op hs => ?_) ops _ (fun r hr => absurd hr List.not_mem_nil)
  show (transact v s op).1.Hashed
  unfold transact
  split
  · exact hs
  · exact hashed_finalize v _

/-- **A recovery in a history** leaves everything as it was, or gives the validated rows the next numbers. -/
theorem transact_recover (hs : Sound s.stream) (hh : s.Hashed) (i : Recovery) :
    (transact v s (.recover i)).1 = s ∨ ∃ b,
      (∀ n ∈ collidedSequences i, ∃ r, r.streamSequence = n ∧ Validated { i with binding := b } s r) ∧
      (transact v s (.recover i)).1 =
        raiseSqliteSequence (recoveryBase { i with binding := b } s + (collidedSequences i).length)
          (s.rebase (replacements (recoveryBase { i with binding := b } s) (collidedSequences i))) := by
  have hcommit : ∀ t : Outbox, t.Hashed → finalizeReviewEventPayloadHashes v t = t := fun t => finalize_of_hashed v
  unfold transact
  simp only [perform]
  cases hb : normalizedDeliveryBinding i.binding with
  | error e => exact .inl (hcommit s hh)
  | ok b =>
    obtain heq | ⟨hv, heq⟩ := recover_cases v { i with binding := b } hs
    · simp only [heq]
      exact .inl (hcommit s hh)
    · simp only [heq]
      refine .inr ⟨b, hv, hcommit _ ?_⟩
      intro r hr
      have hr : r ∈
          (s.rebase (replacements (recoveryBase { i with binding := b } s) (collidedSequences i))).events := by
        unfold raiseSqliteSequence at hr
        split at hr <;> exact hr
      obtain ⟨q, hq, rfl⟩ := List.mem_map.1 hr
      exact hh q hq

/-- The events an operation names by their numbers are moved, in their old order, above every number of the history;
everything else stays. -/
def Rebased (v : Services) (ops : List Operation) (i : Recovery) (s : Outbox) : Prop :=
  ∃ f : Int → Int,
    s.events = (after v ops).events.map (fun r => { r with streamSequence := f r.streamSequence }) ∧
    s.requestSequences = (after v ops).requestSequences ∧ s.cursors = (after v ops).cursors ∧
    (∀ n, i.collisions.get? n = none → f n = n) ∧
    (∀ n id, i.collisions.get? n = some id →
      ∃ r ∈ (after v ops).events, r.streamSequence = n ∧ r.event.eventId = id) ∧
    (∀ n m, (i.collisions.get? n).isSome → (i.collisions.get? m).isSome → n < m → f n < f m) ∧
    (∀ n, (i.collisions.get? n).isSome → ∀ pre, pre <+: ops → ∀ r ∈ (after v pre).events, r.streamSequence < f n)

theorem rebased_after (v : Services) (ops : List Operation) (i : Recovery) :
    after v (ops ++ [.recover i]) = after v ops ∨ Rebased v ops i (after v (ops ++ [.recover i])) := by
  have hs := sound_after v ops
  rw [after_concat]
  refine (transact_recover hs (hashed_after v ops) i).imp_right ?_
  rintro ⟨b, hv, heq⟩
  set base := recoveryBase { i with binding := b } (after v ops) with hbase
  have hmark : (after v ops).stream.mark ≤ base := mark_le_recoveryBase _ _
  have hsorted := pairwise_collidedSequences i
  have hnamed : ∀ n, (i.collisions.get? n).isSome = true → n ∈ collidedSequences i := fun n hn =>
    mem_collidedSequences.2 (Option.isSome_iff_exists.1 hn)
  have htables : (transact v (after v ops) (.recover i)).1.events =
        ((after v ops).rebase (replacements base (collidedSequences i))).events ∧
      (transact v (after v ops) (.recover i)).1.requestSequences = (after v ops).requestSequences ∧
      (transact v (after v ops) (.recover i)).1.cursors = (after v ops).cursors := by
    rw [heq]
    unfold raiseSqliteSequence
    split <;> exact ⟨rfl, rfl, rfl⟩
  refine ⟨rebased (replacements base (collidedSequences i)), htables.1, htables.2.1, htables.2.2, fun n hn => ?_,
    fun n id hid => ?_, fun n m hn hm => ?_, fun n hn pre hpre r hr => ?_⟩
  · refine rebased_of_notMem ?_
    rw [replacements_fst, mem_collidedSequences, hn]
    simp
  · obtain ⟨r, hn, hval⟩ := hv n (mem_collidedSequences.2 ⟨id, hid⟩)
    have hnamed : i.collisions.get? n = some r.event.eventId := hn ▸ hval.named
    exact ⟨r, hval.mem, hn, (Option.some.inj (hid.symm.trans hnamed)).symm⟩
  · exact rebased_replacements_lt hsorted (hnamed n hn) (hnamed m hm)
  · obtain ⟨post, rfl⟩ := hpre
    have hle := sequence_le_mark (sound_after v pre) hr
    have hrise := (runs_after v pre post).advances.mark
    obtain ⟨k, hk, rfl⟩ := List.getElem_of_mem (hnamed n hn)
    rw [rebased_replacements (hsorted.imp fun hlt => hlt.ne) hk]
    omega

def plainServices : Services where
  payloadDigest _ _ _ := "sum"
  payloadDigest_ne _ _ _ := by decide
  decodeStoredReviewEvent r := some ⟨r.streamSequence, r.event.eventId, r.event.eventType⟩
  retryAt now _ := now

def plainBinding : OAuthBinding := ⟨"subject", "workspace", "machine", "installation"⟩

/-- A request is written and bound, its snapshot requeued, and the snapshot's sequence recovered above what the cloud
has acknowledged. -/
def recoveredHistory : List Operation :=
  [.approvalInserted ⟨"request", some "default", false, "payload", "now", "first"⟩,
   .bind "request" "default" (some plainBinding),
   .appendSnapshot ⟨"request", "default", .snapshotRequeued, "now", "payload", "second", some plainBinding⟩,
   .recover ⟨"default", KeyMap.empty.insert 2 "second", 7, plainBinding, some plainBinding⟩]

example : (after plainServices recoveredHistory).events.map EventRow.streamSequence = [1, 8] := by
  decide +kernel

/-- **Delivery order of the review outbox**, over every history of transactions from the empty tables.  A stream
sequence is never given to two events.  An event disappears only once an acknowledgement of the history has named it
under its number at that time and its full OAuth binding.  No cursor falls.  The unacknowledged events of one request
and source lie alike by stream sequence and by request sequence.  A recovery changes nothing, or moves exactly the
events it names, in their old order, above every sequence of the history. -/
theorem review_outbox_delivery_order (v : Services) (ops : List Operation) :
    (∀ pre, pre <+: ops → ∀ r ∈ (after v pre).events, ∀ q ∈ (after v ops).events,
      r.streamSequence = q.streamSequence → r.SameEvent q) ∧
    (∀ op, ∀ r ∈ (after v ops).events, (∀ q ∈ (after v (ops ++ [op])).events, ¬ q.SameEvent r) →
      NamedIn v (ops ++ [op]) r) ∧
    (∀ op key c, cursorAt (after v ops) key = some c → ∃ d, cursorAt (after v (ops ++ [op])) key = some d ∧ c ≤ d) ∧
    (∀ r ∈ (after v ops).events, ∀ q ∈ (after v ops).events, r.event.acknowledgedAt = none →
      q.event.acknowledgedAt = none → r.event.localRequestId = q.event.localRequestId →
      r.event.oauthSource = q.event.oauthSource →
      (r.streamSequence < q.streamSequence ↔ r.event.requestSequence < q.event.requestSequence)) ∧
    (∀ i, after v (ops ++ [.recover i]) = after v ops ∨ Rebased v ops i (after v (ops ++ [.recover i]))) := by
  have hs := sound_after v ops
  refine ⟨fun pre hpre r hr q hq hn => ?_, fun op r hr hgone => ?_, fun op key c hc => ?_,
    fun r hr q hq hro hqo hl ht => ?_, rebased_after v ops⟩
  · obtain ⟨post, rfl⟩ := hpre
    exact sameEvent_of_entry ((runs_after v pre post).sameEvent (sound_after v pre) (List.mem_map_of_mem hr)
      (List.mem_map_of_mem hq) hn)
  · rw [after_concat] at hgone
    obtain hack | ⟨a, rfl, hnames⟩ := transact_deletes hs hr hgone
    · exact (namedIn_of_acknowledged v ops r hr hack).concat ⟨rfl, rfl, rfl⟩ op
    · exact ⟨ops, a, [], rfl, r, hr, ⟨rfl, rfl, rfl⟩, hnames⟩
  · rw [after_concat]
    exact cursorAt_transact hs op hc
  · exact hs.alike _ (List.mem_map_of_mem hr) _ (List.mem_map_of_mem hq)
      (by simp [entryOf, ReviewEvent.unacknowledged, hro]) (by simp [entryOf, ReviewEvent.unacknowledged, hqo]) hl ht

end Guard.Review
