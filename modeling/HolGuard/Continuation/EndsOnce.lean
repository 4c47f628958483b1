import HolGuard.Continuation.Claims
import HolGuard.Review.DeliveryOrder
/-!
# Each continuation offer ends at most once

`perform_cases` says everything a serialised call can do: nothing, grant a lease, or finalise.  `Finalized` collects
what a successful finalisation changed; from it a completed row is frozen, its terminal effect is on record, and no
later finalisation of the offer appends a second terminal review event.
-/
namespace Guard.Continuation

open Lib Guard.Review

variable {ρ : Type}

/-! ## What a finalisation writes -/

def Recorded (e : Env ρ) (w : World ρ) (evidenceId eventName : String) : Prop :=
  w.effects.contains (e.effectKey evidenceId eventName) = true

/-- `after` is `before` with more effects and guard events on record. -/
structure Records (before after : World ρ) : Prop where
  effects : ∀ key, before.effects.contains key = true → after.effects.contains key = true
  rest : after = { before with effects := after.effects, guardEvents := after.guardEvents }

theorem Records.refl (w : World ρ) : Records w w := ⟨fun _ h => h, rfl⟩

variable {w : World ρ}

theorem Records.trans {u v : World ρ} (huv : Records u v) (hvw : Records v w) : Records u w := by
  refine ⟨fun key h => hvw.effects key (huv.effects key h), ?_⟩
  rw [hvw.rest, huv.rest]

theorem contains_insert (m : KeyMap String Effect) (key other : String) (effect : Effect)
    (h : m.contains other = true) : (m.insert key effect).contains other = true := by
  unfold KeyMap.contains at h ⊢
  rw [KeyMap.get?_insert]
  split
  · rfl
  · exact h

theorem contains_insert_self (m : KeyMap String Effect) (key : String) (effect : Effect) :
    (m.insert key effect).contains key = true := by
  unfold KeyMap.contains
  rw [KeyMap.get?_insert, if_pos rfl]
  rfl

theorem records_insertEffect (e : Env ρ) (w : World ρ) (requestId evidenceId eventName now : String) :
    Records w (insertEffect e w requestId evidenceId eventName now).1 ∧
      Recorded e (insertEffect e w requestId evidenceId eventName now).1 evidenceId eventName := by
  unfold insertEffect Recorded
  by_cases h : w.effects.contains (e.effectKey evidenceId eventName) = true
  · rw [if_pos h]
    exact ⟨Records.refl w, h⟩
  · rw [if_neg h]
    exact ⟨⟨fun key hk => contains_insert _ _ key _ hk, rfl⟩, contains_insert_self _ _ _⟩

theorem insertEffect_rest (e : Env ρ) (w : World ρ) (requestId evidenceId eventName now : String) :
    ∃ effects, (insertEffect e w requestId evidenceId eventName now).1 = { w with effects } := by
  unfold insertEffect
  by_cases h : w.effects.contains (e.effectKey evidenceId eventName) = true
  · exact ⟨w.effects, by rw [if_pos h]⟩
  · exact ⟨_, by rw [if_neg h]⟩

variable {e : Env ρ}

theorem insertEffect_inserted {requestId evidenceId eventName now : String}
    (h : (insertEffect e w requestId evidenceId eventName now).2 = true) :
    ¬ Recorded e w evidenceId eventName := by
  intro hr
  unfold Recorded at hr
  simp [insertEffect, hr] at h

theorem records_persistContinuationEvent (e : Env ρ) (f : Finalize) (w : World ρ) (event : String × PyDict) :
    Records w (persistContinuationEvent e f w event) := by
  have h := (records_insertEffect e w f.key.requestId f.evidenceId event.1 f.now).1
  unfold persistContinuationEvent
  simp only
  split
  · refine ⟨h.effects, ?_⟩
    rw [h.rest]
  · exact h

theorem records_persistContinuationEvents (e : Env ρ) (f : Finalize) (w : World ρ) :
    Records w (persistContinuationEvents e f w) := by
  unfold persistContinuationEvents
  induction f.events generalizing w with
  | nil => exact Records.refl w
  | cons event events ih =>
    exact (records_persistContinuationEvent e f w event).trans (ih _)

theorem insertEvent_events {s t : Outbox} {event : ReviewEvent} (h : insertEvent s event = .ok t) :
    t.events = s.events ++ [⟨nextSequence s, event⟩] := by
  unfold insertEvent at h
  rw [Lib.ite_error_eq_ok, Lib.ite_error_eq_ok, Lib.ite_error_eq_ok, Except.ok.injEq] at h
  obtain ⟨-, -, -, rfl⟩ := h
  rfl

theorem appendRequestSnapshotEvent_events {v : Services} {a : SnapshotAppend} {s t : Outbox}
    (h : appendRequestSnapshotEvent v a s = .ok t) :
    ∃ r, t.events = s.events ++ [r] ∧ r.event.eventType = a.eventType ∧ r.event.localRequestId = a.requestId ∧
      r.event.payloadHash ≠ "" := by
  unfold appendRequestSnapshotEvent at h
  generalize bindingForAppend a.current (s.requestSequences.get? a.requestId) = binding at h
  obtain ⟨columns, status, reason⟩ := binding
  have happended := insertEvent_events h
  exact ⟨_, happended, rfl, rfl, v.payloadDigest_ne _ _ _⟩

/-- What a terminal finalisation adds to the outbox: nothing, or one continuation event of its request. -/
def AppendsTerminal (f : Finalize) (before after : Outbox) : Prop :=
  ∃ r status, after.events = before.events ++ [r] ∧ r.event.eventType = .continuation status ∧
    r.event.localRequestId = f.key.requestId ∧ r.event.payloadHash ≠ ""

variable {f : Finalize} {w' : World ρ}

theorem appendTerminalReviewEvent_spec (h : appendTerminalReviewEvent e f w = .ok w') :
    (∀ key, w.effects.contains key = true → w'.effects.contains key = true) ∧
      Recorded e w' f.evidenceId terminalEffect ∧
      w' = { w with effects := w'.effects, outbox := w'.outbox } ∧
      (w'.outbox = w.outbox ∨ ¬ Recorded e w f.evidenceId terminalEffect ∧ AppendsTerminal f w.outbox w'.outbox) := by
  obtain ⟨hrec, hdone⟩ := records_insertEffect e w f.key.requestId f.evidenceId terminalEffect f.now
  obtain ⟨effects, hrest⟩ := insertEffect_rest e w f.key.requestId f.evidenceId terminalEffect f.now
  have hfresh := @insertEffect_inserted _ w e f.key.requestId f.evidenceId terminalEffect f.now
  unfold appendTerminalReviewEvent at h
  generalize insertEffect e w f.key.requestId f.evidenceId terminalEffect f.now = inserted at h hrec hdone hrest hfresh
  obtain ⟨w1, inserted⟩ := inserted
  simp only at h hrest hfresh
  subst hrest
  cases inserted with
  | false =>
    simp only [if_true, Except.ok.injEq] at h
    subst h
    exact ⟨hrec.effects, hdone, rfl, Or.inl rfl⟩
  | true =>
    simp only [Bool.true_eq_false, if_false] at h
    split at h
    · rw [Lib.ite_error_eq_ok] at h
      obtain ⟨-, h⟩ := h
      split at h
      · cases h
      · obtain ⟨outbox, ho, rfl⟩ := Lib.map_eq_ok.1 h
        obtain ⟨r, hr, htype, hreq, hhash⟩ := appendRequestSnapshotEvent_events ho
        exact ⟨hrec.effects, hdone, rfl, Or.inr ⟨hfresh rfl, r, _, hr, htype, hreq, hhash⟩⟩
    · cases h

/-! ## What a supplied approval loses -/

/-- One approval of the table, and no other, went from unclaimed to claimed. -/
structure Consumes (decision : PyDict) (before after : KeyMap String LocalOnceApproval) : Prop where
  claims : ∃ approvalId row row', PyDict.get decision "approval_id" = .str approvalId ∧
    before.get? approvalId = some row ∧ row.claimedAt = none ∧ row'.claimedAt.isSome = true ∧
    after = before.insert approvalId row'

/-- `after` is `before` with `decision`'s approval consumed and the authority revision raised. -/
structure ClaimsApproval (decision : PyDict) (before after : World ρ) : Prop where
  consumes : Consumes decision before.approvals after.approvals
  rest : after = { before with approvals := after.approvals, authorityRevision := after.authorityRevision }

variable {decision : PyDict}

theorem claimsApproval_byId {approvalId now key keyId kind : String}
    (h : claimLocalOnceApprovalByIdLocked e w approvalId now decision key keyId kind = .ok (some w')) :
    ClaimsApproval decision w w' := by
  unfold claimLocalOnceApprovalByIdLocked at h
  repeat' split at h
  any_goals cases h
  rename_i row hrow hclaimed _ _ hidentity
  have hid := hidentity ∘ List.any_eq_true.2
  have happroval : PyObject.scalarEq (.str approvalId) (PyDict.get decision "approval_id") = true := by
    by_contra hne
    exact hid ⟨"approval_id", by decide, by simpa [localOnceApprovalPayload, PyDict.get, List.lookup] using hne⟩
  refine ⟨⟨approvalId, row, _, PyObject.scalarEq_str.1 happroval, hrow, ?_, rfl, rfl⟩, rfl⟩
  push Not at hclaimed
  simpa using hclaimed.1

theorem claimsApproval_authority {requestId now : String} {secret : Option String × Option String}
    (h : claimContinuationApprovalAuthority e w requestId decision now secret = .ok (some w')) :
    ClaimsApproval decision w w' := by
  unfold claimContinuationApprovalAuthority at h
  repeat' split at h
  any_goals cases h
  · unfold claimExactCloudLocalOnceApprovalLocked at h
    repeat' split at h
    any_goals cases h
    exact claimsApproval_byId h
  · exact claimsApproval_byId h

/-! ## One call -/

/-- The claim row lets a finalisation pass. -/
structure Allowed (w : World ρ) (f : Finalize) : Prop where
  owner : ∀ claimId, f.claimId = some claimId →
    ∃ row, w.claims.get? f.key = some row ∧ row.state = .claimed ∧ columnText row.claimId = claimId
  evidence : ∀ row, w.claims.get? f.key = some row → row.state = .completed →
    row.evidenceId = none ∨ row.evidenceId = some f.evidenceId

theorem allowed_of_ok (h : continuationClaimAllowsFinalization w f = .ok true) : Allowed w f := by
  unfold continuationClaimAllowsFinalization at h
  obtain ⟨owned, howned, hevidence⟩ := Lib.map_eq_ok.1 h
  rw [Bool.and_eq_true] at hevidence
  obtain ⟨rfl, hevidence⟩ := hevidence
  refine ⟨fun claimId hid => ?_, fun row hrow hstate => ?_⟩
  · simp only [hid] at howned
    split at howned
    · cases howned
    · rename_i row hrow
      split at howned
      · cases howned
      rw [Lib.ite_error_eq_ok] at howned
      obtain ⟨hclaimed, -⟩ := howned
      push Not at hclaimed
      exact ⟨row, hrow, hclaimed⟩
  · simp only [hrow, hstate] at hevidence
    cases hid : row.evidenceId with
    | none => exact Or.inl rfl
    | some stored =>
      rw [hid] at hevidence
      exact Or.inr (congrArg some (by simpa using hevidence))

/-- What a finalisation that answers `True` did. -/
structure Finalized (e : Env ρ) (f : Finalize) (w w' : World ρ) : Prop where
  allowed : Allowed w f
  claims : w'.claims = w.claims.insert f.key f.row
  effects : ∀ key, w.effects.contains key = true → w'.effects.contains key = true
  recorded : f.terminal = true → Recorded e w' f.evidenceId terminalEffect
  outbox : w'.outbox = w.outbox ∨
    f.terminal = true ∧ ¬ Recorded e w f.evidenceId terminalEffect ∧ AppendsTerminal f w.outbox w'.outbox
  approvals : match f.approvalDecision with
    | none => w'.approvals = w.approvals
    | some decision => Consumes decision w.approvals w'.approvals

/-- The part of a finalisation after the approval: it touches no approval. -/
theorem completion_spec (h : persistContinuationCompletion e f w = .ok w') :
    w'.claims = w.claims.insert f.key f.row ∧ w'.approvals = w.approvals ∧
      (∀ key, w.effects.contains key = true → w'.effects.contains key = true) ∧
      (f.terminal = true → Recorded e w' f.evidenceId terminalEffect) ∧
      (w'.outbox = w.outbox ∨ f.terminal = true ∧ ¬ Recorded e w f.evidenceId terminalEffect ∧
        AppendsTerminal f w.outbox w'.outbox) := by
  unfold persistContinuationCompletion at h
  have hevents := records_persistContinuationEvents e f { w with claims := w.claims.insert f.key f.row }
  generalize persistContinuationEvents e f { w with claims := w.claims.insert f.key f.row } = w1 at h hevents
  obtain ⟨heffects, hrest⟩ := hevents
  by_cases hterminal : f.terminal = true
  · simp only [hterminal, if_true] at h
    obtain ⟨hgrow, hdone, hrest', hout⟩ := appendTerminalReviewEvent_spec h
    refine ⟨?_, ?_, fun key hk => hgrow key (heffects key hk), fun _ => hdone, ?_⟩
    · rw [hrest', hrest]
    · rw [hrest', hrest]
    · have hsame : w1.outbox = w.outbox := by rw [hrest]
      rw [hsame] at hout
      rcases hout with hout | ⟨hfresh, happ⟩
      · exact Or.inl hout
      · exact Or.inr ⟨hterminal, fun hr => hfresh (heffects _ hr), happ⟩
  · simp only [hterminal] at h
    obtain rfl := Except.ok.inj h
    refine ⟨?_, ?_, heffects, fun ht => absurd ht hterminal, Or.inl ?_⟩
    · rw [hrest]
    · rw [hrest]
    · rw [hrest]

theorem finalized_of_transaction (h : finalizeTransaction e f w = .ok (some w')) :
    Finalized e f w w' := by
  unfold finalizeTransaction at h
  obtain ⟨approved, happroved, h⟩ := Lib.bind_eq_ok.1 h
  cases approved with
  | none => cases h
  | some w1 =>
    obtain ⟨allowed, hallowed, h⟩ := Lib.bind_eq_ok.1 h
    cases allowed with
    | false => cases h
    | true =>
      simp only [Bool.true_eq_false, if_false] at h
      obtain ⟨w2, hresume, h⟩ := Lib.bind_eq_ok.1 h
      obtain ⟨w3, hdone, h⟩ := Lib.map_eq_ok.1 h
      obtain rfl := Option.some.inj h
      obtain ⟨resumes, -, rfl⟩ := Lib.map_eq_ok.1 hresume
      obtain ⟨hclaims, happrovals, heffects, hrecorded, hout⟩ := completion_spec hdone
      simp only at hclaims happrovals heffects hout
      have hallow := allowed_of_ok hallowed
      unfold claimSuppliedApproval at happroved
      -- the approval's claim changes nothing else that a finalisation reads
      obtain ⟨approvals, revision, rfl, hspent⟩ : ∃ approvals revision,
          w1 = { w with approvals := approvals, authorityRevision := revision } ∧
          match f.approvalDecision with
          | none => approvals = w.approvals
          | some decision => Consumes decision w.approvals approvals := by
        cases hdecision : f.approvalDecision with
        | none =>
          rw [hdecision] at happroved
          obtain rfl := Option.some.inj (Except.ok.inj happroved)
          exact ⟨_, _, rfl, rfl⟩
        | some decision =>
          rw [hdecision] at happroved
          obtain ⟨hconsumes, hrest⟩ := claimsApproval_authority happroved
          exact ⟨_, _, hrest, hconsumes⟩
      exact ⟨⟨hallow.owner, hallow.evidence⟩, hclaims, heffects, hrecorded, hout, by rw [happrovals]; exact hspent⟩

def Env.observedAt (e : Env ρ) (now : String) : Option Int := (e.fromisoformat now).bind DateTime.instant?

/-- What a granted claim found and did. -/
structure Granted (e : Env ρ) (c : Claim) (w w' : World ρ) : Prop where
  free : ∃ observedAt, e.observedAt c.now = some observedAt ∧
    ∀ row, w.claims.get? c.key = some row → row.refuses observedAt = false
  changes : ∃ row, row.state = ClaimState.claimed ∧ row.claimId = some c.claimId ∧
    w' = { w with claims := w.claims.insert c.key row }

theorem claimTransaction_ok {c : Claim} {granted : Bool} (h : claimTransaction e c w = .ok (w', granted)) :
    granted = false ∧ w' = w ∨ granted = true ∧ Granted e c w w' := by
  simp only [claimTransaction] at h
  repeat' split at h
  any_goals cases h
  · exact Or.inl ⟨rfl, rfl⟩
  rename_i observed hobserved _ observedAt hinstant _ _ hfree
  refine Or.inr ⟨rfl, ⟨observedAt, ?_, fun row hrow => ?_⟩, _, rfl, rfl, rfl⟩
  · rw [Env.observedAt, hobserved]
    exact hinstant
  · simpa [hrow] using hfree

theorem hashed_appendsTerminal {s t : Outbox} (h : AppendsTerminal f s t) (hs : s.Hashed) :
    t.Hashed := by
  obtain ⟨r, status, happ, -, -, hhash⟩ := h
  rw [Outbox.Hashed, happ]
  exact List.forall_mem_append.2 ⟨hs, List.forall_mem_singleton.2 hhash⟩

theorem Finalized.hashed (h : Finalized e f w w') (hw : w.outbox.Hashed) : w'.outbox.Hashed := by
  rcases h.outbox with hout | ⟨-, -, happ⟩
  · rw [hout]
    exact hw
  · exact hashed_appendsTerminal happ hw

/-- The commit hook finds nothing to do: every event is written with its hash. -/
theorem commit_of_hashed (e : Env ρ) (h : w.outbox.Hashed) : commit e w = w := by
  unfold commit
  rw [finalize_of_hashed e.review h]

def Answer.refusal : Answer → Bool
  | .claimed id => id.isNone
  | .finalized result => !result
  | .raised _ => true

/-- **What a serialised call can do.** -/
theorem perform_cases (e : Env ρ) (hw : w.outbox.Hashed) (call : Call) :
    ((perform e w call).1 = w ∧ (perform e w call).2.refusal = true) ∨
      (∃ c, call = .claim c ∧ (perform e w call).2 = .claimed (some c.claimId) ∧
        Granted e c w (perform e w call).1) ∨
      ∃ f, call = .finalize f ∧ (perform e w call).2 = .finalized true ∧ Finalized e f w (perform e w call).1 := by
  cases call with
  | claim c =>
    cases hc : claimTransaction e c w with
    | error message => exact Or.inl (by simp [perform, hc, Answer.refusal])
    | ok result =>
      obtain ⟨w', granted⟩ := result
      obtain ⟨rfl, rfl⟩ | ⟨rfl, hg⟩ := claimTransaction_ok hc
      · exact Or.inl (by simp [perform, hc, commit_of_hashed e hw, Answer.refusal])
      · have hh : w'.outbox.Hashed := by
          obtain ⟨row, -, -, rfl⟩ := hg.changes
          exact hw
        refine Or.inr (Or.inl ⟨c, rfl, by simp [perform, hc], ?_⟩)
        simpa only [perform, hc, commit_of_hashed e hh] using hg
  | finalize f =>
    cases hf : finalizeTransaction e f w with
    | error message => exact Or.inl (by simp [perform, hf, Answer.refusal])
    | ok result =>
      cases result with
      | none => exact Or.inl (by simp [perform, hf, commit_of_hashed e hw, Answer.refusal])
      | some w' =>
        have hd := finalized_of_transaction hf
        refine Or.inr (Or.inr ⟨f, rfl, by simp [perform, hf], ?_⟩)
        simpa only [perform, hf, commit_of_hashed e (hd.hashed hw)] using hd

/-! ## Runs -/

/-- The stored claims are ones these calls write: a completed row names a terminal evidence id and a claimed one its
claim id, and every review event has its hash. -/
structure Sound (terminalOf : String → Bool) (w : World ρ) : Prop where
  completed : ∀ key row, w.claims.get? key = some row → row.state = .completed →
    ∃ evidenceId, row.evidenceId = some evidenceId ∧ terminalOf evidenceId = true
  claimed : ∀ key row, w.claims.get? key = some row → row.state = .claimed → row.claimId.isSome = true
  hashed : w.outbox.Hashed

/-- An evidence id always comes with the same terminal flag. -/
def Consistent (terminalOf : String → Bool) : Call → Prop
  | .claim _ => True
  | .finalize f => f.terminal = terminalOf f.evidenceId

variable {terminalOf : String → Bool}

theorem Sound.insert (hw : Sound terminalOf w) {key : ClaimKey} {new : ClaimRow}
    (hclaims : w'.claims = w.claims.insert key new) (hhashed : w'.outbox.Hashed)
    (hcompleted : new.state = .completed → ∃ evidenceId, new.evidenceId = some evidenceId ∧
      terminalOf evidenceId = true)
    (hclaimed : new.state = .claimed → new.claimId.isSome = true) : Sound terminalOf w' := by
  have hrows : ∀ k row, w'.claims.get? k = some row → row = new ∨ w.claims.get? k = some row := by
    intro k row hrow
    rw [hclaims, KeyMap.get?_insert] at hrow
    split at hrow
    · exact Or.inl (Option.some.inj hrow).symm
    · exact Or.inr hrow
  refine ⟨fun k row hrow => ?_, fun k row hrow => ?_, hhashed⟩
  · rcases hrows k row hrow with rfl | hrow
    · exact hcompleted
    · exact hw.completed k row hrow
  · rcases hrows k row hrow with rfl | hrow
    · exact hclaimed
    · exact hw.claimed k row hrow

theorem sound_perform (e : Env ρ) (hw : Sound terminalOf w) {call : Call}
    (hc : Consistent terminalOf call) : Sound terminalOf (perform e w call).1 := by
  rcases perform_cases e hw.hashed call with ⟨h, -⟩ | ⟨c, rfl, -, h⟩ | ⟨f, rfl, -, h⟩
  · rw [h]
    exact hw
  · obtain ⟨new, hstate, hid, h⟩ := h.changes
    rw [h]
    exact hw.insert rfl hw.hashed (by simp [hstate]) (by simp [hid])
  · have hflag : f.terminal = terminalOf f.evidenceId := hc
    refine hw.insert h.claims (h.hashed hw.hashed) ?_ ?_
    · cases ht : f.terminal with
      | true => exact fun _ => ⟨f.evidenceId, rfl, hflag.symm.trans ht⟩
      | false => simp [Finalize.row, ht]
    · cases ht : f.terminal <;> simp [Finalize.row, ht]

def CompletedWith (w : World ρ) (key : ClaimKey) (evidenceId : String) : Prop :=
  ∃ row, w.claims.get? key = some row ∧ row.state = .completed ∧ row.evidenceId = some evidenceId

theorem CompletedWith.unique {key : ClaimKey} {x y : String} (hx : CompletedWith w key x)
    (hy : CompletedWith w key y) : x = y := by
  obtain ⟨row, hrow, -, hx⟩ := hx
  obtain ⟨row', hrow', -, hy⟩ := hy
  rw [hrow] at hrow'
  obtain rfl := Option.some.inj hrow'
  rw [hx] at hy
  exact Option.some.inj hy

/-- **A completed row is frozen**: no call changes its state or its evidence id. -/
theorem completed_perform (e : Env ρ) (hw : Sound terminalOf w) {call : Call}
    (hc : Consistent terminalOf call) {key : ClaimKey} {x : String} (h : CompletedWith w key x) :
    CompletedWith (perform e w call).1 key x := by
  obtain ⟨row, hrow, hstate, hx⟩ := h
  rcases perform_cases e hw.hashed call with ⟨h, -⟩ | ⟨c, rfl, -, h⟩ | ⟨f, rfl, -, h⟩
  · rw [h]
    exact ⟨row, hrow, hstate, hx⟩
  · obtain ⟨new, -, -, hafter⟩ := h.changes
    obtain ⟨observedAt, -, hfree⟩ := h.free
    refine ⟨row, ?_, hstate, hx⟩
    rw [hafter, KeyMap.get?_insert]
    by_cases hk : key = c.key
    · have := hfree row (hk ▸ hrow)
      simp [ClaimRow.refuses, hstate] at this
    · rw [if_neg hk]
      exact hrow
  · by_cases hk : key = f.key
    · -- the row lets only its own evidence pass, which is terminal
      subst hk
      have hsame : f.evidenceId = x := by
        rcases h.allowed.evidence row hrow hstate with hnone | hsome
        · rw [hx] at hnone
          cases hnone
        · rw [hx] at hsome
          exact (Option.some.inj hsome).symm
      have hterminal : f.terminal = true := by
        obtain ⟨y, hy, hflag⟩ := hw.completed _ row hrow hstate
        rw [hx] at hy
        obtain rfl := Option.some.inj hy
        have hf : f.terminal = terminalOf f.evidenceId := hc
        rw [hf, hsame]
        exact hflag
      refine ⟨f.row, ?_, by simp [Finalize.row, hterminal], by simp [Finalize.row, hsame]⟩
      rw [h.claims, KeyMap.get?_insert, if_pos rfl]
    · refine ⟨row, ?_, hstate, hx⟩
      rw [h.claims, KeyMap.get?_insert, if_neg hk]
      exact hrow

/-- The offer is completed and its terminal effect is on record. -/
def Ended (e : Env ρ) (key : ClaimKey) (w : World ρ) : Prop :=
  ∃ x, CompletedWith w key x ∧ Recorded e w x terminalEffect

theorem ended_perform (e : Env ρ) (hw : Sound terminalOf w) {call : Call}
    (hc : Consistent terminalOf call) {key : ClaimKey} (h : Ended e key w) :
    Ended e key (perform e w call).1 := by
  obtain ⟨x, hx, hrec⟩ := h
  refine ⟨x, completed_perform e hw hc hx, ?_⟩
  rcases perform_cases e hw.hashed call with ⟨h, -⟩ | ⟨c, rfl, -, h⟩ | ⟨f, rfl, -, h⟩
  · rw [h]
    exact hrec
  · obtain ⟨new, -, -, hafter⟩ := h.changes
    rw [hafter]
    exact hrec
  · exact h.effects _ hrec

abbrev Step (ρ : Type) := Machine.Taken (World ρ) Call Answer

/-- A finalisation of the offer that appended a review event. -/
def AppendsFor (key : ClaimKey) (t : Step ρ) : Prop :=
  ∃ f, t.input = .finalize f ∧ f.key = key ∧ t.after.outbox.events ≠ t.before.outbox.events

theorem appendsFor_spec (e : Env ρ) (hw : w.outbox.Hashed) {key : ClaimKey} {call : Call}
    (h : AppendsFor key ⟨w, call, (perform e w call).2, (perform e w call).1⟩) :
    ¬ Ended e key w ∧ Ended e key (perform e w call).1 := by
  obtain ⟨f, hcall, rfl, hne⟩ := h
  simp only at hcall hne
  rcases perform_cases e hw call with ⟨h, -⟩ | ⟨c, rfl, -, -⟩ | ⟨g, rfl, -, h⟩
  · rw [h] at hne
    exact absurd rfl hne
  · cases hcall
  · obtain rfl := Call.finalize.inj hcall
    rcases h.outbox with hout | ⟨hterminal, hfresh, -⟩
    · exact absurd (congrArg Outbox.events hout) hne
    · refine ⟨?_, g.evidenceId, ⟨g.row, ?_, by simp [Finalize.row, hterminal], rfl⟩, h.recorded hterminal⟩
      · rintro ⟨x, ⟨row, hrow, hstate, hx⟩, hrec⟩
        rcases h.allowed.evidence row hrow hstate with hnone | hsome
        · rw [hx] at hnone
          cases hnone
        · rw [hx] at hsome
          obtain rfl := Option.some.inj hsome
          exact hfresh hrec
      · rw [h.claims, KeyMap.get?_insert, if_pos rfl]

def Holds (w : World ρ) (key : ClaimKey) (claimId : String) : Prop :=
  ∃ row, w.claims.get? key = some row ∧ row.state = .claimed ∧ row.claimId = some claimId

/-- What the steps of a run do to an offer. -/
structure EndsOnce (e : Env ρ) (run : List (Step ρ)) : Prop where
  oneEvidence : ∀ key, ∀ s ∈ run, ∀ t ∈ run, ∀ x y,
    CompletedWith s.after key x → CompletedWith t.after key y → x = y
  frozen : ∀ t ∈ run, ∀ key x, CompletedWith t.before key x → CompletedWith t.after key x
  frozenAfter : run.Pairwise (fun s t => ∀ key x, CompletedWith s.after key x → CompletedWith t.after key x)
  oneTerminalEvent : ∀ key, run.Pairwise (fun s t => ¬ (AppendsFor key s ∧ AppendsFor key t))
  terminalEvents : ∀ t ∈ run, t.after.outbox.events = t.before.outbox.events ∨
    ∃ f, t.input = .finalize f ∧ f.terminal = true ∧ AppendsTerminal f t.before.outbox t.after.outbox
  lease : ∀ t ∈ run, ∀ c id, t.input = .claim c → t.output = .claimed (some id) →
    ∃ observedAt, e.observedAt c.now = some observedAt ∧ ∀ row, t.before.claims.get? c.key = some row →
      row.state = .claimed ∧ unexpired row.leaseExpiresAt observedAt = false
  ownership : ∀ t ∈ run, ∀ f claimId, t.input = .finalize f → f.claimId = some claimId →
    ¬ Holds t.before f.key claimId → t.after = t.before ∧ t.output ≠ .finalized true
  approval : ∀ t ∈ run, ∀ f decision, t.input = .finalize f → f.approvalDecision = some decision →
    (t.output = .finalized true ↔ Consumes decision t.before.approvals t.after.approvals) ∧
      (t.output ≠ .finalized true → t.after = t.before)

theorem forall_steps {calls : List Call} (hw : Sound terminalOf w) (hc : ∀ call ∈ calls, Consistent terminalOf call)
    (P : Step ρ → Prop) (h : ∀ u call, Sound terminalOf u → Consistent terminalOf call →
      P ⟨u, call, (perform e u call).2, (perform e u call).1⟩) : ∀ t ∈ (store e).steps w calls, P t := by
  rintro ⟨u, call, answer, after⟩ ht
  obtain ⟨hs, hi, hstep⟩ := Machine.steps_invariant (Sound terminalOf) calls w
    (fun s call hcall hs => sound_perform e hs (hc call hcall)) hw _ ht
  have hp : perform e u call = (after, answer) := hstep
  have := h u call hs (hc call hi)
  rwa [hp] at this

theorem lease_step (hw : w.outbox.Hashed) {c : Claim} {id : String}
    (h : (perform e w (.claim c)).2 = .claimed (some id)) :
    ∃ observedAt, e.observedAt c.now = some observedAt ∧ ∀ row, w.claims.get? c.key = some row →
      row.state = .claimed ∧ unexpired row.leaseExpiresAt observedAt = false := by
  rcases perform_cases e hw (.claim c) with ⟨-, hr⟩ | ⟨c', hc, -, hg⟩ | ⟨f, hf, -, -⟩
  · rw [h] at hr
    cases hr
  · obtain rfl := Call.claim.inj hc
    obtain ⟨observedAt, hnow, hfree⟩ := hg.free
    refine ⟨observedAt, hnow, fun row hrow => ?_⟩
    have := hfree row hrow
    unfold ClaimRow.refuses at this
    split at this
    · cases this
    · cases this
    · exact ⟨‹_›, this⟩
  · cases hf

theorem ownership_step (hw : Sound terminalOf w) {claimId : String} (hid : f.claimId = some claimId)
    (hlost : ¬ Holds w f.key claimId) :
    (perform e w (.finalize f)).1 = w ∧ (perform e w (.finalize f)).2 ≠ .finalized true := by
  rcases perform_cases e hw.hashed (.finalize f) with ⟨h, hr⟩ | ⟨c, hc, -, -⟩ | ⟨g, hg, -, h⟩
  · refine ⟨h, fun htrue => ?_⟩
    rw [htrue] at hr
    cases hr
  · cases hc
  · obtain rfl := Call.finalize.inj hg
    obtain ⟨row, hrow, hstate, htext⟩ := h.allowed.owner claimId hid
    obtain ⟨stored, hstored⟩ := Option.isSome_iff_exists.1 (hw.claimed _ row hrow hstate)
    rw [hstored] at htext
    exact absurd ⟨row, hrow, hstate, hstored.trans (congrArg some htext)⟩ hlost

theorem not_consumes_self (decision : PyDict) (approvals : KeyMap String LocalOnceApproval) :
    ¬ Consumes decision approvals approvals := by
  rintro ⟨approvalId, row, row', -, hrow, hnone, hsome, hafter⟩
  have hsame : approvals.get? approvalId = some row' := by
    rw [hafter, KeyMap.get?_insert, if_pos rfl]
  rw [hrow] at hsame
  obtain rfl := Option.some.inj hsame
  rw [hnone] at hsome
  cases hsome

theorem approval_step (hw : w.outbox.Hashed) (hd : f.approvalDecision = some decision) :
    ((perform e w (.finalize f)).2 = .finalized true ↔
        Consumes decision w.approvals (perform e w (.finalize f)).1.approvals) ∧
      ((perform e w (.finalize f)).2 ≠ .finalized true → (perform e w (.finalize f)).1 = w) := by
  rcases perform_cases e hw (.finalize f) with ⟨h, hr⟩ | ⟨c, hc, -, -⟩ | ⟨g, hg, htrue, h⟩
  · refine ⟨⟨fun htrue => ?_, fun hconsumes => ?_⟩, fun _ => h⟩
    · rw [htrue] at hr
      cases hr
    · rw [h] at hconsumes
      exact absurd hconsumes (not_consumes_self decision w.approvals)
  · cases hc
  · obtain rfl := Call.finalize.inj hg
    have happ := h.approvals
    rw [hd] at happ
    exact ⟨⟨fun _ => happ, fun _ => htrue⟩, fun hne => absurd htrue hne⟩

theorem terminalEvents_step (hw : w.outbox.Hashed) (call : Call) :
    (perform e w call).1.outbox.events = w.outbox.events ∨
      ∃ f, call = .finalize f ∧ f.terminal = true ∧ AppendsTerminal f w.outbox (perform e w call).1.outbox := by
  rcases perform_cases e hw call with ⟨h, -⟩ | ⟨c, rfl, -, h⟩ | ⟨f, rfl, -, h⟩
  · exact Or.inl (by rw [h])
  · obtain ⟨row, -, -, h⟩ := h.changes
    exact Or.inl (by rw [h])
  · rcases h.outbox with hout | ⟨hterminal, -, happ⟩
    · exact Or.inl (by rw [hout])
    · exact Or.inr ⟨f, rfl, hterminal, happ⟩

/-- **Each continuation offer ends at most once**, in every run of serialised claims and finalisations in which an
evidence id always comes with the same terminal flag. -/
theorem offers_end_once (e : Env ρ) (terminalOf : String → Bool) (w : World ρ) (calls : List Call)
    (hw : Sound terminalOf w) (hc : ∀ call ∈ calls, Consistent terminalOf call) :
    EndsOnce e ((store e).steps w calls) := by
  have hsteps := forall_steps (e := e) hw hc
  have hfrozen : ∀ t ∈ (store e).steps w calls, ∀ key x, CompletedWith t.before key x → CompletedWith t.after key x :=
    hsteps _ (fun u call hs hcall key x hx => completed_perform e hs hcall hx)
  have hafter : ((store e).steps w calls).Pairwise
      (fun s t => ∀ key x, CompletedWith s.after key x → CompletedWith t.after key x) := by
    refine (Machine.pairwise_steps (fun s w => ∀ key x, CompletedWith s.after key x → CompletedWith w key x) calls w
      (fun s t ht h key x hx => hfrozen t ht key x (h key x hx)) (fun s hs key x hx => hx)).imp_of_mem ?_
    intro s t hs ht h key x hx
    exact hfrozen t ht key x (h key x hx)
  refine ⟨fun key => ?_, hfrozen, hafter, fun key => ?_, ?_, ?_, ?_, ?_⟩
  · have hone : ((store e).steps w calls).Pairwise
        (fun s t => ∀ x y, CompletedWith s.after key x → CompletedWith t.after key y → x = y) := by
      refine hafter.imp ?_
      intro s t h x y hx hy
      exact (h key x hx).unique hy
    have hsymm : Std.Symm (fun s t : Step ρ => ∀ x y, CompletedWith s.after key x → CompletedWith t.after key y →
        x = y) := ⟨fun s t h x y hx hy => (h y x hy hx).symm⟩
    exact fun s hs t ht => hone.forall_of_forall (fun s _ x y hx hy => hx.unique hy) hs ht
  · -- an appended event leaves the offer ended, and an ended offer appends nothing
    have happends := hsteps (fun t => AppendsFor key t → ¬ Ended e key t.before ∧ Ended e key t.after)
      (fun u call hs _ => appendsFor_spec e hs.hashed)
    have hended := hsteps (fun t => Ended e key t.before → Ended e key t.after)
      (fun u call hs hcall => ended_perform e hs hcall)
    refine (Machine.pairwise_steps (fun s w => AppendsFor key s → Ended e key w) calls w
      (fun s t ht h ha => hended t ht (h ha)) (fun t ht ha => (happends t ht ha).2)).imp_of_mem ?_
    rintro s t hs ht h ⟨ha, hb⟩
    exact (happends t ht hb).1 (h ha)
  · exact hsteps _ (fun u call hs _ => terminalEvents_step hs.hashed call)
  · refine hsteps _ (fun u call hs _ c id hcall hout => ?_)
    obtain rfl : call = .claim c := hcall
    exact lease_step hs.hashed hout
  · refine hsteps _ (fun u call hs _ f claimId hcall hid hlost => ?_)
    obtain rfl : call = .finalize f := hcall
    exact ownership_step hs hid hlost
  · refine hsteps _ (fun u call hs _ f decision hcall hd => ?_)
    obtain rfl : call = .finalize f := hcall
    exact approval_step hs.hashed hd

/-! ## A run with a supplied approval -/

def sampleEnv : Env Unit where
  fromisoformat := DateTime.fromisoformat
  canonicalUtcTimestamp := fun text => (DateTime.fromisoformat text).map (fun _ => text)
  julianday := fun text => (DateTime.fromisoformat text).map (fun d => (d.utcInstant : ℚ))
  workspacePolicyKey := id
  sha256 := id
  signLocalAuthorityPayload := fun _ key keyId _ now => ⟨some 1, some "hash", some key, some keyId, some now⟩
  verifyLocalAuthorityPayload := fun _ integrity key keyId _ =>
    integrity.payloadMac == some key && integrity.integrityKeyId == some keyId
  persistResumeState := fun _ _ => .ok ()
  reviewEventPayloadJson := fun _ _ now _ => now
  review :=
    { payloadDigest := fun _ _ _ => "digest"
      payloadDigest_ne := fun _ _ _ => by decide
      decodeStoredReviewEvent := fun _ => none
      retryAt := fun now _ => now }

def sampleApproval : LocalOnceApproval where
  requestId := "request"
  harness := "codex"
  artifactId := some "codex:tool:shell"
  artifactHash := some "sha256:1"
  workspace := none
  publisher := none
  action := "allow"
  createdAt := "2026-01-01T00:00:00+00:00"
  expiresAt := "2026-01-02T00:00:00+00:00"
  claimedAt := none
  integrity := ⟨some 1, some "hash", some "secret", some "key", some "2026-01-01T00:00:00+00:00"⟩
  authorityKind := some localOnceLegacyAuthorityKind

def sampleWorld : World Unit where
  claims := .empty
  effects := .empty
  guardEvents := []
  outbox := .empty
  requests := KeyMap.empty.insert "request"
    ⟨some "resolved", some "allow", some "artifact", some "review", some "codex", some "codex:tool:shell",
      some "sha256:1", none, none, some "cloud"⟩
  approvals := KeyMap.empty.insert "approval" sampleApproval
  authorityRevision := some 3
  resumes := ()

def sampleKey : ClaimKey := ⟨"request", "offer", "allow_once"⟩

/-- A worker with a claim id hands over the approval and reports the attempt as resumed. -/
def sampleFinalize (claimId : Option String) (evidenceId now : String) : Finalize where
  key := sampleKey
  claimId := claimId
  evidenceId := evidenceId
  terminal := true
  resumeSeed := []
  resumeUpdate := [("continuation_status", .str "resumed"), ("continuation_capability", .str "live"),
    ("continuation_reason", .str "resumed"), ("continuation_completed_at", .str now),
    ("continuation_evidence", .list [.dict [("correlationId", .str "correlation")]])]
  operationUpdate := none
  events := [("continuation.resumed", [])]
  now := now
  approvalDecision := some (localOnceApprovalPayload "approval" sampleApproval ++
    [("_approval_authority_revision", .int 3)])
  secret := (some "secret", some "key")
  reviewEventId := "event-" ++ evidenceId
  binding := none

/-- The first worker's lease runs out, a second one takes over and ends the offer; the first comes back too late. -/
def sampleCalls : List Call :=
  [.claim ⟨sampleKey, "2026-01-01T08:00:00+00:00", 30, "claim-a"⟩,
    .claim ⟨sampleKey, "2026-01-01T08:00:20+00:00", 30, "claim-b"⟩,
    .claim ⟨sampleKey, "2026-01-01T08:00:40+00:00", 30, "claim-b"⟩,
    .finalize (sampleFinalize (some "claim-b") "evidence-b" "2026-01-01T08:00:41+00:00"),
    .finalize (sampleFinalize (some "claim-a") "evidence-a" "2026-01-01T08:00:42+00:00")]

theorem sound_sampleWorld : Sound (fun _ => true) sampleWorld where
  completed := fun _ _ h => nomatch h
  claimed := fun _ _ h => nomatch h
  hashed := fun _ h => absurd h List.not_mem_nil

theorem late_worker_ends_nothing :
    EndsOnce sampleEnv ((store sampleEnv).steps sampleWorld sampleCalls) ∧
      ((store sampleEnv).steps sampleWorld sampleCalls).map Machine.Taken.output =
        [.claimed (some "claim-a"), .claimed none, .claimed (some "claim-b"), .finalized true, .finalized false] :=
  ⟨offers_end_once sampleEnv (fun _ => true) sampleWorld sampleCalls sound_sampleWorld (by
      intro call hcall
      simp only [sampleCalls, List.mem_cons, List.not_mem_nil, or_false] at hcall
      rcases hcall with rfl | rfl | rfl | rfl | rfl
      · trivial
      · trivial
      · trivial
      · rfl
      · rfl),
    by decide +kernel⟩

end Guard.Continuation
