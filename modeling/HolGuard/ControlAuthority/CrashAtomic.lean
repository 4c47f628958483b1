import HolGuard.ControlAuthority.Completion
import HolGuard.ControlAuthority.GrantSafety
/-!
# A commit is done or not done

A call of `commit_extension_control_layers` may stop at any write, and so may every later recovery and every repetition
of the call.  The ledger stays `Near` the old snapshot and the new one, and a recovery that completes leaves one of the
two.
-/
namespace Guard
namespace ControlAuthority

open Lib (Faulty)
open Lib.Faulty (Runs after_bind after_lift after_pure after_refuse after_write runs_get_bind runs_pure)

variable {k : Keys}

/-! ## Recovery of a chain -/

variable {rows : List TransitionRow} {s : SnapshotRow}

theorem Chain.exists_last (h : Chain k rows s) (hpos : 0 < s.revision) :
    ∃ row ∈ rows, row.revision = s.revision ∧ row.phase = .committed := by
  cases h with
  | boot zero => omega
  | @next rows _ row _ committed => exact ⟨row, List.mem_concat_self, rfl, committed⟩

theorem Chain.recoverable_none {db : Database} (h : Chain k rows s) (hrows : db.transitions = rows) :
    recoverable db s.revision = none := by
  rw [recoverable, hrows, h.byRevision_eq, List.head?_eq_none_iff, List.filter_eq_nil_iff]
  intro row hrow
  have := h.revision_le hrow
  simp only [h.all_committed row hrow, decide_eq_true_eq]
  rintro (⟨-, hbad⟩ | hnext)
  · exact hbad rfl
  · omega

variable {row : TransitionRow}

theorem Chain.recoverable_pending {db : Database} (h : Chain k rows s)
    (hrow : row.revision = s.revision + 1) (hrows : db.transitions = rows ++ [row]) :
    recoverable db s.revision = some row := by
  have hsorted : byRevision (rows ++ [row]) = rows ++ [row] := by
    unfold byRevision
    refine List.mergeSort_of_pairwise (List.pairwise_append.2 ⟨?_, List.pairwise_singleton _ _, ?_⟩)
    · exact h.sorted.imp fun hab => decide_eq_true hab
    · intro a ha b hb
      have := h.revision_le ha
      rw [List.mem_singleton.1 hb]
      exact decide_eq_true (by omega)
  have hnone : recoverable { db with transitions := rows } s.revision = none := h.recoverable_none rfl
  rw [recoverable, h.byRevision_eq, List.head?_eq_none_iff] at hnone
  rw [recoverable, hrows, hsorted, List.filter_append, hnone]
  simp [hrow]

/-- A read of the stored snapshot's own catalog does not migrate. -/
theorem runs_readWithRegistry_own {registry : Option Registry} {stamp : String} {w w' : World}
    {r : Except String ExtensionControlAuthorityView} (hs : w.db.snapshot = some s)
    (h : Runs (readWithRegistry k s.catalogDigest registry stamp) w r w') :
    Runs (readExtensionControlAuthority k s.catalogDigest) w r w' := by
  unfold readWithRegistry at h
  replace h := Faulty.runs_get_bind h
  split at h
  · rename_i hs' _
    cases hs.symm.trans hs'
    rw [if_neg (by simp)] at h
    exact h
  · exact h

section Settled

variable {registry : Option Registry} {stamp : String} {rows : List TransitionRow} {s : SnapshotRow} {w w' : World}
  {r : Except String ExtensionControlAuthorityView}

theorem runs_recoverAnchored_settled (hchain : Chain k rows s)
    (hledger : w.ledger = ⟨some s, rows, some (s.anchor .committed)⟩)
    (h : Runs (recoverAnchored k s.catalogDigest registry stamp s) w r w') :
    w' = w ∧ (r = .error interrupted ∨ r = .ok (protectedView s)) := by
  obtain ⟨hs, hrows, -⟩ := World.ledger_eq hledger
  have hread : Runs (do
      let recovered ← readWithRegistry k s.catalogDigest registry stamp
      if recovered.health = .isProtected then pure recovered
      else resetExtensionControlAuthority k s.catalogDigest "authenticated-recovery-unverifiable" stamp) w r w' →
      w' = w ∧ (r = .error interrupted ∨ r = .ok (protectedView s)) := by
    intro h
    refine after_bind h (fun e v hread => ?_) fun view v hread hrest => ?_
    · obtain ⟨rfl, he | ⟨view, hview, -⟩⟩ := runs_read (runs_readWithRegistry_own hs hread)
      · cases he
        exact ⟨rfl, .inl rfl⟩
      · cases hview
    · obtain ⟨rfl, he | ⟨view', hview, -, hall⟩⟩ := runs_read (runs_readWithRegistry_own hs hread)
      · cases he
      cases hview
      rw [hall s (protects_of_settled hchain hledger)] at hrest
      exact after_pure hrest ⟨rfl, .inr rfl⟩
  unfold recoverAnchored at h
  replace h := Faulty.runs_get_bind h
  by_cases hpos : 0 < s.revision
  · rw [if_neg (by rw [hrows]; exact fun hc => hc.2 (hchain.exists_last hpos))] at h
    simp only [hpos, if_true] at h
    exact after_write h ⟨rfl, .inl rfl⟩ ⟨rfl, .inl rfl⟩ hread
  · rw [if_neg fun hc => hpos hc.1] at h
    simp only [hpos, if_false] at h
    exact hread h

/-- The anchor names the stored snapshot, whatever its phase. -/
theorem runs_recoverUnresumed_chain {phase : AuthorityPhase} (hchain : Chain k rows s)
    (hledger : w.ledger = ⟨some s, rows, some (s.anchor phase)⟩)
    (h : Runs (recoverUnresumed k s.catalogDigest registry stamp s (s.anchor phase)) w r w') :
    (w'.ledger = w.ledger ∧ r = .error interrupted) ∨
      w'.ledger = ⟨some s, rows, some (s.anchor .committed)⟩ ∧
        (r = .error interrupted ∨ r = .ok (protectedView s)) := by
  obtain ⟨hs, hrows, -⟩ := World.ledger_eq hledger
  rw [recoverUnresumed, if_pos (by simp)] at h
  by_cases hphase : phase ≠ .committed
  · rw [if_pos (by simpa using hphase)] at h
    have hset : (w.setAnchor (s.anchor .committed)).ledger =
        ⟨some s, rows, some (s.anchor .committed)⟩ := by
      simp only [World.ledger, World.setAnchor_db, World.setAnchor_anchor, hs, hrows]
    refine after_write h (.inl ⟨rfl, rfl⟩) (.inr ⟨hset, .inl rfl⟩) fun h => ?_
    obtain ⟨rfl, hr⟩ := runs_recoverAnchored_settled hchain hset h
    exact .inr ⟨hset, hr⟩
  · push Not at hphase
    subst hphase
    rw [if_neg (by simp)] at h
    obtain ⟨rfl, hr⟩ := runs_recoverAnchored_settled hchain hledger h
    exact .inr ⟨hledger, hr⟩

end Settled

/-! ## The old snapshot, the new one, and what is between them -/

/-- The ledgers between the snapshot `s` and the one that a transition of the call leads to. -/
inductive Near (k : Keys) (c : CommitCall) (rows : List TransitionRow) (s : SnapshotRow) : Ledger → Prop
  | old : Near k c rows s ⟨some s, rows, some ⟨s.revision, s.snapshot.digest, .committed⟩⟩
  | prepared {row : TransitionRow} (phase : row.phase = .prepared) (follows : Follows k s row)
      (made : c.Makes k s row) :
      Near k c rows s ⟨some s, rows ++ [row], some ⟨s.revision, s.snapshot.digest, .committed⟩⟩
  | anchored {row : TransitionRow} (phase : row.phase = .prepared) (follows : Follows k s row)
      (made : c.Makes k s row) :
      Near k c rows s ⟨some s, rows ++ [row], some ⟨row.revision, row.snapshot.digest, .anchored⟩⟩
  | new {row : TransitionRow} (at_ : String) (follows : Follows k s row) (made : c.Makes k s row)
      (phase : AuthorityPhase) : Near k c rows s ⟨some (row.toSnapshot s.snapshot.digest), rows ++ [row.commit at_],
        some ⟨row.revision, row.snapshot.digest, phase⟩⟩

/-- A ledger determines its snapshot, its last row and the rows before it. -/
theorem Ledger.snoc_inj {s t : SnapshotRow} {rows rows' : List TransitionRow} {row row' : TransitionRow}
    {a b : Option AuthorityAnchor} (h : (⟨some s, rows ++ [row], a⟩ : Ledger) = ⟨some t, rows' ++ [row'], b⟩) :
    s = t ∧ rows = rows' ∧ row = row' := by
  simp only [Ledger.mk.injEq, Option.some.injEq] at h
  obtain ⟨hsnapshot, hrows, -⟩ := h
  obtain ⟨hsame, hrow⟩ := List.append_inj' hrows rfl
  exact ⟨hsnapshot, hsame, List.singleton_inj.1 hrow⟩

namespace Near

variable {c : CommitCall} {rows : List TransitionRow} {s : SnapshotRow} {L L' : Ledger}

theorem not_chain_prepared {t : SnapshotRow} (h : Chain k (rows ++ [row]) t) :
    row.phase ≠ .prepared := by
  rw [h.all_committed row List.mem_concat_self]
  simp

theorem step {authorised : Prop} (hchain : Chain k rows s) (h : Near k c rows s L)
    (hstep : Step k (c.rights k authorised) L L') : Near k c rows s L' := by
  cases h with
  | old =>
    generalize hL : (⟨some s, rows, some (s.anchor .committed)⟩ : Ledger) = L at hstep
    cases hstep with
    | prepare chain phase follows allowed =>
      cases hL
      exact .prepared phase follows allowed
    | withdraw _ phase | anchor _ phase =>
      cases hL
      exact absurd phase (not_chain_prepared hchain)
    | finish | confirm =>
      cases hL
      exact .old
    | clear allowed => exact allowed.elim
    | install | boot => simp at hL
  | @prepared row phase follows made =>
    generalize hL : (⟨some s, rows ++ [row], some (s.anchor .committed)⟩ : Ledger) = L at hstep
    cases hstep with
    | prepare chain | finish chain =>
      cases hL
      exact absurd phase (not_chain_prepared chain)
    | withdraw chain =>
      obtain ⟨rfl, rfl, -⟩ := Ledger.snoc_inj hL
      exact .old
    | anchor chain =>
      obtain ⟨rfl, rfl, rfl⟩ := Ledger.snoc_inj hL
      exact .anchored phase follows made
    | clear allowed => exact allowed.elim
    | install | boot | confirm => simp at hL
  | @anchored row phase follows made =>
    generalize hL : (⟨some s, rows ++ [row], some (row.anchor .anchored)⟩ : Ledger) = L at hstep
    cases hstep with
    | install at_ =>
      obtain ⟨rfl, rfl, rfl⟩ := Ledger.snoc_inj hL
      exact .new at_ follows made .anchored
    | finish chain =>
      simp only [Ledger.mk.injEq] at hL
      rw [← hL.2.1] at chain
      exact absurd phase (not_chain_prepared chain)
    | clear allowed => exact allowed.elim
    | prepare | withdraw | anchor | boot | confirm => simp at hL
  | @new row stamp follows made p =>
    generalize hL : (⟨some (row.toSnapshot s.snapshot.digest), rows ++ [row.commit stamp],
      some (row.anchor p)⟩ : Ledger) = L at hstep
    cases hstep with
    | prepare chain phase follows' allowed =>
      -- the new snapshot is not at the revision that the call expects
      simp only [Ledger.mk.injEq, Option.some.injEq] at hL
      have hnext := allowed.1
      rw [← hL.1, ← made.1] at hnext
      have := follows.revision
      simp only [TransitionRow.toSnapshot] at hnext
      omega
    | withdraw _ phase | anchor _ phase | install _ _ phase =>
      obtain ⟨-, -, rfl⟩ := Ledger.snoc_inj hL
      simp [TransitionRow.commit] at phase
    | finish chain =>
      simp only [Ledger.mk.injEq, Option.some.injEq] at hL
      obtain ⟨rfl, rfl, -⟩ := hL
      exact .new stamp follows made .committed
    | clear allowed => exact allowed.elim
    | boot | confirm => simp at hL

theorem steps {authorised : Prop} (hchain : Chain k rows s) (h : Near k c rows s L)
    (hsteps : Steps k (c.rights k authorised) L L') : Near k c rows s L' := by
  induction hsteps with
  | refl => exact h
  | tail _ step ih => exact ih.step hchain step

end Near

/-! ## Recovery near a snapshot -/

variable {catalogDigest : String} {c : CommitCall}

section Recover

variable {registry : Option Registry} {stamp : String} {rows : List TransitionRow} {s : SnapshotRow} {w w' : World}
  {r : Except String ExtensionControlAuthorityView}

theorem runs_recover_found {anchor : AuthorityAnchor} (hs : w.db.snapshot = some s) (ha : w.anchor = some anchor)
    (h : Runs (recoverExtensionControlAuthority k catalogDigest registry stamp) w r w') :
    ∃ v, v.ledger = w.ledger ∧ ((r = .error interrupted ∧ w' = v) ∨
      Runs (recoverFrom k v.db catalogDigest registry stamp s anchor) v r w') := by
  unfold recoverExtensionControlAuthority at h
  obtain ⟨v, hledger, -, hend | h⟩ := runs_invalidate_bind h
  · exact ⟨v, hledger, .inl hend⟩
  obtain ⟨hvs, -, hva⟩ := World.ledger_eq (w := v) (hledger : v.ledger = ⟨_, _, _⟩)
  replace h := runs_get_bind h
  simp only [hvs, hva, hs, ha] at h
  exact ⟨v, hledger, .inr h⟩

/-- The ledger is settled at a snapshot, and that is the answer. -/
def RecoveredTo (k : Keys) (r : Except String ExtensionControlAuthorityView) (L : Ledger) : Prop :=
  ∃ rows t, Chain k rows t ∧ L = ⟨some t, rows, some ⟨t.revision, t.snapshot.digest, .committed⟩⟩ ∧
    r = .ok (protectedView t)

/-- Nothing is pending: recovery completes the anchor at most. -/
theorem runs_recover_chain {phase : AuthorityPhase} (hchain : Chain k rows s)
    (hledger : w.ledger = ⟨some s, rows, some (s.anchor phase)⟩)
    (h : Runs (recoverExtensionControlAuthority k s.catalogDigest registry stamp) w r w') :
    (w'.ledger = w.ledger ∧ r = .error interrupted) ∨
      w'.ledger = ⟨some s, rows, some (s.anchor .committed)⟩ ∧
        (r = .error interrupted ∨ r = .ok (protectedView s)) := by
  obtain ⟨hs, hrows, ha⟩ := World.ledger_eq hledger
  obtain ⟨v, hv, ⟨rfl, rfl⟩ | hfrom⟩ := runs_recover_found hs ha h
  · exact .inl ⟨hv, rfl⟩
  have hrows' := (World.ledger_eq (hv.trans hledger)).2.1
  rw [recoverFrom, resumeRecoverable, hchain.recoverable_none hrows'] at hfrom
  rw [← hv]
  exact runs_recoverUnresumed_chain hchain (hv.trans hledger) hfrom

theorem runs_resume_own {current : ExtensionControlAuthorityView}
    {o : Except String (Option ExtensionControlAuthorityView)} (hs : w.db.snapshot = some s)
    (hfollows : Follows k s row) (h : Runs (resumeIdempotentTransition k row current row.asRequest stamp) w o w') :
    ∃ v, v.ledger = w.ledger ∧ ((o = .error interrupted ∧ w' = v) ∨
      Runs (resumeFrom k row current stamp s w.anchor) v o w') := by
  obtain ⟨v, hledger, -, ⟨e, rfl, rfl, rfl | hbad⟩ | ⟨-, hfrom⟩⟩ := runs_resume hs h
  · exact ⟨_, hledger, .inl ⟨rfl, rfl⟩⟩
  · exact absurd ⟨⟨rfl, rfl, rfl, rfl, rfl, rfl⟩, hfollows.size⟩ hbad
  · exact ⟨v, hledger, .inr hfrom⟩

theorem Near.resume {anchor : AuthorityAnchor} {current : ExtensionControlAuthorityView}
    {o : Except String (Option ExtensionControlAuthorityView)} (hchain : Chain k rows s)
    (hphase : row.phase = .prepared) (hfollows : Follows k s row) (hmade : c.Makes k s row)
    (hanchor : anchor = (s.anchor .committed) ∨
      anchor = (row.anchor .anchored))
    (hledger : w.ledger = ⟨some s, rows ++ [row], some anchor⟩)
    (h : Runs (resumeIdempotentTransition k row current row.asRequest stamp) w o w') :
    (o = .error interrupted ∧ Near k c rows s w'.ledger) ∨
      (o = .ok none ∧ anchor = (s.anchor .committed) ∧
        w'.ledger = ⟨some s, rows, some (s.anchor .committed)⟩) ∨
      o = .ok (some (protectedView (row.toSnapshot s.snapshot.digest))) ∧
        w'.ledger = ⟨some (row.toSnapshot s.snapshot.digest), rows ++ [row.commit stamp],
          some (row.anchor .committed)⟩ := by
  obtain ⟨hs, -, ha⟩ := World.ledger_eq hledger
  obtain ⟨v, hv, ⟨rfl, rfl⟩ | hfrom⟩ := runs_resume_own hs hfollows h
  · refine .inl ⟨rfl, ?_⟩
    rw [hv, hledger]
    rcases hanchor with rfl | rfl
    · exact .prepared hphase hfollows hmade
    · exact .anchored hphase hfollows hmade
  · rw [ha] at hfrom
    rcases hanchor with rfl | rfl
    · obtain ⟨-, hsteps, ho | ⟨ho, hw⟩⟩ := runs_resumeFrom_prepared (R := c.rights k False) hchain hphase hfollows
        (hv.trans hledger) hfrom
      · rw [hv, hledger] at hsteps
        exact .inl ⟨ho, (Near.prepared hphase hfollows hmade).steps hchain hsteps⟩
      · exact .inr (.inl ⟨ho, rfl, hw⟩)
    · obtain ⟨-, hsteps, ho | ⟨ho, hw⟩⟩ := runs_resumeFrom_anchored (R := c.rights k False) hchain hphase hfollows
        (hv.trans hledger) hfrom
      · rw [hv, hledger] at hsteps
        exact .inl ⟨ho, (Near.anchored hphase hfollows hmade).steps hchain hsteps⟩
      · exact .inr (.inr ⟨ho, hw⟩)

theorem Near.recover_pending {anchor : AuthorityAnchor} (hchain : Chain k rows s)
    (hphase : row.phase = .prepared) (hfollows : Follows k s row) (hmade : c.Makes k s row)
    (hanchor : anchor = (s.anchor .committed) ∨
      anchor = (row.anchor .anchored))
    (hledger : w.ledger = ⟨some s, rows ++ [row], some anchor⟩) (hnear : Near k c rows s w.ledger)
    (h : Runs (recoverExtensionControlAuthority k s.catalogDigest registry stamp) w r w') :
    Near k c rows s w'.ledger ∧ (r = .error interrupted ∨ RecoveredTo k r w'.ledger) := by
  obtain ⟨hs, -, ha⟩ := World.ledger_eq hledger
  obtain ⟨v, hv, ⟨rfl, rfl⟩ | hfrom⟩ := runs_recover_found hs ha h
  · exact ⟨hv ▸ hnear, .inl rfl⟩
  have hvL := hv.trans hledger
  rw [recoverFrom, resumeRecoverable, hchain.recoverable_pending hfollows.revision (World.ledger_eq hvL).2.1] at hfrom
  refine after_bind hfrom (fun e t hresume => ?_) fun resumed t hresume h => ?_
  · obtain ⟨ho, hnear'⟩ | ⟨ho, -⟩ | ⟨ho, -⟩ := Near.resume hchain hphase hfollows hmade hanchor hvL hresume <;> cases ho
    exact ⟨hnear', .inl rfl⟩
  · obtain ⟨ho, -⟩ | ⟨ho, hanchor', hend⟩ | ⟨ho, hend⟩ :=
      Near.resume hchain hphase hfollows hmade hanchor hvL hresume <;>
      cases ho
    · rw [hanchor'] at h
      obtain ⟨hw, hr⟩ | ⟨hw, hr⟩ := runs_recoverUnresumed_chain hchain hend h
      · exact ⟨by rw [hw, hend]; exact .old, .inl hr⟩
      · exact ⟨by rw [hw]; exact .old, hr.imp_right fun hok => ⟨rows, s, hchain, hw, hok⟩⟩
    · obtain ⟨rfl, rfl⟩ := runs_pure h
      rw [hend]
      exact ⟨.new stamp hfollows hmade .committed, .inr ⟨_, _, hchain.commit hfollows stamp, rfl, rfl⟩⟩

/-- **Recovery near a snapshot** stays near, and ends at the old snapshot or at the new one. -/
theorem Near.recover (hchain : Chain k rows s) (hnear : Near k c rows s w.ledger)
    (h : Runs (recoverExtensionControlAuthority k s.catalogDigest registry stamp) w r w') :
    Near k c rows s w'.ledger ∧ (r = .error interrupted ∨ RecoveredTo k r w'.ledger) := by
  generalize hL : w.ledger = L at hnear
  cases hnear with
  | old =>
    obtain ⟨hw, hr⟩ | ⟨hw, hr⟩ := runs_recover_chain hchain hL h
    · exact ⟨by rw [hw, hL]; exact .old, .inl hr⟩
    · exact ⟨by rw [hw]; exact .old, hr.imp_right fun hok => ⟨rows, s, hchain, hw, hok⟩⟩
  | prepared phase follows made =>
    exact recover_pending hchain phase follows made (.inl rfl) hL (hL ▸ .prepared phase follows made) h
  | anchored phase follows made =>
    exact recover_pending hchain phase follows made (.inr rfl) hL (hL ▸ .anchored phase follows made) h
  | @new row at_ follows made phase =>
    have hcatalog : (row.toSnapshot s.snapshot.digest).catalogDigest = s.catalogDigest := by
      obtain ⟨-, hcatalog, stamp, hrow⟩ := made
      rw [hcatalog, hrow]
      rfl
    have hchain' := hchain.commit follows at_
    rw [← hcatalog] at h
    obtain ⟨hw, hr⟩ | ⟨hw, hr⟩ := runs_recover_chain hchain' hL h
    · exact ⟨by rw [hw, hL]; exact .new at_ follows made phase, .inl hr⟩
    · exact ⟨by rw [hw]; exact .new at_ follows made .committed, hr.imp_right fun hok => ⟨_, _, hchain', hw, hok⟩⟩

end Recover

/-! ## A database that the anchor does not name -/

/-- The anchor does not name the stored snapshot: an earlier copy of the database, for one. -/
def Stale (s : SnapshotRow) (anchor : Option AuthorityAnchor) : Prop :=
  ∀ a, anchor = some a → ¬ (a.revision = s.revision ∧ a.snapshotDigest = s.snapshot.digest)

section Stale

variable {s : SnapshotRow} {w w' : World}

theorem Stale.not_protects (h : Stale s w.anchor) (hs : w.db.snapshot = some s) (t : SnapshotRow) :
    ¬ Protects k catalogDigest w t := by
  intro hprotects
  cases hs.symm.trans hprotects.snapshot
  exact h _ hprotects.anchor ⟨rfl, rfl⟩

theorem runs_finish_revision {r : Except String (Option ExtensionControlAuthorityView)}
    (h : Runs (finishTransition k row) w r w') :
    ∀ x, r = .ok x → ∃ v, x = some v ∧ v.health = .isProtected ∧ v.revision = row.revision := by
  unfold finishTransition at h
  refine after_write h nofun nofun fun h => ?_
  refine after_write h nofun nofun fun h => ?_
  refine after_read h nofun fun v _ _ h => ?_
  refine after_refuse h (fun _ => nofun) fun hgood h => ?_
  obtain ⟨rfl, rfl⟩ := runs_pure h
  push Not at hgood
  intro x hx
  cases hx
  exact ⟨v, rfl, hgood⟩

theorem runs_complete_revision {at_ : String} {r : Except String (Option ExtensionControlAuthorityView)}
    (h : Runs (completeTransition k s row at_) w r w') :
    ∀ x, r = .ok x → ∃ v, x = some v ∧ v.health = .isProtected ∧ v.revision = row.revision := by
  unfold completeTransition at h
  split at h
  · exact after_write h nofun nofun runs_finish_revision
  · split at h
    · exact after_write h nofun nofun runs_finish_revision
    · exact runs_finish_revision h

/-- What is resumed over a stale snapshot is completed, and not taken back. -/
theorem Stale.runs_resume {current : ExtensionControlAuthorityView} {q : ResumeRequest}
    {at_ : String} {r : Except String (Option ExtensionControlAuthorityView)}
    (hstale : Stale s w.anchor) (hs : w.db.snapshot = some s) (hcurrent : current.health ≠ .isProtected)
    (h : Runs (resumeIdempotentTransition k row current q at_) w r w') :
    ∀ x, r = .ok x → ∃ v, x = some v ∧ v.health = .isProtected ∧ v.revision = row.revision := by
  obtain ⟨v, -, -, ⟨e, rfl, -⟩ | ⟨-, hfrom⟩⟩ := ControlAuthority.runs_resume hs h
  · simp
  unfold resumeFrom at hfrom
  refine after_lift hfrom (fun _ _ => by simp) fun d hprevious h => ?_
  refine after_lift h (fun _ _ => by simp) fun _ _ h => ?_
  split at h
  · rw [(Faulty.runs_fail h).1]
    simp
  rename_i a ha
  split at h
  · rename_i hback
    obtain ⟨hrevision, heq, -⟩ := hback
    rw [previousDigestOf, if_pos hrevision] at hprevious
    cases hprevious
    exact absurd (by rw [heq]; exact ⟨hrevision.symm, rfl⟩) (hstale a ha)
  · split at h
    · exact runs_complete_revision h
    · rw [if_neg fun hc => hcurrent hc.1] at h
      rw [(Faulty.runs_fail h).1]
      simp

/-- **No read reports a stale snapshot as protected.** -/
theorem Stale.read {registry : Option Registry} {stamp : String}
    {r : Except String ExtensionControlAuthorityView} (hstale : Stale s w.anchor) (hs : w.db.snapshot = some s)
    (h : Runs (readWithRegistry k catalogDigest registry stamp) w r w') :
    ∀ v, r = .ok v → v.health = .isProtected → v.revision ≠ s.revision := by
  intro v hv hhealth
  have hplain : ∀ {catalog}, Runs (readExtensionControlAuthority k catalog) w r w' → v.revision ≠ s.revision := by
    intro catalog hread
    obtain ⟨-, hr | ⟨v', hr, hone, -⟩⟩ := runs_read hread
    · rw [hr] at hv
      cases hv
    · rw [hr] at hv
      cases hv
      obtain ⟨t, hprotects, -⟩ := hone hhealth
      exact absurd hprotects (hstale.not_protects hs t)
  unfold readWithRegistry at h
  replace h := Faulty.runs_get_bind h
  split at h
  · rename_i row _ registry hrow _
    cases hs.symm.trans hrow
    split at h
    · obtain ⟨hother, -⟩ | ⟨e, t, -, -, hpure⟩ := Faulty.runs_rescue h
      · rw [hv] at hother
        obtain ⟨resumed, t, hresume, hrest⟩ := Faulty.runs_bind_ok hother
        unfold resumeMigration at hresume
        have hmigrate : t = w → resumed = none → v.revision ≠ s.revision := by
          intro ht hnone
          rw [ht, hnone] at hrest
          obtain ⟨previous, u, hread, hrefuse⟩ := Faulty.runs_bind_ok hrest
          obtain ⟨-, hbad | ⟨_, heq, hone, -⟩⟩ := runs_read hread
          · cases hbad
          cases heq
          obtain ⟨-, hr, -⟩ | ⟨hprotected, -⟩ := Faulty.runs_refuse_bind hrefuse
          · cases hr
          obtain ⟨u, hprotects, -⟩ := hone (not_not.1 hprotected)
          exact absurd hprotects (hstale.not_protects hs u)
        split at hresume
        · obtain ⟨hr, ht⟩ := Faulty.runs_pure hresume
          cases hr
          exact hmigrate ht rfl
        · rename_i pending hpending
          split at hresume
          · obtain ⟨view, rfl, hprotected, hrevision⟩ := hstale.runs_resume hs (by simp) hresume _ rfl
            have hnext : pending.revision = s.revision + 1 := by simpa using List.find?_some hpending
            simp only [Option.filter, hprotected, decide_true, if_true] at hrest
            cases (Faulty.runs_pure hrest).1
            omega
          · obtain ⟨hr, ht⟩ := Faulty.runs_pure hresume
            cases hr
            exact hmigrate ht rfl
      · rw [(Faulty.runs_pure hpure).1] at hv
        cases hv
        cases hhealth
    · exact hplain h
  · exact hplain h

end Stale

/-! ## Histories -/

/-- One operation on the authority, however it ends, or any change that leaves the ledger alone. -/
inductive Operation (k : Keys) : World → World → Prop
  | enroll {w w' : World} (catalogDigest stamp : String) (r : Except String ExtensionControlAuthorityView)
      (runs : Runs (enrollExtensionControlAuthority k catalogDigest stamp) w r w') : Operation k w w'
  | commit {w w' : World} (c : CommitCall) (clock : Clock) (r : Except String ExtensionControlAuthorityView)
      (runs : Runs (commitExtensionControlLayers k c clock) w r w') : Operation k w w'
  | read {w w' : World} (catalogDigest : String) (registry : Option Registry) (stamp : String)
      (r : Except String ExtensionControlAuthorityView)
      (runs : Runs (readWithRegistry k catalogDigest registry stamp) w r w') : Operation k w w'
  | recover {w w' : World} (catalogDigest : String) (registry : Option Registry) (stamp : String)
      (r : Except String ExtensionControlAuthorityView)
      (runs : Runs (recoverExtensionControlAuthority k catalogDigest registry stamp) w r w') : Operation k w w'
  | other {w w' : World} (ledger : w'.ledger = w.ledger) : Operation k w w'

/-- The operations have led here from a store with no authority. -/
def Reached (k : Keys) (w : World) : Prop :=
  ∃ w₀ : World, w₀.ledger = ⟨none, [], none⟩ ∧ Relation.ReflTransGen (Operation k) w₀ w

theorem Operation.phase {w w' : World} (h : Operation k w w') (hphase : Phase k w.ledger) : Phase k w'.ledger := by
  cases h with
  | enroll catalogDigest stamp r runs => exact (reports_enroll (R := Rights.all) hphase runs).steps.phase hphase
  | commit c clock r runs => exact (runs_commit hphase runs).steps.phase hphase
  | read catalogDigest registry stamp r runs =>
    exact (reports_readWithRegistry (R := Rights.all) (fun _ _ => trivial) (fun _ _ => trivial) hphase runs).steps.phase
      hphase
  | recover catalogDigest registry stamp r runs =>
    obtain ⟨catalog, hreport⟩ := reports_recover hphase runs
    exact hreport.steps.phase hphase
  | other ledger => exact ledger ▸ hphase

theorem Reached.phase {w : World} (h : Reached k w) : Phase k w.ledger := by
  obtain ⟨w₀, hledger, hrun⟩ := h
  induction hrun with
  | refl =>
    rw [hledger]
    exact .vacant none
  | tail _ step ih => exact step.phase ih

/-- What may follow the call: the same call again, recoveries of the catalog, and whatever leaves the ledger alone. -/
inductive Afterwards (k : Keys) (c : CommitCall) (catalogDigest : String) : World → World → Prop
  | again {w w' : World} (clock : Clock) (r : Except String ExtensionControlAuthorityView)
      (runs : Runs (commitExtensionControlLayers k c clock) w r w') : Afterwards k c catalogDigest w w'
  | recover {w w' : World} (registry : Option Registry) (stamp : String)
      (r : Except String ExtensionControlAuthorityView)
      (runs : Runs (recoverExtensionControlAuthority k catalogDigest registry stamp) w r w') :
      Afterwards k c catalogDigest w w'
  | other {w w' : World} (ledger : w'.ledger = w.ledger) : Afterwards k c catalogDigest w w'

theorem Afterwards.operation {w w' : World} (h : Afterwards k c catalogDigest w w') :
    Operation k w w' := by
  cases h with
  | again clock r runs => exact .commit c clock r runs
  | recover registry stamp r runs => exact .recover catalogDigest registry stamp r runs
  | other ledger => exact .other ledger

theorem Near.afterwards {w w' : World} (hchain : Chain k rows s) (hphase : Phase k w.ledger)
    (hnear : Near k c rows s w.ledger) (h : Relation.ReflTransGen (Afterwards k c s.catalogDigest) w w') :
    Phase k w'.ledger ∧ Near k c rows s w'.ledger := by
  induction h with
  | refl => exact ⟨hphase, hnear⟩
  | tail _ event ih =>
    obtain ⟨hphase, hnear⟩ := ih
    refine ⟨event.operation.phase hphase, ?_⟩
    cases event with
    | again clock r runs => exact hnear.steps hchain (runs_commit hphase runs).steps
    | recover registry stamp r runs => exact (hnear.recover hchain runs).1
    | other ledger => exact ledger ▸ hnear

/-- A settled ledger near `s` is at the old snapshot, or at the call's new one. -/
theorem Near.settled {rows' : List TransitionRow} {t : SnapshotRow} {L : Ledger}
    (hnear : Near k c rows s L) (hchain : Chain k rows' t) (hL : L = ⟨some t, rows', some (t.anchor .committed)⟩) :
    protectedView t = protectedView s ∨
      protectedView t = { protectedView s with revision := s.revision + 1, layers := c.layers } := by
  cases hnear with
  | old =>
    cases hL
    exact .inl rfl
  | prepared phase =>
    cases hL
    exact absurd phase (not_chain_prepared hchain)
  | anchored => simp at hL
  | new at_ follows made p =>
    simp only [Ledger.mk.injEq, Option.some.injEq] at hL
    obtain ⟨-, hcatalog, stamp, hrow⟩ := made
    right
    rw [← hL.1, hrow]
    simp [protectedView, TransitionRow.toSnapshot, NewTransition.row, CommitCall.transition, hcatalog]

/-- **A commit is done or not done**: once the authority is protected and a commit is called, and whatever stops the
call, recoveries and repetitions of it, a recovery of the authority's catalog that completes reports the old layers or
the new ones with a valid chain, and one that nothing interrupts completes.  A database that the anchor does not name is
never reported as protected at its own revision. -/
theorem commits_crash_atomic (k : Keys) :
    (∀ (catalogDigest : String) (c : CommitCall) (clock : Clock) (old : ExtensionControlAuthorityView)
      (r₁ : Except String ExtensionControlAuthorityView) (w₀ w₁ w₂ : World), Reached k w₀ →
      Runs (readExtensionControlAuthority k catalogDigest) w₀ (.ok old) w₀ → old.health = .isProtected →
      Runs (commitExtensionControlLayers k c clock) w₀ r₁ w₁ →
      Relation.ReflTransGen (Afterwards k c catalogDigest) w₁ w₂ →
      ∀ (registry : Option Registry) (stamp : String),
        (∃ v, (recoverExtensionControlAuthority k catalogDigest registry stamp w₂ []).1 = .ok v) ∧
        ∀ r w₃, Runs (recoverExtensionControlAuthority k catalogDigest registry stamp) w₂ r w₃ →
          r = .error interrupted ∨ ∃ v t, r = .ok v ∧
            (v = old ∨ v = { old with revision := old.revision + 1, layers := c.layers }) ∧
            w₃.db.snapshot = some t ∧ v = protectedView t ∧
            validateTransitionChain k w₃.db.transitions t.revision t.snapshot.digest = .ok ()) ∧
    ∀ (w w' : World) (s : SnapshotRow) (catalogDigest : String) (registry : Option Registry) (stamp : String)
      (v : ExtensionControlAuthorityView), w.db.snapshot = some s → Stale s w.anchor →
      Runs (readWithRegistry k catalogDigest registry stamp) w (.ok v) w' → v.health = .isProtected →
      v.revision ≠ s.revision := by
  refine ⟨?_, fun w w' s catalogDigest registry stamp v hs hstale h => hstale.read hs h v rfl⟩
  intro catalogDigest c clock old r₁ w₀ w₁ w₂ hreached hread hhealth hcall hafter registry stamp
  have hphase₀ := hreached.phase
  obtain ⟨-, hbad | ⟨v, hv, hone, -⟩⟩ := runs_read hread
  · cases hbad
  cases hv
  obtain ⟨s, hprotects, hold⟩ := hone hhealth
  obtain ⟨rows, hchain, hledger⟩ := settled_of_protects hphase₀ hprotects
  have hcatalog := hprotects.catalog
  subst hcatalog
  have hnear₀ : Near k c rows s w₀.ledger := hledger ▸ .old
  have hsteps := (runs_commit hphase₀ hcall).steps
  obtain ⟨-, hnear⟩ := Near.afterwards hchain (hsteps.phase hphase₀) (hnear₀.steps hchain hsteps) hafter
  have hruns : ∀ r w₃, Runs (recoverExtensionControlAuthority k s.catalogDigest registry stamp) w₂ r w₃ →
      r = .error interrupted ∨ ∃ v t, r = .ok v ∧
        (v = old ∨ v = { old with revision := old.revision + 1, layers := c.layers }) ∧
        w₃.db.snapshot = some t ∧ v = protectedView t ∧
        validateTransitionChain k w₃.db.transitions t.revision t.snapshot.digest = .ok () := by
    intro r w₃ hrecover
    obtain ⟨hnear₃, hr | ⟨rows', t, hchain', hledger', hr⟩⟩ := hnear.recover hchain hrecover
    · exact .inl hr
    · obtain ⟨hs, hrows, -⟩ := World.ledger_eq hledger'
      refine .inr ⟨protectedView t, t, hr, ?_, hs, rfl, by rw [hrows]; exact hchain'.validate_ok⟩
      rw [hold]
      exact hnear₃.settled hchain' hledger'
  refine ⟨?_, hruns⟩
  obtain hr | ⟨v, t, hr, -⟩ := hruns _ _ ⟨[], rfl, rfl⟩
  · exact absurd hr (quiet_recover s.catalogDigest registry stamp w₂).1
  · exact ⟨v, hr⟩

/-! ## A recovery under another catalog -/

def sampleStopped : World :=
  (commitExtensionControlLayers sampleKeys sampleApproved sampleClock sampleCommitted [.lost]).2.1

def otherCatalog : String := String.ofList (List.replicate 64 'b')

theorem reached_sampleIssued : Reached sampleKeys sampleIssued := by
  refine ⟨⟨Database.empty, none, 0, ⟨"/home", false, false, 0⟩, Lib.KeyMap.empty, []⟩, rfl, ?_⟩
  have henroll : Operation sampleKeys _ sampleEnrolled := .enroll sampleCatalog sampleClock.stamp _ ⟨[], rfl, rfl⟩
  exact (Relation.ReflTransGen.single henroll).tail (.other rfl)

theorem reached_sampleCommitted : Reached sampleKeys sampleCommitted := by
  obtain ⟨w₀, hledger, hrun⟩ := reached_sampleIssued
  exact ⟨w₀, hledger, hrun.tail (.commit sampleApproved sampleClock _ ⟨[], rfl, rfl⟩)⟩

/-- **A recovery that names another catalog resets the authority**: the lockdown of revision 1 is gone. -/
theorem other_catalog_recovery_resets : Reached sampleKeys sampleCommitted ∧
    (readExtensionControlAuthority sampleKeys sampleCatalog sampleCommitted []).1 =
      .ok ⟨.isProtected, 1, sampleCatalog, sampleApproved.layers, 0⟩ ∧
    Runs (commitExtensionControlLayers sampleKeys sampleApproved sampleClock) sampleCommitted (.error interrupted)
      sampleStopped ∧
    (recoverExtensionControlAuthority sampleKeys otherCatalog none sampleClock.stamp sampleStopped []).1 =
      .ok ⟨.isProtected, 0, otherCatalog, [], 0⟩ :=
  ⟨reached_sampleCommitted, by decide +kernel, ⟨[.lost], by decide +kernel, rfl⟩, by decide +kernel⟩

def sampleAnchored : World :=
  (commitExtensionControlLayers sampleKeys sampleApproved sampleClock sampleIssued [.done, .done, .unreported]).2.1

theorem stopped_commit_recovered :
    (commitExtensionControlLayers sampleKeys sampleApproved sampleClock sampleIssued [.done, .done, .unreported]).1 =
      .error interrupted ∧
    ∃ v, (recoverExtensionControlAuthority sampleKeys sampleCatalog none sampleClock.stamp sampleAnchored []).1 =
      .ok v ∧
      (v = ⟨.isProtected, 0, sampleCatalog, [], 0⟩ ∨
        v = ⟨.isProtected, 1, sampleCatalog, sampleApproved.layers, 0⟩) := by
  have hread : Runs (readExtensionControlAuthority sampleKeys sampleCatalog) sampleIssued
      (.ok ⟨.isProtected, 0, sampleCatalog, [], 0⟩) _ := ⟨[], by decide +kernel, rfl⟩
  rw [(runs_read hread).1] at hread
  obtain ⟨⟨v, hv⟩, hresult⟩ := (commits_crash_atomic sampleKeys).1 sampleCatalog sampleApproved sampleClock _ _ _ _ _
    reached_sampleIssued hread rfl ⟨[.done, .done, .unreported], rfl, rfl⟩ .refl none sampleClock.stamp
  refine ⟨by decide +kernel, v, hv, ?_⟩
  obtain hr | ⟨v', t, hr, hold, -⟩ := hresult _ _ ⟨[], hv, rfl⟩
  · cases hr
  · cases hr
    exact hold

end ControlAuthority
end Guard
