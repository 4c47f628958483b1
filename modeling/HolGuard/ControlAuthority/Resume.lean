import HolGuard.ControlAuthority.Ledger
/-!
# Resuming an interrupted transition

What `_resume_idempotent_transition` does in each phase of the ledger: it takes a prepared transition back, completes an
anchored one, and otherwise changes nothing but the phase of the anchor.
-/
namespace Guard
namespace ControlAuthority

open Lib (Faulty)
open Lib.Faulty (Runs after_bind after_fail after_lift after_pure after_refuse after_write runs_pure)

variable {k : Keys} {R : Rights}

/-- Everything but the ledger, the fence, the proofs and the archive is as it was. -/
structure Keeps (w w' : World) : Prop where
  manifests : w'.db.manifests = w.db.manifests
  managed : w'.db.managed = w.db.managed
  gate : w'.gate = w.gate
  grants : w'.grants = w.grants
  consumptions : w'.consumptions = w.consumptions

/-- The proofs too are as they were. -/
structure KeepsProofs (w w' : World) : Prop extends Keeps w w' where
  proofs : w'.db.proofs = w.db.proofs

namespace KeepsProofs

variable {w v u : World}

theorem rfl' (w : World) : KeepsProofs w w := ⟨⟨rfl, rfl, rfl, rfl, rfl⟩, rfl⟩

theorem trans (h : KeepsProofs w v) (g : KeepsProofs v u) : KeepsProofs w u :=
  ⟨⟨g.manifests.trans h.manifests, g.managed.trans h.managed, g.gate.trans h.gate, g.grants.trans h.grants,
    g.consumptions.trans h.consumptions⟩, g.proofs.trans h.proofs⟩

end KeepsProofs

variable {w : World}

theorem Keeps.trans {v u : World} (h : Keeps w v) (g : Keeps v u) : Keeps w u :=
  ⟨g.manifests.trans h.manifests, g.managed.trans h.managed, g.gate.trans h.gate, g.grants.trans h.grants,
    g.consumptions.trans h.consumptions⟩

/-! ## Rules for the writes -/

variable {w' : World}

theorem runs_invalidate_bind {β : Type} {f : Unit → Op β} {r : Except String β}
    (h : Runs (invalidateNativeExtensionControlPolicy >>= f) w r w') :
    ∃ v, v.ledger = w.ledger ∧ KeepsProofs w v ∧ ((r = .error interrupted ∧ w' = v) ∨ Runs (f ()) v r w') := by
  have hkeep : KeepsProofs w w.raiseFence := ⟨⟨rfl, rfl, rfl, rfl, rfl⟩, rfl⟩
  exact after_write h ⟨w, rfl, .rfl' w, .inl ⟨rfl, rfl⟩⟩ ⟨w.raiseFence, rfl, hkeep, .inl ⟨rfl, rfl⟩⟩ fun h =>
    ⟨w.raiseFence, rfl, hkeep, .inr h⟩

@[elab_as_elim]
theorem after_read {β : Type} {catalogDigest : String} {f : ExtensionControlAuthorityView → Op β} {r : Except String β}
    {P : Except String β → World → Prop} (h : Runs (readExtensionControlAuthority k catalogDigest >>= f) w r w')
    (stop : P (.error interrupted) w) (go : ∀ v, (v.health = .isProtected → ∃ s, Protects k catalogDigest w s ∧
      v = protectedView s) → (∀ s, Protects k catalogDigest w s → v = protectedView s) → Runs (f v) w r w' → P r w') :
    P r w' := by
  refine after_bind h (fun e t hread => ?_) fun v t hread hrest => ?_
  · obtain ⟨rfl, he | ⟨v, hv, -⟩⟩ := runs_read hread
    · cases he
      exact stop
    · cases hv
  · obtain ⟨rfl, he | ⟨v', hv, hone, hall⟩⟩ := runs_read hread
    · cases he
    · cases hv
      exact go v hone hall hrest

/-! ## Completing a transition -/

variable {rows : List TransitionRow} {s : SnapshotRow}

theorem protects_of_settled (hchain : Chain k rows s)
    (hledger : w.ledger = ⟨some s, rows, some (s.anchor .committed)⟩) :
    Protects k s.catalogDigest w s := by
  obtain ⟨hs, hrows, ha⟩ := World.ledger_eq hledger
  exact ⟨hs, rfl, ha, inspectSnapshot_settled hchain hrows⟩

variable {row : TransitionRow}

theorem map_setCommitted (hchain : Chain k rows s) (hrow : row.revision = s.revision + 1) (at_ : String) :
    (rows ++ [row]).map (setCommitted row.revision at_) = rows ++ [row.commit at_] := by
  have hrows : rows.map (setCommitted row.revision at_) = rows := by
    refine (List.map_congr_left fun other hother => ?_).trans (List.map_id rows)
    have := hchain.revision_le hother
    rw [setCommitted, if_neg (by omega), id]
  rw [List.map_append, hrows]
  simp [setCommitted, TransitionRow.commit]

variable {r : Except String (Option ExtensionControlAuthorityView)}

theorem runs_finish {phase : AuthorityPhase} (hchain : Chain k rows s)
    (hledger : w.ledger = ⟨some s, rows, some (s.anchor phase)⟩)
    (hrevision : s.revision = row.revision) (hdigest : s.snapshot.digest = row.snapshot.digest)
    (hcatalog : s.catalogDigest = row.catalogDigest) (h : Runs (finishTransition k row) w r w') :
    KeepsProofs w w' ∧ Steps k R w.ledger w'.ledger ∧ (r = .error interrupted ∨
      r = .ok (some (protectedView s)) ∧
        w'.ledger = ⟨some s, rows, some (s.anchor .committed)⟩) := by
  obtain ⟨hs, hrows, -⟩ := World.ledger_eq hledger
  unfold finishTransition at h
  rw [← hrevision, ← hdigest, ← hcatalog] at h
  have hset : (w.setAnchor (s.anchor .committed)).ledger =
      ⟨some s, rows, some (s.anchor .committed)⟩ := by
    simp [World.ledger, hs, hrows]
  have hkeep : KeepsProofs w (w.setAnchor (s.anchor .committed)) :=
    ⟨⟨rfl, rfl, rfl, rfl, rfl⟩, rfl⟩
  have hstep : Steps k R w.ledger (w.setAnchor (s.anchor .committed)).ledger := by
    rw [hledger, hset]
    exact .single (.finish hchain)
  refine after_write h ⟨.rfl' w, .refl, .inl rfl⟩ ⟨hkeep, hstep, .inl rfl⟩ fun h => ?_
  refine after_write h ⟨hkeep, hstep, .inl rfl⟩ ⟨hkeep, hstep, .inl rfl⟩ fun h => ?_
  refine after_read h ⟨hkeep, hstep, .inl rfl⟩ fun v _ hview h => ?_
  obtain rfl := hview s (protects_of_settled hchain hset)
  refine after_refuse h (fun hbad => by simp [protectedView] at hbad) fun _ h => ?_
  exact after_pure h ⟨hkeep, hstep, .inr ⟨rfl, hset⟩⟩

/-- The view is the stored snapshot's, or the one that the caller read before. -/
def Answers (k : Keys) (row : TransitionRow) (current : ExtensionControlAuthorityView) (w : World)
    (v : ExtensionControlAuthorityView) : Prop :=
  (∃ s, Protects k row.catalogDigest w s ∧ v = protectedView s) ∨ v = current ∧ current.health = .isProtected

theorem runs_finish_idle (current : ExtensionControlAuthorityView) (hanchor : w.anchor = some (row.anchor .committed))
    (h : Runs (finishTransition k row) w r w') :
    w' = w ∧ ∀ x, r = .ok x → ∃ v, x = some v ∧ Answers k row current w' v := by
  have hsame : w.setAnchor (row.anchor .committed) = w := by
    cases w
    simp_all [World.setAnchor]
  unfold finishTransition at h
  refine after_write h ⟨rfl, nofun⟩ ⟨hsame, nofun⟩ fun h => ?_
  rw [hsame] at h
  refine after_write h ⟨rfl, nofun⟩ ⟨rfl, nofun⟩ fun h => ?_
  refine after_read h ⟨rfl, nofun⟩ fun v hview _ h => ?_
  refine after_refuse h (fun _ => ⟨rfl, nofun⟩) fun hgood h => ?_
  obtain ⟨rfl, rfl⟩ := runs_pure h
  push Not at hgood
  exact ⟨rfl, fun x hx => ⟨v, by cases hx; rfl, .inl (hview hgood.1)⟩⟩

variable {at_ : String}

theorem runs_complete_anchored (hchain : Chain k rows s) (hphase : row.phase = .prepared) (hfollows : Follows k s row)
    (hledger : w.ledger = ⟨some s, rows ++ [row], some (row.anchor .anchored)⟩)
    (h : Runs (completeTransition k s row at_) w r w') :
    KeepsProofs w w' ∧ Steps k R w.ledger w'.ledger ∧ (r = .error interrupted ∨
      r = .ok (some (protectedView (row.toSnapshot s.snapshot.digest))) ∧
        w'.ledger = ⟨some (row.toSnapshot s.snapshot.digest), rows ++ [row.commit at_],
          some (row.anchor .committed)⟩) := by
  obtain ⟨hs, hrows, ha⟩ := World.ledger_eq hledger
  rw [completeTransition, if_pos hfollows.previousRevision.symm] at h
  have hkeep : KeepsProofs w (w.updateDb (Database.commitPendingTransition row at_)) :=
    ⟨⟨rfl, rfl, rfl, rfl, rfl⟩, rfl⟩
  have hinstalled : (w.updateDb (Database.commitPendingTransition row at_)).ledger =
      ⟨some (row.toSnapshot s.snapshot.digest), rows ++ [row.commit at_],
        some (row.anchor .anchored)⟩ := by
    simp only [World.ledger, World.updateDb_db, World.updateDb_anchor, Database.commitPendingTransition, hs, hrows, ha,
      Option.map_some, hfollows.previousRevision, if_true, map_setCommitted hchain hfollows.revision]
  have hstep : Steps k R w.ledger (w.updateDb (Database.commitPendingTransition row at_)).ledger := by
    rw [hledger, hinstalled]
    exact .single (.install at_ hchain hphase hfollows)
  refine after_write h ⟨.rfl' w, .refl, .inl rfl⟩ ⟨hkeep, hstep, .inl rfl⟩ fun h => ?_
  obtain ⟨hkeep', hstep', hresult⟩ := runs_finish (R := R) (hchain.commit hfollows at_) hinstalled rfl rfl rfl h
  exact ⟨hkeep.trans hkeep', hstep.trans hstep', hresult⟩

/-! ## Resuming -/

/-- A row of a chain follows a snapshot, and the last one leads to the chain's. -/
theorem Chain.follows_of_mem (h : Chain k rows s) (hrow : row ∈ rows) :
    ∃ t : SnapshotRow, Follows k t row ∧ (s.revision = row.revision → s = row.toSnapshot t.snapshot.digest) := by
  induction h with
  | boot => cases hrow
  | @next rows s last chain committed follows ih =>
    rcases List.mem_append.1 hrow with hmem | hmem
    · obtain ⟨t, ht, -⟩ := ih hmem
      refine ⟨t, ht, fun heq => ?_⟩
      have hle := chain.revision_le hmem
      have hlast : last.revision = row.revision := heq
      have := follows.revision
      omega
    · rw [List.mem_singleton.1 hmem]
      exact ⟨s, follows, fun _ => rfl⟩

theorem Follows.checked (h : Follows k s row) :
    previousDigestOf s row = .ok s.snapshot.digest ∧ checkPending k row s.snapshot.digest = .ok () := by
  constructor
  · rw [previousDigestOf, if_pos h.previousRevision.symm]
  · simp only [checkPending, h.transition, h.snapshot, Authenticator.verify_authenticate, bind, Except.bind, ne_eq,
      TransitionRow.expectedTransition, TransitionRow.expectedSnapshot, not_true_eq_false, if_false]

variable {current : ExtensionControlAuthorityView}

theorem runs_resume {q : ResumeRequest} (hs : w.db.snapshot = some s)
    (h : Runs (resumeIdempotentTransition k row current q at_) w r w') :
    ∃ v, v.ledger = w.ledger ∧ KeepsProofs w v ∧ ((∃ e, r = .error e ∧ w' = v ∧
      (e = interrupted ∨ ¬ (q.Matches row ∧ validateSerializedLayers q.layers = .ok ()))) ∨
        q.Matches row ∧ Runs (resumeFrom k row current at_ s w.anchor) v r w') := by
  have hkeep : KeepsProofs w w.raiseFence := ⟨⟨rfl, rfl, rfl, rfl, rfl⟩, rfl⟩
  refine after_write h ⟨w, rfl, .rfl' w, .inl ⟨_, rfl, rfl, .inl rfl⟩⟩
    ⟨w.raiseFence, rfl, hkeep, .inl ⟨_, rfl, rfl, .inl rfl⟩⟩ fun h => ⟨w.raiseFence, rfl, hkeep, ?_⟩
  refine after_lift h (fun e hsize => .inl ⟨e, rfl, rfl, .inr fun hok => ?_⟩) fun _ _ h => ?_
  · rw [hok.2] at hsize
    cases hsize
  refine after_refuse h (fun hbad => .inl ⟨_, rfl, rfl, .inr fun hok => hbad hok.1⟩) fun hmatch h => ?_
  replace h := Faulty.runs_get_bind h
  simp only [World.raiseFence, hs] at h
  exact .inr ⟨not_not.1 hmatch, h⟩

theorem runs_resumeFrom_prepared (hchain : Chain k rows s) (hphase : row.phase = .prepared) (hfollows : Follows k s row)
    (hledger : w.ledger = ⟨some s, rows ++ [row], some (s.anchor .committed)⟩)
    (h : Runs (resumeFrom k row current at_ s (some (s.anchor .committed))) w r w') :
    KeepsProofs w w' ∧ Steps k R w.ledger w'.ledger ∧ (r = .error interrupted ∨
      r = .ok none ∧ w'.ledger = ⟨some s, rows, some (s.anchor .committed)⟩) := by
  obtain ⟨hs, hrows, ha⟩ := World.ledger_eq hledger
  obtain ⟨hprevious, hcheck⟩ := hfollows.checked
  unfold resumeFrom at h
  replace h := Faulty.runs_lift_bind_of_ok hcheck (Faulty.runs_lift_bind_of_ok hprevious h)
  simp only at h
  rw [if_pos ⟨hfollows.previousRevision.symm, by rw [hfollows.previousRevision], hphase⟩] at h
  have hrest : rows.filter (fun other => decide (other.revision ≠ row.revision)) = rows := by
    refine List.filter_eq_self.2 fun other hother => ?_
    have := hchain.revision_le hother
    have := hfollows.revision
    exact decide_eq_true (by omega)
  have hwithdrawn : (w.updateDb (Database.deleteTransition row.revision)).ledger =
      ⟨some s, rows, some (s.anchor .committed)⟩ := by
    simp only [World.ledger, World.updateDb_db, World.updateDb_anchor, Database.deleteTransition, hs, hrows, ha,
      List.filter_append, hrest]
    simp
  have hkeep : KeepsProofs w (w.updateDb (Database.deleteTransition row.revision)) :=
    ⟨⟨rfl, rfl, rfl, rfl, rfl⟩, rfl⟩
  have hstep : Steps k R w.ledger (w.updateDb (Database.deleteTransition row.revision)).ledger := by
    rw [hledger, hwithdrawn]
    exact .single (.withdraw hchain hphase hfollows)
  refine after_write h ⟨.rfl' w, .refl, .inl rfl⟩ ⟨hkeep, hstep, .inl rfl⟩ fun h => ?_
  exact after_pure h ⟨hkeep, hstep, .inr ⟨rfl, hwithdrawn⟩⟩

theorem runs_resumeFrom_anchored (hchain : Chain k rows s) (hphase : row.phase = .prepared) (hfollows : Follows k s row)
    (hledger : w.ledger = ⟨some s, rows ++ [row], some (row.anchor .anchored)⟩)
    (h : Runs (resumeFrom k row current at_ s (some (row.anchor .anchored))) w r w') :
    KeepsProofs w w' ∧ Steps k R w.ledger w'.ledger ∧ (r = .error interrupted ∨
      r = .ok (some (protectedView (row.toSnapshot s.snapshot.digest))) ∧
        w'.ledger = ⟨some (row.toSnapshot s.snapshot.digest), rows ++ [row.commit at_],
          some (row.anchor .committed)⟩) := by
  obtain ⟨hprevious, hcheck⟩ := hfollows.checked
  unfold resumeFrom at h
  replace h := Faulty.runs_lift_bind_of_ok hcheck (Faulty.runs_lift_bind_of_ok hprevious h)
  simp only at h
  rw [if_neg (by simp), if_pos (by simp)] at h
  exact runs_complete_anchored hchain hphase hfollows hledger h

/-- A transition that is committed already: nothing changes but the phase of the anchor, and only if it names the
transition. -/
theorem runs_resumeFrom_committed {anchor : Option AuthorityAnchor} (hchain : Chain k rows s)
    (hmem : row ∈ rows) (hsnapshot : w.db.snapshot = some s) (hanchor : w.anchor = anchor)
    (hrows : w.db.transitions = rows ∨ anchor = some (s.anchor .committed) ∨
      ∀ a, anchor = some a → a.revision ≠ s.revision)
    (h : Runs (resumeFrom k row current at_ s anchor) w r w') :
    KeepsProofs w w' ∧ Steps k R w.ledger w'.ledger ∧
      (∀ x, r = .ok x → ∃ v, x = some v ∧ Answers k row current w' v) := by
  obtain ⟨t, hfollows, hlast⟩ := hchain.follows_of_mem hmem
  have hne : s.revision ≠ row.previousRevision := by
    have := hchain.revision_le hmem
    have := hfollows.revision
    have := hfollows.previousRevision
    omega
  unfold resumeFrom at h
  refine after_lift h (fun _ _ => ⟨.rfl' w, .refl, by simp⟩) fun previousDigest hprevious h => ?_
  refine after_lift h (fun _ _ => ⟨.rfl' w, .refl, by simp⟩) fun _ _ h => ?_
  have hrevision : s.revision = row.revision := by
    rw [previousDigestOf, if_neg hne] at hprevious
    by_cases heq : s.revision = row.revision
    · exact heq
    · rw [if_neg heq] at hprevious
      cases hprevious
  have hs : s = row.toSnapshot t.snapshot.digest := hlast hrevision
  cases anchor with
  | none =>
    exact after_fail h ⟨.rfl' _, .refl, by simp⟩
  | some a =>
    simp only at h
    rw [if_neg fun hc => hne hc.1] at h
    split at h
    · rename_i hnames
      rw [completeTransition, if_neg hne, if_neg (by simp [hchain.all_committed row hmem])] at h
      have ha : a = (s.anchor a.phase) := by
        cases a
        simp_all [TransitionRow.toSnapshot]
      rcases hrows with hrows | hidle | hother
      · have hledger : w.ledger = ⟨some s, rows, some (s.anchor a.phase)⟩ := by
          rw [World.ledger, hsnapshot, hrows, hanchor, ← ha]
        have hcatalog : s.catalogDigest = row.catalogDigest := by rw [hs]; rfl
        obtain ⟨hkeep, hsteps, rfl | ⟨rfl, hend⟩⟩ := runs_finish (R := R) hchain hledger hrevision (by rw [hs]; rfl)
          hcatalog h
        · exact ⟨hkeep, hsteps, by simp⟩
        · refine ⟨hkeep, hsteps, fun x hx => ?_⟩
          cases hx
          exact ⟨_, rfl, .inl ⟨s, hcatalog ▸ protects_of_settled hchain hend, rfl⟩⟩
      · have hnamed : w.anchor = some (row.anchor .committed) := by
          rw [hanchor, hidle, hs]
          rfl
        obtain ⟨rfl, hresult⟩ := runs_finish_idle current hnamed h
        exact ⟨.rfl' _, .refl, hresult⟩
      · exact absurd (hnames.1.trans hrevision.symm) (hother a rfl)
    · split at h
      · rename_i hcurrent
        refine after_write h ⟨.rfl' w, .refl, by simp⟩ ⟨.rfl' w, .refl, by simp⟩ fun h => ?_
        exact after_pure h ⟨.rfl' _, .refl, fun x hx => ⟨current, by cases hx; rfl, .inr ⟨rfl, hcurrent.1⟩⟩⟩
      · exact after_fail h ⟨.rfl' _, .refl, by simp⟩

/-- How resuming a transition can end. -/
structure Resumed (k : Keys) (R : Rights) (q : ResumeRequest) (row : TransitionRow)
    (current : ExtensionControlAuthorityView) (w : World) (r : Except String (Option ExtensionControlAuthorityView))
    (w' : World) : Prop where
  keeps : KeepsProofs w w'
  steps : Steps k R w.ledger w'.ledger
  withdrawn : r = .ok none → ∃ rows s, Chain k rows s ∧ row.phase = .prepared ∧ Follows k s row ∧ q.Matches row ∧
    w.ledger = ⟨some s, rows ++ [row], some ⟨s.revision, s.snapshot.digest, .committed⟩⟩ ∧
    w'.ledger = ⟨some s, rows, some ⟨s.revision, s.snapshot.digest, .committed⟩⟩
  completed : ∀ v, r = .ok (some v) → Answers k row current w' v ∧ q.Matches row

theorem Resumed.of_error {q : ResumeRequest} {e : String} (hr : r = .error e)
    (hkeep : KeepsProofs w w') (hsteps : Steps k R w.ledger w'.ledger) :
    Resumed k R q row current w r w' where
  keeps := hkeep
  steps := hsteps
  withdrawn hok := by
    rw [hr] at hok
    cases hok
  completed v hok := by
    rw [hr] at hok
    cases hok

theorem resumed_of_committed {q : ResumeRequest} {v : World} (hchain : Chain k rows s)
    (hmem : row ∈ rows) (hledger : v.ledger = w.ledger) (hkeep : KeepsProofs w v) (hs : w.db.snapshot = some s)
    (hrows : w.db.transitions = rows ∨ w.anchor = some (s.anchor .committed) ∨
      ∀ a, w.anchor = some a → a.revision ≠ s.revision) (hmatch : q.Matches row)
    (h : Runs (resumeFrom k row current at_ s w.anchor) v r w') :
    Resumed k R q row current w r w' := by
  obtain ⟨hvs, hvr, hva⟩ := World.ledger_eq hledger
  obtain ⟨hkeep', hsteps, hok⟩ := runs_resumeFrom_committed (R := R) hchain hmem (hvs.trans hs) hva
    (by rw [hvr]; exact hrows) h
  rw [hledger] at hsteps
  refine ⟨hkeep.trans hkeep', hsteps, fun hr => ?_, fun x hr => ?_⟩
  · obtain ⟨x, hx, -⟩ := hok _ hr
    cases hx
  · obtain ⟨y, hy, hhealth⟩ := hok _ hr
    cases hy
    exact ⟨hhealth, hmatch⟩

/-- Where a recorded transition stands: committed, or the last one and prepared. -/
theorem Phase.of_mem (hphase : Phase k w.ledger) (hmem : row ∈ w.db.transitions) :
    ∃ rows s, Chain k rows s ∧ w.db.snapshot = some s ∧ (row ∈ rows ∧ (w.db.transitions = rows ∨
      w.anchor = some (s.anchor .committed) ∨ ∀ a, w.anchor = some a → a.revision ≠ s.revision) ∨
      row.phase = .prepared ∧ Follows k s row ∧ (w.ledger = ⟨some s, rows ++ [row], some (s.anchor .committed)⟩ ∨
        w.ledger = ⟨some s, rows ++ [row], some (row.anchor .anchored)⟩)) := by
  generalize hL : w.ledger = L at hphase
  cases hphase <;> obtain ⟨hs, hrows, ha⟩ := World.ledger_eq hL <;> rw [hrows] at hmem ⊢
  case vacant | booted => cases hmem
  case settled chain | installed chain => exact ⟨_, _, chain, hs, .inl ⟨hmem, .inl rfl⟩⟩
  case prepared chain phase follows =>
    refine ⟨_, _, chain, hs, (List.mem_append.1 hmem).imp (fun hold => ⟨hold, .inr (.inl ha)⟩) fun hlast => ?_⟩
    obtain rfl := List.mem_singleton.1 hlast
    exact ⟨phase, follows, .inl rfl⟩
  case anchored chain phase follows =>
    refine ⟨_, _, chain, hs, (List.mem_append.1 hmem).imp (fun hold => ⟨hold, .inr (.inr fun a heq => ?_)⟩)
      fun hlast => ?_⟩
    · rw [ha] at heq
      cases heq
      exact follows.revision ▸ Nat.succ_ne_self _
    · obtain rfl := List.mem_singleton.1 hlast
      exact ⟨phase, follows, .inr rfl⟩

/-- **The rule for resuming**, in every phase. -/
theorem runs_resume_spec {q : ResumeRequest} (hphase : Phase k w.ledger) (hmem : row ∈ w.db.transitions)
    (h : Runs (resumeIdempotentTransition k row current q at_) w r w') :
    Resumed k R q row current w r w' := by
  obtain ⟨rows, s, chain, hs, hcase⟩ := hphase.of_mem hmem
  obtain ⟨v, hledger, hkeep, ⟨e, rfl, rfl, -⟩ | ⟨hmatch, hrest⟩⟩ := runs_resume hs h
  · exact .of_error rfl hkeep (by rw [hledger])
  obtain ⟨hmem, hrows⟩ | ⟨phase, follows, hL | hL⟩ := hcase
  · exact resumed_of_committed chain hmem hledger hkeep hs hrows hmatch hrest
  · rw [(World.ledger_eq hL).2.2] at hrest
    obtain ⟨hkeep', hsteps, rfl | ⟨rfl, hend⟩⟩ :=
      runs_resumeFrom_prepared (R := R) chain phase follows (hledger.trans hL) hrest
    · exact .of_error rfl (hkeep.trans hkeep') (hledger ▸ hsteps)
    · exact ⟨hkeep.trans hkeep', hledger ▸ hsteps, fun _ => ⟨rows, s, chain, phase, follows, hmatch, hL, hend⟩, nofun⟩
  · rw [(World.ledger_eq hL).2.2] at hrest
    obtain ⟨hkeep', hsteps, rfl | ⟨rfl, hend⟩⟩ :=
      runs_resumeFrom_anchored (R := R) chain phase follows (hledger.trans hL) hrest
    · exact .of_error rfl (hkeep.trans hkeep') (hledger ▸ hsteps)
    · refine ⟨hkeep.trans hkeep', hledger ▸ hsteps, nofun, fun x hx => ?_⟩
      cases hx
      exact ⟨.inl ⟨_, protects_of_settled (chain.commit follows at_) hend, rfl⟩, hmatch⟩

end ControlAuthority
end Guard
