import HolGuard.ControlAuthority.Operations
/-!
# What an operation can do to the authority

The snapshot, the transitions and the anchor are the `Ledger` of the authority.  `Step` says once what a durable write
can do to it; `Phase` lists the ledgers that the steps lead to, and a read recognises each of them.
-/
namespace Guard
namespace ControlAuthority

open Lib (Faulty)

variable {k : Keys}

structure Ledger where
  snapshot : Option SnapshotRow
  transitions : List TransitionRow
  anchor : Option AuthorityAnchor
deriving DecidableEq

abbrev SnapshotRow.anchor (s : SnapshotRow) (phase : AuthorityPhase) : AuthorityAnchor :=
  ⟨s.revision, s.snapshot.digest, phase⟩

abbrev TransitionRow.anchor (row : TransitionRow) (phase : AuthorityPhase) : AuthorityAnchor :=
  ⟨row.revision, row.snapshot.digest, phase⟩

def World.ledger (w : World) : Ledger := ⟨w.db.snapshot, w.db.transitions, w.anchor⟩

/-! ## Chains of transitions -/

/-- The row is a sound transition from the snapshot. -/
structure Follows (k : Keys) (s : SnapshotRow) (row : TransitionRow) : Prop where
  revision : row.revision = s.revision + 1
  previousRevision : row.previousRevision = s.revision
  snapshot : row.snapshot = k.snapshot.authenticate (row.expectedSnapshot s.snapshot.digest)
  transition : row.transition = k.transition.authenticate (row.expectedTransition s.snapshot.digest)
  size : validateSerializedLayers row.layers = .ok ()
  layers : validateLayers row.layers row.catalogDigest = .ok ()

/-- The snapshot is what the committed rows lead to from a first one. -/
inductive Chain (k : Keys) : List TransitionRow → SnapshotRow → Prop
  | boot {s : SnapshotRow} (zero : s.revision = 0) (empty : s.layers = [])
      (snapshot : s.snapshot = k.snapshot.authenticate s.expected) : Chain k [] s
  | next {rows : List TransitionRow} {s : SnapshotRow} {row : TransitionRow} (chain : Chain k rows s)
      (committed : row.phase = .committed) (follows : Follows k s row) :
      Chain k (rows ++ [row]) (row.toSnapshot s.snapshot.digest)

theorem validateLayers_nil (catalogDigest : String) : validateLayers [] catalogDigest = .ok () := by
  simp [validateLayers, composeControlLayers]

theorem validateSerializedLayers_nil : validateSerializedLayers [] = .ok () := by
  have h : serializedBytes [] = 2 := rfl
  simp [validateSerializedLayers, h, maxSerializedLayersBytes]

variable {row : TransitionRow}

namespace Chain

variable {rows : List TransitionRow} {s : SnapshotRow}

theorem snapshot_eq (h : Chain k rows s) : s.snapshot = k.snapshot.authenticate s.expected := by
  cases h with
  | boot _ _ snapshot => exact snapshot
  | next _ _ follows => exact follows.snapshot

theorem layers_ok (h : Chain k rows s) : validateLayers s.layers s.catalogDigest = .ok () := by
  cases h with
  | boot _ empty _ => rw [empty]; exact validateLayers_nil _
  | next _ _ follows => exact follows.layers

theorem size_ok (h : Chain k rows s) : validateSerializedLayers s.layers = .ok () := by
  cases h with
  | boot _ empty _ => rw [empty]; exact validateSerializedLayers_nil
  | next _ _ follows => exact follows.size

theorem revisions (h : Chain k rows s) : rows.map (·.revision) = (List.range s.revision).map (· + 1) := by
  induction h with
  | boot zero => simp [zero]
  | next _ _ follows ih => simp [ih, TransitionRow.toSnapshot, follows.revision, List.range_succ]

theorem all_committed (h : Chain k rows s) : ∀ row ∈ rows, row.phase = .committed := by
  induction h with
  | boot => simp
  | next _ committed _ ih => exact List.forall_mem_append.2 ⟨ih, List.forall_mem_singleton.2 committed⟩

theorem revision_le (h : Chain k rows s) (hrow : row ∈ rows) : row.revision ≤ s.revision := by
  have hmem : row.revision ∈ rows.map (·.revision) := List.mem_map_of_mem hrow
  rw [h.revisions, List.mem_map] at hmem
  obtain ⟨i, hi, heq⟩ := hmem
  have := List.mem_range.1 hi
  omega

theorem sorted (h : Chain k rows s) : rows.Pairwise fun a b => a.revision ≤ b.revision := by
  have hp : (rows.map (·.revision)).Pairwise (· ≤ ·) := by
    rw [h.revisions, List.pairwise_map]
    exact List.pairwise_lt_range.imp (by omega)
  exact List.pairwise_map.1 hp

theorem byRevision_eq (h : Chain k rows s) : byRevision rows = rows := by
  unfold byRevision
  refine List.mergeSort_of_pairwise (h.sorted.imp ?_)
  intro a b hab
  exact decide_eq_true hab

/-- The rows of a chain pass the loop of the validation, and end at the digest of the snapshot. -/
theorem foldlM_eq (h : Chain k rows s) : ∃ head, rows.foldlM (validateTransitionRow k) none = .ok head ∧
    ∀ d, head = some d → d = s.snapshot.digest := by
  induction h with
  | boot => exact ⟨none, rfl, fun d hd => by cases hd⟩
  | @next rows s row chain committed follows ih =>
    obtain ⟨head, hfold, hhead⟩ := ih
    have hrow : validateTransitionRow k head row = .ok (some row.snapshot.digest) := by
      have hprior : ¬ ∃ p, head = some p ∧ s.snapshot.digest ≠ p := by
        rintro ⟨p, hp, hne⟩
        exact hne (hhead p hp).symm
      unfold validateTransitionRow
      rw [if_neg (by rw [follows.revision, follows.previousRevision]; simp), follows.size, follows.snapshot,
        follows.layers, follows.transition]
      simp only [Authenticator.verify_authenticate, bind, Except.bind, TransitionRow.expectedSnapshot, hprior,
        if_false, ne_eq, not_true_eq_false]
    refine ⟨some row.snapshot.digest, ?_, fun d hd => by cases hd; rfl⟩
    rw [List.foldlM_append, hfold]
    simp only [List.foldlM_cons, List.foldlM_nil, bind, Except.bind, hrow, pure, Except.pure]

theorem validate_ok (h : Chain k rows s) : validateTransitionChain k rows s.revision s.snapshot.digest = .ok () := by
  have hfilter : rows.filter (fun row => row.phase = .committed) = rows :=
    List.filter_eq_self.2 fun row hrow => decide_eq_true (h.all_committed row hrow)
  obtain ⟨head, hfold, hhead⟩ := h.foldlM_eq
  have hmatch : ¬ ∃ d, head = some d ∧ d ≠ s.snapshot.digest := by
    rintro ⟨d, hd, hne⟩
    exact hne (hhead d hd)
  simp only [validateTransitionChain, h.byRevision_eq, hfilter, h.revisions, ne_eq, not_true_eq_false, if_false, hfold,
    bind, Except.bind, hmatch]

theorem find?_none (h : Chain k rows s) : rows.find? (fun row => row.revision = s.revision + 1) = none := by
  refine List.find?_eq_none.2 fun row hrow => ?_
  have := h.revision_le hrow
  simp only [decide_eq_true_eq]
  omega

theorem find?_append (h : Chain k rows s) (hrow : row.revision = s.revision + 1) :
    (rows ++ [row]).find? (fun row => row.revision = s.revision + 1) = some row := by
  rw [List.find?_append, h.find?_none]
  simp [hrow]

end Chain

/-! ## Phases -/

/-- The ledgers that the operations leave behind. -/
inductive Phase (k : Keys) : Ledger → Prop
  | vacant (anchor : Option AuthorityAnchor) : Phase k ⟨none, [], anchor⟩
  | booted {s : SnapshotRow} (chain : Chain k [] s) (anchor : Option AuthorityAnchor) : Phase k ⟨some s, [], anchor⟩
  | settled {rows : List TransitionRow} {s : SnapshotRow} (chain : Chain k rows s) :
      Phase k ⟨some s, rows, some ⟨s.revision, s.snapshot.digest, .committed⟩⟩
  | prepared {rows : List TransitionRow} {s : SnapshotRow} {row : TransitionRow} (chain : Chain k rows s)
      (phase : row.phase = .prepared) (follows : Follows k s row) :
      Phase k ⟨some s, rows ++ [row], some ⟨s.revision, s.snapshot.digest, .committed⟩⟩
  | anchored {rows : List TransitionRow} {s : SnapshotRow} {row : TransitionRow} (chain : Chain k rows s)
      (phase : row.phase = .prepared) (follows : Follows k s row) :
      Phase k ⟨some s, rows ++ [row], some ⟨row.revision, row.snapshot.digest, .anchored⟩⟩
  | installed {rows : List TransitionRow} {s : SnapshotRow} (chain : Chain k rows s) :
      Phase k ⟨some s, rows, some ⟨s.revision, s.snapshot.digest, .anchored⟩⟩

def TransitionRow.commit (row : TransitionRow) (at_ : String) : TransitionRow :=
  { row with phase := .committed, committedAt := some at_ }

/-- What an operation may do: which transitions it prepares and anchors from a snapshot, and whether it resets the
authority. -/
structure Rights where
  prepare : SnapshotRow → TransitionRow → Prop
  anchor : SnapshotRow → TransitionRow → Prop
  reset : Prop

/-- **What a durable write can do.** -/
inductive Step (k : Keys) (R : Rights) : Ledger → Ledger → Prop
  | prepare {rows : List TransitionRow} {s : SnapshotRow} {row : TransitionRow} (chain : Chain k rows s)
      (phase : row.phase = .prepared) (follows : Follows k s row) (allowed : R.prepare s row) :
      Step k R ⟨some s, rows, some ⟨s.revision, s.snapshot.digest, .committed⟩⟩
        ⟨some s, rows ++ [row], some ⟨s.revision, s.snapshot.digest, .committed⟩⟩
  | withdraw {rows : List TransitionRow} {s : SnapshotRow} {row : TransitionRow} (chain : Chain k rows s)
      (phase : row.phase = .prepared) (follows : Follows k s row) :
      Step k R ⟨some s, rows ++ [row], some ⟨s.revision, s.snapshot.digest, .committed⟩⟩
        ⟨some s, rows, some ⟨s.revision, s.snapshot.digest, .committed⟩⟩
  | anchor {rows : List TransitionRow} {s : SnapshotRow} {row : TransitionRow} (chain : Chain k rows s)
      (phase : row.phase = .prepared) (follows : Follows k s row) (allowed : R.anchor s row) :
      Step k R ⟨some s, rows ++ [row], some ⟨s.revision, s.snapshot.digest, .committed⟩⟩
        ⟨some s, rows ++ [row], some ⟨row.revision, row.snapshot.digest, .anchored⟩⟩
  | install {rows : List TransitionRow} {s : SnapshotRow} {row : TransitionRow} (at_ : String) (chain : Chain k rows s)
      (phase : row.phase = .prepared) (follows : Follows k s row) :
      Step k R ⟨some s, rows ++ [row], some ⟨row.revision, row.snapshot.digest, .anchored⟩⟩
        ⟨some (row.toSnapshot s.snapshot.digest), rows ++ [row.commit at_],
          some ⟨row.revision, row.snapshot.digest, .anchored⟩⟩
  | finish {rows : List TransitionRow} {s : SnapshotRow} {phase : AuthorityPhase} (chain : Chain k rows s) :
      Step k R ⟨some s, rows, some ⟨s.revision, s.snapshot.digest, phase⟩⟩
        ⟨some s, rows, some ⟨s.revision, s.snapshot.digest, .committed⟩⟩
  | clear (allowed : R.reset) (L : Ledger) : Step k R L ⟨none, [], L.anchor⟩
  | boot {s : SnapshotRow} (chain : Chain k [] s) (anchor : Option AuthorityAnchor) :
      Step k R ⟨none, [], anchor⟩ ⟨some s, [], anchor⟩
  | confirm {s : SnapshotRow} (chain : Chain k [] s) (anchor : Option AuthorityAnchor) :
      Step k R ⟨some s, [], anchor⟩ ⟨some s, [], some ⟨s.revision, s.snapshot.digest, .committed⟩⟩

abbrev Steps (k : Keys) (R : Rights) := Relation.ReflTransGen (Step k R)

variable {R : Rights} {L L' : Ledger}

theorem Follows.commit {s : SnapshotRow} (h : Follows k s row) (at_ : String) :
    Follows k s (row.commit at_) :=
  ⟨h.revision, h.previousRevision, h.snapshot, h.transition, h.size, h.layers⟩

theorem Chain.commit {rows : List TransitionRow} {s : SnapshotRow} (h : Chain k rows s)
    (follows : Follows k s row) (at_ : String) :
    Chain k (rows ++ [row.commit at_]) (row.toSnapshot s.snapshot.digest) :=
  Chain.next h rfl (follows.commit at_)

/-- **Every step leads from phase to phase.** -/
theorem Step.phase (h : Step k R L L') : Phase k L' := by
  cases h with
  | prepare chain phase follows => exact .prepared chain phase follows
  | withdraw chain => exact .settled chain
  | anchor chain phase follows => exact .anchored chain phase follows
  | install at_ chain _ follows => exact .installed (chain.commit follows at_)
  | finish chain => exact .settled chain
  | clear => exact .vacant _
  | boot chain => exact .booted chain _
  | confirm chain => exact .settled chain

theorem Steps.phase (h : Steps k R L L') (hL : Phase k L) : Phase k L' := by
  induction h with
  | refl => exact hL
  | tail _ step _ => exact step.phase

/-! ## Reads -/

theorem World.ledger_eq {w : World} {snapshot : Option SnapshotRow} {transitions : List TransitionRow}
    {anchor : Option AuthorityAnchor} (h : w.ledger = ⟨snapshot, transitions, anchor⟩) :
    w.db.snapshot = snapshot ∧ w.db.transitions = transitions ∧ w.anchor = anchor := by
  simpa [World.ledger] using h

section Inspect

variable {db : Database} {rows : List TransitionRow} {s : SnapshotRow} {anchor : AuthorityAnchor}

theorem protected_of_inspectSnapshot (h : inspectSnapshot k db anchor s = .ok .isProtected) :
    anchor = (s.anchor .committed) ∧ pendingTransition db (s.revision + 1) = none ∧
      validateTransitionChain k db.transitions s.revision s.snapshot.digest = .ok () := by
  simp only [inspectSnapshot, Lib.bind_eq_ok, Lib.ite_error_eq_ok] at h
  obtain ⟨payload, -, -, -, -, -, -, h⟩ := h
  unfold inspectAnchor at h
  repeat' split at h
  any_goals cases h
  rename_i hanchor hpending hphase
  obtain ⟨u, hchain, -⟩ := Lib.map_eq_ok.1 h
  push Not at hanchor hphase
  refine ⟨?_, by simpa using hpending, hchain⟩
  cases anchor
  simp_all

theorem inspectSnapshot_eq (hchain : Chain k rows s) (db : Database) (anchor : AuthorityAnchor) :
    inspectSnapshot k db anchor s = inspectAnchor k db anchor s := by
  have hverify : k.snapshot.verify s.snapshot = .ok s.expected := by
    rw [hchain.snapshot_eq, Authenticator.verify_authenticate]
  simp only [inspectSnapshot, hverify, hchain.layers_ok, hchain.size_ok, bind, Except.bind, ne_eq, not_true_eq_false,
    if_false]

theorem inspectSnapshot_settled (hchain : Chain k rows s) (hrows : db.transitions = rows) :
    inspectSnapshot k db (s.anchor .committed) s = .ok .isProtected := by
  rw [inspectSnapshot_eq hchain, inspectAnchor, pendingTransition, hrows, hchain.find?_none, hchain.validate_ok]
  simp [Except.map]

end Inspect

def protectedView (s : SnapshotRow) : ExtensionControlAuthorityView :=
  ⟨.isProtected, s.revision, s.catalogDigest, s.layers, 0⟩

theorem runs_recordEvent {w w' : World} {r : Except String Unit} (h : Faulty.Runs recordEvent w r w') :
    w' = w ∧ (r = .ok () ∨ r = .error interrupted) := by
  obtain ⟨hr, hw⟩ | ⟨hr, hw | hw⟩ := Faulty.runs_write h
  · exact ⟨hw, .inl hr⟩
  · exact ⟨hw, .inr hr⟩
  · exact ⟨hw, .inr hr⟩

theorem runs_readSnapshot {db : Database} {anchor : AuthorityAnchor} {s : SnapshotRow} {w w' : World}
    {r : Except String ExtensionControlAuthorityView} (h : Faulty.Runs (readSnapshot k db anchor s) w r w') :
    w' = w ∧ (r = .error interrupted ∨ ∃ v, r = .ok v ∧
      if inspectSnapshot k db anchor s = .ok .isProtected then v = protectedView s else v.health ≠ .isProtected) := by
  unfold readSnapshot at h
  split at h
  · rename_i hinspect
    obtain ⟨hr, hw⟩ := Faulty.runs_pure h
    exact ⟨hw, .inr ⟨_, hr, by simp [hinspect, tamperedView]⟩⟩
  · rename_i hinspect
    obtain ⟨e, hr, hevent⟩ | ⟨u, t, hevent, hpure⟩ := Faulty.runs_bind h
    · unfold ensureCatalogMigratedEvent at hevent
      split at hevent
      · obtain ⟨hw, he | he⟩ := runs_recordEvent hevent
        · cases he
        · cases he
          exact ⟨hw, .inl hr⟩
      · cases (Faulty.runs_pure hevent).1
    · have ht : t = w := by
        unfold ensureCatalogMigratedEvent at hevent
        split at hevent
        · exact (runs_recordEvent hevent).1
        · exact (Faulty.runs_pure hevent).2
      obtain ⟨hr, hw⟩ := Faulty.runs_pure hpure
      exact ⟨hw.trans ht, .inr ⟨_, hr, by simp [hinspect, protectedView]⟩⟩
  · rename_i health hne hinspect
    obtain ⟨hr, hw⟩ := Faulty.runs_pure h
    have hhealth : health ≠ .isProtected := fun he => hne he
    exact ⟨hw, .inr ⟨_, hr, by simp [hinspect, hhealth]⟩⟩

/-- The authority is protected: its snapshot is of the catalog, and passes every check. -/
structure Protects (k : Keys) (catalogDigest : String) (w : World) (s : SnapshotRow) : Prop where
  snapshot : w.db.snapshot = some s
  catalog : s.catalogDigest = catalogDigest
  anchor : w.anchor = some ⟨s.revision, s.snapshot.digest, .committed⟩
  inspect : inspectSnapshot k w.db ⟨s.revision, s.snapshot.digest, .committed⟩ s = .ok .isProtected

theorem Protects.congr {catalogDigest : String} {w v : World} {s : SnapshotRow} (h : Protects k catalogDigest w s)
    (hledger : v.ledger = w.ledger) : Protects k catalogDigest v s := by
  obtain ⟨hs, hrows, ha⟩ := World.ledger_eq (hledger : v.ledger = ⟨_, _, _⟩)
  refine ⟨hs.trans h.snapshot, h.catalog, ha.trans h.anchor, ?_⟩
  have hpending : pendingTransition v.db = pendingTransition w.db := by
    funext revision
    unfold pendingTransition
    rw [hrows]
  have hinspect := h.inspect
  unfold inspectSnapshot inspectAnchor at hinspect ⊢
  simpa only [hpending, hrows] using hinspect

/-- **The rule for reads.** -/
theorem runs_read {catalogDigest : String} {w w' : World} {r : Except String ExtensionControlAuthorityView}
    (h : Faulty.Runs (readExtensionControlAuthority k catalogDigest) w r w') :
    w' = w ∧ (r = .error interrupted ∨ ∃ v, r = .ok v ∧
      (v.health = .isProtected → ∃ s, Protects k catalogDigest w s ∧ v = protectedView s) ∧
      ∀ s, Protects k catalogDigest w s → v = protectedView s) := by
  replace h := Faulty.runs_get_bind h
  have hother : ∀ v : ExtensionControlAuthorityView, v.health ≠ .isProtected → (∀ s, ¬ Protects k catalogDigest w s) →
      Faulty.Runs (pure v : Op ExtensionControlAuthorityView) w r w' → w' = w ∧
        (r = .error interrupted ∨ ∃ v, r = .ok v ∧
        (v.health = .isProtected → ∃ s, Protects k catalogDigest w s ∧ v = protectedView s) ∧
        ∀ s, Protects k catalogDigest w s → v = protectedView s) := by
    intro v hv hnone hp
    obtain ⟨hr, hw⟩ := Faulty.runs_pure hp
    exact ⟨hw, .inr ⟨v, hr, fun he => absurd he hv, fun s hs => absurd hs (hnone s)⟩⟩
  split at h
  · rename_i hs ha
    exact hother _ (by simp [unenrolledView]) (fun s hp => by rw [hp.snapshot] at hs; cases hs) h
  · rename_i row anchor hs ha
    split at h
    · rename_i hcatalog
      refine hother _ (by simp [tamperedView]) (fun s hp => ?_) h
      rw [hp.snapshot] at hs
      cases hs
      exact hcatalog hp.catalog
    · rename_i hcatalog
      push Not at hcatalog
      obtain ⟨hw, hr⟩ := runs_readSnapshot h
      refine ⟨hw, hr.imp_right ?_⟩
      rintro ⟨v, hv, hview⟩
      refine ⟨v, hv, fun hprotected => ?_, fun s hp => ?_⟩
      · by_cases hinspect : inspectSnapshot k w.db anchor row = .ok .isProtected
        · have hanchor := (protected_of_inspectSnapshot hinspect).1
          subst hanchor
          exact ⟨row, ⟨hs, hcatalog, ha, hinspect⟩, by simpa [hinspect] using hview⟩
        · exact absurd hprotected (by simpa [hinspect] using hview)
      · have hrow : row = s := by
          have := hp.snapshot
          rw [hs] at this
          exact Option.some.inj this
        have hanchor : anchor = (s.anchor .committed) := by
          have := hp.anchor
          rw [ha] at this
          exact Option.some.inj this
        subst hrow
        subst hanchor
        simpa [hp.inspect] using hview
  · rename_i hno hsome
    refine hother _ (by simp [tamperedView]) (fun s hp => ?_) h
    exact hsome _ _ hp.snapshot hp.anchor

end ControlAuthority
end Guard
