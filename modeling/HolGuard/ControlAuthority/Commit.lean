import HolGuard.ControlAuthority.Resume
/-!
# What a commit can do

A call of `commit_extension_control_layers`, however it ends, moves the ledger by steps that prepare and anchor only the
call's own transition, and takes at most one grant.
-/
namespace Guard
namespace ControlAuthority

open Lib (Faulty KeyMap)
open Lib.Faulty (Runs after_bind after_refuse after_lift after_write runs_bind runs_get_bind runs_pure)

variable {k : Keys} {c : CommitCall} {clock : Clock}

/-! ## The transition of a call -/

def CommitCall.Makes (k : Keys) (c : CommitCall) (s : SnapshotRow) (row : TransitionRow) : Prop :=
  s.revision = c.expectedRevision ∧ s.catalogDigest = c.catalogDigest ∧
    ∃ stamp, row = (c.transition k s.revision s.snapshot.digest stamp).row k

/-- What a call may do, once it is `authorised`. -/
def CommitCall.rights (k : Keys) (c : CommitCall) (authorised : Prop) : Rights where
  prepare := c.Makes k
  anchor s row := c.Makes k s row ∧ authorised
  reset := False

theorem CommitCall.check_eq_ok (h : c.check k = .ok ()) : validateLayers c.layers c.catalogDigest = .ok () ∧
    validateSerializedLayers c.layers = .ok () ∧
      validateExtensionControlProof k.mutationDigest c.proof c.mutation = .ok () := by
  simp only [CommitCall.check, CommitCall.checkInput, Lib.bind_eq_ok] at h
  obtain ⟨u, ⟨u', hlayers, -⟩, -, -, u'', hproof, hsize⟩ := h
  exact ⟨hlayers, hsize, hproof⟩

theorem CommitCall.follows (h : c.check k = .ok ()) (s : SnapshotRow) (stamp : String) :
    Follows k s ((c.transition k s.revision s.snapshot.digest stamp).row k) := by
  obtain ⟨hlayers, hsize, -⟩ := c.check_eq_ok h
  exact ⟨rfl, rfl, rfl, rfl, hsize, hlayers⟩

/-! ## Grants -/

def CommitCall.consumption (c : CommitCall) (m : GrantMetadata) (clock : Clock) : Consumption :=
  ⟨c.proof, c.mutation, m, clock.micros⟩

/-- The grant was for exactly the mutation, and had not expired. -/
structure Consumption.Sound (k : Keys) (e : Consumption) : Prop where
  proof : validateExtensionControlProof k.mutationDigest e.proof e.mutation = .ok ()
  subject : e.proof.grant.fields.subject = k.mutationDigest e.mutation.canonical
  unexpired : e.time < e.metadata.expiresEpoch

/-- What a transition of the mutation has to be. -/
def ExtensionControlMutation.request (k : Keys) (m : ExtensionControlMutation) : ResumeRequest where
  catalogDigest := m.catalogDigest
  layers := m.layers
  actorHash := k.privateHash .actor m.actorId
  idempotencyHash := k.privateHash .idempotency m.idempotencyKey
  nonceHash := k.privateHash .nonce m.nonce
  expectedRevision := m.previousRevision

def CommitCall.Consumed (k : Keys) (c : CommitCall) (w : World) : Prop :=
  ∃ e ∈ w.consumptions, e.mutation.request k = c.request k

/-- What a call does to the grants and to their history. -/
structure TakesGrant (k : Keys) (c : CommitCall) (clock : Clock) (w w' : World) : Prop where
  manifests : w'.db.manifests = w.db.manifests
  managed : w'.db.managed = w.db.managed
  gate : w'.gate = w.gate
  shrink : ∀ g m, w'.grants.get? g = some m → w.grants.get? g = some m
  log : w'.consumptions = w.consumptions ∨ ∃ m, w'.consumptions = w.consumptions ++ [c.consumption m clock] ∧
    w.grants.get? c.proof.grant.grantId = some m ∧ w'.grants.get? c.proof.grant.grantId = none ∧
    (c.consumption m clock).Sound k

variable {w w' : World}

theorem Keeps.takesGrant (h : Keeps w w') : TakesGrant k c clock w w' where
  manifests := h.manifests
  managed := h.managed
  gate := h.gate
  shrink g m hm := by rwa [h.grants] at hm
  log := .inl h.consumptions

theorem Keeps.consumed (h : Keeps w w') (hc : c.Consumed k w) : c.Consumed k w' := by
  unfold CommitCall.Consumed
  rw [h.consumptions]
  exact hc

theorem TakesGrant.before {v : World} (h : Keeps w v) (g : TakesGrant k c clock v w') :
    TakesGrant k c clock w w' where
  manifests := g.manifests.trans h.manifests
  managed := g.managed.trans h.managed
  gate := g.gate.trans h.gate
  shrink id m hm := h.grants ▸ g.shrink id m hm
  log := by
    rw [← h.consumptions, ← h.grants]
    exact g.log

theorem TakesGrant.after {v : World} (h : TakesGrant k c clock w v) (g : Keeps v w') :
    TakesGrant k c clock w w' where
  manifests := g.manifests.trans h.manifests
  managed := g.managed.trans h.managed
  gate := g.gate.trans h.gate
  shrink id m hm := h.shrink id m (g.grants ▸ hm)
  log := by
    rw [g.consumptions, g.grants]
    exact h.log

theorem get?_dropGrant {grants : KeyMap String GrantMetadata} {id g : String} {m : GrantMetadata} :
    (dropGrant grants id).get? g = some m ↔ grants.get? g = some m ∧ g ≠ id := by
  unfold dropGrant
  rw [KeyMap.get?_retain, decide_eq_true_eq]

theorem get?_dropGrant_self (grants : KeyMap String GrantMetadata) (id : String) :
    (dropGrant grants id).get? id = none := by
  cases h : (dropGrant grants id).get? id with
  | none => rfl
  | some m => exact absurd rfl (get?_dropGrant.1 h).2

/-- **The rule for consuming a proof.** -/
theorem runs_consume {r : Except String Unit} (h : Runs (consumeExtensionControlProof k c clock.micros) w r w') :
    w'.ledger = w.ledger ∧ w'.db = w.db ∧ TakesGrant k c clock w w' ∧
      (r = .ok () → c.Consumed k w') := by
  obtain ⟨hr, hw⟩ := Faulty.runs_act h
  unfold consume at hr hw
  split at hr
  · rename_i hproof
    rw [hproof] at hw
    simp only at hw
    rw [hw]
    exact ⟨rfl, rfl, Keeps.takesGrant ⟨rfl, rfl, rfl, rfl, rfl⟩, fun hok => by rw [hr] at hok; cases hok⟩
  · rename_i hproof
    rw [hproof] at hw
    simp only at hw
    split at hr
    · rename_i refusal hgrant
      rw [hgrant] at hw
      simp only at hw
      refine ⟨by rw [hw]; split <;> rfl, by rw [hw]; split <;> rfl, ?_, fun hok => by rw [hr] at hok; cases hok⟩
      rw [hw]
      split
      · exact ⟨rfl, rfl, rfl, fun g m hm => (get?_dropGrant.1 hm).1, .inl rfl⟩
      · exact Keeps.takesGrant ⟨rfl, rfl, rfl, rfl, rfl⟩
    · rename_i metadata hgrant
      rw [hgrant] at hw
      simp only at hw
      obtain ⟨hget, hexpiry, hsubject⟩ := validateGrantLocked_eq_ok hgrant
      have hsound : (c.consumption metadata clock).Sound k :=
        ⟨hproof, hsubject.trans (validateExtensionControlProof_eq_ok hproof).2, hexpiry⟩
      rw [hw]
      refine ⟨rfl, rfl, ⟨rfl, rfl, rfl, fun g m hm => (get?_dropGrant.1 hm).1, .inr ⟨metadata, rfl, hget, ?_, hsound⟩⟩,
        fun _ => ⟨c.consumption metadata clock, by simp [CommitCall.consumption], rfl⟩⟩
      exact get?_dropGrant_self _ _

/-! ## Preparing and committing -/

theorem settled_of_protects {catalogDigest : String} {s : SnapshotRow} (hphase : Phase k w.ledger)
    (h : Protects k catalogDigest w s) : ∃ rows, Chain k rows s ∧
      w.ledger = ⟨some s, rows, some (s.anchor .committed)⟩ := by
  obtain ⟨-, hpending, -⟩ := protected_of_inspectSnapshot h.inspect
  generalize hL : w.ledger = L at hphase
  cases hphase <;> obtain ⟨hs, hrows, ha⟩ := World.ledger_eq hL <;> cases hs.symm.trans h.snapshot
  case booted anchor chain => exact ⟨[], chain, by rw [← ha, h.anchor]⟩
  case settled chain => exact ⟨_, chain, rfl⟩
  case prepared phase chain follows =>
    rw [pendingTransition, hrows, chain.find?_append follows.revision] at hpending
    cases hpending
  case anchored | installed =>
    have hphases := ha.symm.trans h.anchor
    simp at hphases

theorem map_install {rows : List TransitionRow} {s : SnapshotRow} {row : TransitionRow}
    {a : AuthorityAnchor} (hchain : Chain k rows s) (hfollows : Follows k s row)
    (hledger : w.ledger = ⟨some s, rows ++ [row], some a⟩) :
    (w.updateDb (Database.install row s.snapshot.digest)).ledger =
      ⟨some (row.toSnapshot s.snapshot.digest), rows ++ [row.commit row.createdAt], some a⟩ := by
  obtain ⟨hs, hrows, ha⟩ := World.ledger_eq hledger
  simp only [World.ledger, World.updateDb_db, World.updateDb_anchor, Database.install, hs, hrows, ha, Option.map_some,
    map_setCommitted hchain hfollows.revision]

theorem runs_anchorAndInstall {R : Rights} {rows : List TransitionRow} {s : SnapshotRow}
    {row : TransitionRow} {r : Except String ExtensionControlAuthorityView}
    (hchain : Chain k rows s) (hphase : row.phase = .prepared) (hfollows : Follows k s row) (hright : R.anchor s row)
    (hledger : w.ledger = ⟨some s, rows ++ [row], some (s.anchor .committed)⟩)
    (h : Runs (anchorAndInstall k c row s.snapshot.digest) w r w') :
    Keeps w w' ∧ Steps k R w.ledger w'.ledger := by
  obtain ⟨hs, hrows, ha⟩ := World.ledger_eq hledger
  unfold anchorAndInstall at h
  generalize hw₁ : w.setAnchor (row.anchor .anchored) = w₁ at h
  have hledger₁ : w₁.ledger = ⟨some s, rows ++ [row], some (row.anchor .anchored)⟩ := by
    rw [← hw₁]
    simp [World.ledger, hs, hrows]
  have hkeep₁ : Keeps w w₁ := by
    rw [← hw₁]
    exact ⟨rfl, rfl, rfl, rfl, rfl⟩
  have hsteps₁ : Steps k R w.ledger w₁.ledger := by
    rw [hledger, hledger₁]
    exact .single (.anchor hchain hphase hfollows hright)
  refine after_write h ⟨⟨rfl, rfl, rfl, rfl, rfl⟩, .refl⟩ (by rw [hw₁]; exact ⟨hkeep₁, hsteps₁⟩) fun h => ?_
  rw [hw₁] at h
  refine after_refuse (runs_get_bind h) (fun _ => ⟨hkeep₁, hsteps₁⟩) fun _ h => ?_
  refine after_refuse h (fun _ => ⟨hkeep₁, hsteps₁⟩) fun _ h => ?_
  generalize hw₂ : w₁.updateDb (fun db => (db.install row s.snapshot.digest).consumeProof (c.proofHash k) row.revision
    row.createdAt) = w₂ at h
  have hledger₂ : w₂.ledger = ⟨some (row.toSnapshot s.snapshot.digest), rows ++ [row.commit row.createdAt],
      some (row.anchor .anchored)⟩ := by
    rw [← hw₂]
    exact map_install hchain hfollows hledger₁
  have hkeep₂ : Keeps w w₂ := by
    rw [← hw₂]
    exact hkeep₁.trans ⟨rfl, rfl, rfl, rfl, rfl⟩
  have hsteps₂ : Steps k R w.ledger w₂.ledger := by
    refine hsteps₁.tail ?_
    rw [hledger₁, hledger₂]
    exact .install _ hchain hphase hfollows
  refine after_write h ⟨hkeep₁, hsteps₁⟩ (by rw [hw₂]; exact ⟨hkeep₂, hsteps₂⟩) fun h => ?_
  rw [hw₂] at h
  have hchain₂ := hchain.commit hfollows row.createdAt
  have hkeep₃ : Keeps w (w₂.setAnchor (row.anchor .committed)) :=
    hkeep₂.trans ⟨rfl, rfl, rfl, rfl, rfl⟩
  have hsteps₃ : Steps k R w.ledger (w₂.setAnchor (row.anchor .committed)).ledger := by
    refine hsteps₂.tail ?_
    obtain ⟨hs₂, hrows₂, -⟩ := World.ledger_eq hledger₂
    rw [hledger₂, World.ledger, World.setAnchor_db, World.setAnchor_anchor, hs₂, hrows₂]
    exact .finish hchain₂
  refine after_write h ⟨hkeep₂, hsteps₂⟩ ⟨hkeep₃, hsteps₃⟩ fun h => ?_
  refine after_write h ⟨hkeep₃, hsteps₃⟩ ⟨hkeep₃, hsteps₃⟩ fun h => ?_
  rw [(runs_read h).1]
  exact ⟨hkeep₃, hsteps₃⟩

structure Commits (k : Keys) (c : CommitCall) (clock : Clock) (R : Rights) (w w' : World) : Prop where
  grant : TakesGrant k c clock w w'
  steps : Steps k R w.ledger w'.ledger

theorem runs_prepareAndCommit {current : ExtensionControlAuthorityView} {skip : Bool}
    {r : Except String ExtensionControlAuthorityView} (hcheck : c.check k = .ok ()) (hphase : Phase k w.ledger)
    (hcurrent : current.health = .isProtected → ∃ s, Protects k c.catalogDigest w s ∧ current = protectedView s)
    (h : Runs (prepareAndCommit k c clock current skip) w r w') :
    Commits k c clock (c.rights k (skip = true ∨ c.Consumed k w')) w w' := by
  have hidle : ∀ authorised, Commits k c clock (c.rights k authorised) w w :=
    fun _ => ⟨Keeps.takesGrant ⟨rfl, rfl, rfl, rfl, rfl⟩, .refl⟩
  unfold prepareAndCommit at h
  refine after_refuse h (fun _ => hidle _) fun hprotected h => ?_
  obtain ⟨s, hprotects, hview⟩ := hcurrent (not_not.1 hprotected)
  obtain ⟨rows, hchain, hledger⟩ := settled_of_protects hphase hprotects
  obtain ⟨hs, hrows, ha⟩ := World.ledger_eq hledger
  refine after_refuse h (fun _ => hidle _) fun hexpected h => ?_
  rw [hview] at hexpected
  replace hexpected : s.revision = c.expectedRevision := not_not.1 hexpected
  refine after_refuse (runs_get_bind h) (fun _ => hidle _) fun _ h => ?_
  refine after_refuse h (fun _ => hidle _) fun _ h => ?_
  simp only [hs, hview, protectedView] at h
  generalize hrow : (c.transition k s.revision s.snapshot.digest clock.stamp).row k = row at h
  have hfollows : Follows k s row := hrow ▸ c.follows hcheck s clock.stamp
  have hprepared : row.phase = .prepared := by rw [← hrow]; rfl
  have hstamp : row.createdAt = clock.stamp := by rw [← hrow]; rfl
  have hmakes : c.Makes k s row := ⟨hexpected, hprotects.catalog, clock.stamp, hrow.symm⟩
  refine after_refuse h (fun _ => hidle _) fun _ h => ?_
  generalize hw₁ : w.updateDb (fun db => (db.insertProof (c.proofRow k row.revision clock.stamp none)).insertTransition
    row) = w₁ at h
  have hledger₁ : w₁.ledger = ⟨some s, rows ++ [row], some (s.anchor .committed)⟩ := by
    rw [← hw₁]
    simp [World.ledger, Database.insertTransition, Database.insertProof, hs, hrows, ha]
  have hkeep₁ : Keeps w w₁ := by
    rw [← hw₁]
    exact ⟨rfl, rfl, rfl, rfl, rfl⟩
  have hsteps₁ : ∀ authorised, Steps k (c.rights k authorised) w.ledger w₁.ledger := by
    intro authorised
    rw [hledger, hledger₁]
    exact .single (.prepare hchain hprepared hfollows hmakes)
  refine after_write h (hidle _) (by rw [hw₁]; exact ⟨hkeep₁.takesGrant, hsteps₁ _⟩) fun h => ?_
  rw [hw₁] at h
  cases skip with
  | true =>
    simp only [if_true] at h
    obtain ⟨hkeep, hsteps⟩ := runs_anchorAndInstall (R := c.rights k (true = true ∨ c.Consumed k w')) hchain hprepared
      hfollows ⟨hmakes, .inl rfl⟩ hledger₁ h
    exact ⟨(hkeep₁.trans hkeep).takesGrant, (hsteps₁ _).trans hsteps⟩
  | false =>
    simp only [Bool.false_eq_true, if_false] at h
    refine after_bind h (fun e t hconsumed => ?_) fun u w₂ hconsumed h => ?_
    · obtain ⟨hledger₂, -, hgrant, -⟩ := runs_consume hconsumed
      exact ⟨hgrant.before hkeep₁, by rw [hledger₂]; exact hsteps₁ _⟩
    · obtain ⟨hledger₂, -, hgrant, hlog⟩ := runs_consume hconsumed
      have hprepared₂ := hledger₂.trans hledger₁
      obtain ⟨hkeep, -⟩ := runs_anchorAndInstall (R := c.rights k True) hchain hprepared hfollows ⟨hmakes, trivial⟩
        hprepared₂ h
      obtain ⟨-, hsteps⟩ := runs_anchorAndInstall (R := c.rights k (false = true ∨ c.Consumed k w')) hchain hprepared
        hfollows ⟨hmakes, .inr (hkeep.consumed (hlog rfl))⟩ hprepared₂ h
      rw [hledger₂] at hsteps
      exact ⟨(hgrant.before hkeep₁).after hkeep, (hsteps₁ _).trans hsteps⟩

/-! ## A call -/

/-- The call takes a leftover of an earlier one for a proof that was consumed: its transition is prepared, and its proof
recorded. -/
def CommitCall.Retries (k : Keys) (c : CommitCall) (w : World) : Prop :=
  (w.db.findProof (c.proofHash k)).isSome ∧
    ∃ row ∈ w.db.transitions, row.phase = .prepared ∧ (c.request k).Matches row

theorem Steps.weaken {R R' : Rights} {L L' : Ledger} (h : Steps k R L L')
    (hprepare : ∀ s row, R.prepare s row → R'.prepare s row) (hanchor : ∀ s row, R.anchor s row → R'.anchor s row)
    (hreset : R.reset → R'.reset) : Steps k R' L L' := by
  refine Relation.ReflTransGen.mono (fun a b hab => ?_) _ _ h
  cases hab with
  | prepare chain phase follows allowed => exact .prepare chain phase follows (hprepare _ _ allowed)
  | withdraw chain phase follows => exact .withdraw chain phase follows
  | anchor chain phase follows allowed => exact .anchor chain phase follows (hanchor _ _ allowed)
  | install at_ chain phase follows => exact .install at_ chain phase follows
  | finish chain => exact .finish chain
  | clear allowed => exact .clear (hreset allowed) _
  | boot chain anchor => exact .boot chain anchor
  | confirm chain anchor => exact .confirm chain anchor

theorem runs_settleResumed {proofRecord : Option ProofRow} {replay : TransitionRow}
    {r : Except String Unit} (h : Runs (settleResumed k c clock proofRecord replay) w r w') :
    w'.ledger = w.ledger ∧ TakesGrant k c clock w w' := by
  unfold settleResumed at h
  cases proofRecord with
  | none =>
    refine after_bind h (fun e t hconsume => ?_) fun u v hconsume hinsert => ?_
    · obtain ⟨hledger, -, hgrant, -⟩ := runs_consume hconsume
      exact ⟨hledger, hgrant⟩
    · obtain ⟨hledger, -, hgrant, -⟩ := runs_consume hconsume
      have hkeep : Keeps v (v.updateDb (Database.insertProof (c.proofRow k replay.revision clock.stamp
          (some clock.stamp)))) := ⟨rfl, rfl, rfl, rfl, rfl⟩
      obtain ⟨-, rfl⟩ | ⟨-, rfl | rfl⟩ := Faulty.runs_write hinsert
      · exact ⟨hledger, hgrant.after hkeep⟩
      · exact ⟨hledger, hgrant⟩
      · exact ⟨hledger, hgrant.after hkeep⟩
  | some p =>
    have hkeep : Keeps w (w.updateDb (Database.noteProof (c.proofHash k) clock.stamp)) := ⟨rfl, rfl, rfl, rfl, rfl⟩
    obtain ⟨-, rfl⟩ | ⟨-, rfl | rfl⟩ := Faulty.runs_write h
    · exact ⟨rfl, hkeep.takesGrant⟩
    · exact ⟨rfl, Keeps.takesGrant ⟨rfl, rfl, rfl, rfl, rfl⟩⟩
    · exact ⟨rfl, hkeep.takesGrant⟩

theorem Commits.idle {R : Rights} (hledger : w'.ledger = w.ledger) (hkeep : Keeps w w') :
    Commits k c clock R w w' :=
  ⟨hkeep.takesGrant, by rw [hledger]⟩

theorem Commits.before {R : Rights} {v : World} (hkeep : Keeps w v)
    (hsteps : Steps k R w.ledger v.ledger) (h : Commits k c clock R v w') :
    Commits k c clock R w w' :=
  ⟨h.grant.before hkeep, hsteps.trans h.steps⟩

theorem Commits.weaken {R R' : Rights} (h : Commits k c clock R w w')
    (hprepare : ∀ s row, R.prepare s row → R'.prepare s row)
    (hanchor : ∀ s row, R.anchor s row → R'.anchor s row) (hreset : R.reset → R'.reset) :
    Commits k c clock R' w w' :=
  ⟨h.grant, h.steps.weaken hprepare hanchor hreset⟩

/-- **The rule for commits.** -/
theorem runs_commit {r : Except String ExtensionControlAuthorityView} (hphase : Phase k w.ledger)
    (h : Runs (commitExtensionControlLayers k c clock) w r w') :
    Commits k c clock (c.rights k (c.Retries k w ∨ c.Consumed k w')) w w' := by
  have hidle : ∀ u : World, ∀ authorised, Commits k c clock (c.rights k authorised) u u :=
    fun _ _ => .idle rfl ⟨rfl, rfl, rfl, rfl, rfl⟩
  unfold commitExtensionControlLayers at h
  refine after_lift h (fun _ _ => hidle _ _) fun _ hcheck h => ?_
  obtain ⟨v, hledger, hkeep, ⟨-, rfl⟩ | h⟩ := runs_invalidate_bind h
  · exact .idle hledger hkeep.toKeeps
  refine .before hkeep.toKeeps (by rw [hledger]) ?_
  rw [← hledger] at hphase
  have hretries : c.Retries k w ↔ c.Retries k v := by
    unfold CommitCall.Retries Database.findProof
    rw [hkeep.proofs, (World.ledger_eq (w := v) (hledger : v.ledger = ⟨_, _, _⟩)).2.1]
  rw [hretries]
  refine after_read h (hidle _ _) fun current hcurrent _ h => ?_
  replace h := runs_get_bind h
  simp only at h
  split at h
  · -- no transition under the call's key
    refine after_refuse h (fun _ => hidle _ _) fun _ h => ?_
    refine (runs_prepareAndCommit hcheck hphase hcurrent h).weaken (fun _ _ hp => hp) ?_ id
    rintro s row ⟨hmakes, hfalse | hentry⟩
    · cases hfalse
    · exact ⟨hmakes, .inr hentry⟩
  · rename_i replay hreplay
    refine after_refuse h (fun _ => hidle _ _) fun _ h => ?_
    refine after_refuse h (fun _ => hidle _ _) fun _ h => ?_
    have hmem : replay ∈ v.db.transitions := List.mem_of_find?_eq_some hreplay
    refine after_bind h (fun e t hresumed => ?_) fun outcome t hresumed h => ?_
    · have hspec := runs_resume_spec (R := c.rights k (c.Retries k v ∨ c.Consumed k t)) hphase hmem hresumed
      exact ⟨hspec.keeps.takesGrant, hspec.steps⟩
    have hspec := runs_resume_spec (R := c.rights k (c.Retries k v ∨ c.Consumed k w')) hphase hmem hresumed
    refine .before hspec.keeps.toKeeps hspec.steps ?_
    cases outcome with
    | some resumed =>
      refine after_bind h (fun e t' hsettle => ?_) fun u t' hsettle h => ?_
      · obtain ⟨hledger', hgrant⟩ := runs_settleResumed hsettle
        exact ⟨hgrant, by rw [hledger']⟩
      · obtain ⟨hledger', hgrant⟩ := runs_settleResumed hsettle
        rw [(runs_pure h).2]
        exact ⟨hgrant, by rw [hledger']⟩
    | none =>
      obtain ⟨rows, s, hchain, hprepared, -, hmatch, -, hsettled⟩ := hspec.withdrawn rfl
      have hphase' : Phase k t.ledger := hspec.steps.phase hphase
      refine after_read h (hidle _ _) fun current' hcurrent' _ h => ?_
      by_cases hproof : (v.db.findProof (c.proofHash k)).isSome
      · have hretry : c.Retries k v := ⟨hproof, replay, hmem, hprepared, hmatch⟩
        simp only [hproof, if_true] at h
        have hkeep' : Keeps t (t.updateDb (Database.deleteProof (c.proofHash k))) := ⟨rfl, rfl, rfl, rfl, rfl⟩
        have hledger' : (t.updateDb (Database.deleteProof (c.proofHash k))).ledger = t.ledger := rfl
        refine after_write h (hidle _ _) (.idle hledger' hkeep') fun h => ?_
        refine .before hkeep' (by rw [hledger']) ?_
        have hcurrent'' : current'.health = .isProtected → ∃ s, Protects k c.catalogDigest
            (t.updateDb (Database.deleteProof (c.proofHash k))) s ∧ current' = protectedView s := by
          intro hhealth
          obtain ⟨s', hprotects, hview⟩ := hcurrent' hhealth
          exact ⟨s', hprotects.congr hledger', hview⟩
        refine (runs_prepareAndCommit hcheck (hledger' ▸ hphase') hcurrent'' h).weaken (fun _ _ hp => hp) ?_ id
        rintro s' row ⟨hmakes, -⟩
        exact ⟨hmakes, .inl hretry⟩
      · simp only [hproof] at h
        refine (runs_prepareAndCommit hcheck hphase' hcurrent' h).weaken (fun _ _ hp => hp) ?_ id
        rintro s' row ⟨hmakes, hfalse | hentry⟩
        · cases hfalse
        · exact ⟨hmakes, .inr hentry⟩

end ControlAuthority
end Guard
