import HolGuard.ControlAuthority.Commit
/-!
# No change without a consumed grant

Calls of `commit_extension_control_layers` follow one another, each ending anywhere; between them grants are issued,
lapse or are lost with the process, and the approval gate changes.  A revision is committed only after a grant was
consumed for its mutation, unless a call takes the prepared transition of an earlier call, whose grant was not, for the
sign that it was.
-/
namespace Guard
namespace ControlAuthority

open Lib (Faulty KeyMap)
open Lib.Faulty (Runs)

variable {k : Keys}

/-! ## Histories -/

/-- One event of a history; `ok` is asked of every call and of the state before it. -/
inductive GrantEvent (k : Keys) (ok : CommitCall → World → Prop) : World → World → Prop
  | call {w w' : World} (c : CommitCall) (clock : Clock) (r : Except String ExtensionControlAuthorityView)
      (meets : ok c w) (runs : Runs (commitExtensionControlLayers k c clock) w r w') : GrantEvent k ok w w'
  | issue {w : World} (id : String) (m : GrantMetadata) (unused : ∀ e ∈ w.consumptions, e.proof.grant.grantId ≠ id) :
      GrantEvent k ok w { w with grants := w.grants.insert id m }
  | lose {w : World} (keep : String → GrantMetadata → Bool) :
      GrantEvent k ok w { w with grants := w.grants.retain keep }
  | regate {w : World} (gate : GateState) : GrantEvent k ok w { w with gate := gate }

def Consumption.Authorises (k : Keys) (e : Consumption) (row : TransitionRow) : Prop :=
  (e.mutation.request k).Matches row ∧ row.revision = e.mutation.previousRevision + 1

/-- **No committed change without a grant**: every revision committed since `n` was authorised by a sound consumption,
and no grant and no proof authorises two. -/
structure Authorised (k : Keys) (n : Nat) (w : World) : Prop where
  covered : ∀ row ∈ w.db.transitions, row.phase = .committed → n < row.revision →
    ∃ e ∈ w.consumptions, e.Authorises k row ∧ e.Sound k
  oneGrant : ∀ row ∈ w.db.transitions, ∀ row' ∈ w.db.transitions, ∀ e ∈ w.consumptions, ∀ e' ∈ w.consumptions,
    e.Authorises k row → e'.Authorises k row' → e.proof.grant.grantId = e'.proof.grant.grantId →
    row.revision = row'.revision
  oneProof : ∀ row ∈ w.db.transitions, ∀ row' ∈ w.db.transitions, ∀ e ∈ w.consumptions, ∀ e' ∈ w.consumptions,
    e.Authorises k row → e'.Authorises k row' → e.proof = e'.proof → row.revision = row'.revision

/-! ## The invariant -/

/-- Every transition since `n` that is committed, or anchored, is authorised by one of `log`. -/
def Covered (k : Keys) (n : Nat) (log : List Consumption) (L : Ledger) : Prop :=
  ∀ row ∈ L.transitions, n < row.revision →
    (row.phase = .committed ∨ L.anchor = some ⟨row.revision, row.snapshot.digest, .anchored⟩) →
    ∃ e ∈ log, e.Authorises k row

theorem Covered.mono {n : Nat} {log log' : List Consumption} {L : Ledger} (h : Covered k n log L) (hsub : log ⊆ log') :
    Covered k n log' L := by
  intro row hrow hn hphase
  obtain ⟨e, he, hauth⟩ := h row hrow hn hphase
  exact ⟨e, hsub he, hauth⟩

/-- A step of a call keeps the transitions covered, if what it anchors is authorised. -/
theorem Covered.step {n : Nat} {log : List Consumption} {c : CommitCall} {authorised : Prop} {L L' : Ledger}
    (hauth : authorised → ∃ e ∈ log, e.mutation.request k = c.request k) (h : Covered k n log L)
    (hstep : Step k (c.rights k authorised) L L') : Covered k n log L' := by
  cases hstep with
  | prepare chain phase follows =>
    intro row hrow hn hphase
    rcases List.mem_append.1 hrow with hrow | hrow
    · exact h row hrow hn (.inl (chain.all_committed row hrow))
    · rw [List.mem_singleton.1 hrow] at hphase
      rcases hphase with hphase | hanchor
      · rw [phase] at hphase
        cases hphase
      · simp at hanchor
  | withdraw chain =>
    exact fun row hrow hn _ => h row (List.mem_append_left _ hrow) hn (.inl (chain.all_committed row hrow))
  | anchor chain phase follows allowed =>
    intro row hrow hn _
    rcases List.mem_append.1 hrow with hrow | hrow
    · exact h row (List.mem_append_left _ hrow) hn (.inl (chain.all_committed row hrow))
    · rw [List.mem_singleton.1 hrow]
      obtain ⟨⟨hexpected, -, stamp, hmade⟩, hright⟩ := allowed
      obtain ⟨e, he, hrequest⟩ := hauth hright
      have hrevision : e.mutation.previousRevision = c.expectedRevision :=
        congrArg ResumeRequest.expectedRevision hrequest
      refine ⟨e, he, ?_, ?_⟩
      · rw [hrequest, hmade]
        exact ⟨hexpected, rfl, rfl, rfl, rfl, rfl⟩
      · rw [follows.revision, hexpected, hrevision]
  | @install rows s made at_ chain phase follows =>
    intro row hrow hn _
    rcases List.mem_append.1 hrow with hrow | hrow
    · exact h row (List.mem_append_left _ hrow) hn (.inl (chain.all_committed row hrow))
    · rw [List.mem_singleton.1 hrow] at hn ⊢
      exact h made List.mem_concat_self hn (.inr rfl)
  | finish chain => exact fun row hrow hn _ => h row hrow hn (.inl (chain.all_committed row hrow))
  | clear allowed => exact allowed.elim
  | boot => exact fun row hrow => by cases hrow
  | confirm => exact fun row hrow => by cases hrow

theorem Covered.steps {n : Nat} {log : List Consumption} {c : CommitCall} {authorised : Prop} {L L' : Ledger}
    (hauth : authorised → ∃ e ∈ log, e.mutation.request k = c.request k) (h : Covered k n log L)
    (hsteps : Steps k (c.rights k authorised) L L') : Covered k n log L' := by
  induction hsteps with
  | refl => exact h
  | tail _ step ih => exact ih.step hauth step

/-- What holds between the events of a history. -/
structure GrantInvariant (k : Keys) (n : Nat) (w : World) : Prop where
  phase : Phase k w.ledger
  covered : Covered k n w.consumptions w.ledger
  sound : ∀ e ∈ w.consumptions, e.Sound k
  taken : ∀ e ∈ w.consumptions, w.grants.get? e.proof.grant.grantId = none
  once : (w.consumptions.map fun e => e.proof.grant.grantId).Nodup

/-- The leftover that the call takes for a consumed proof is one. -/
def LeftoverConsumed (k : Keys) (c : CommitCall) (w : World) : Prop := c.Retries k w → c.Consumed k w

theorem TakesGrant.subset {c : CommitCall} {clock : Clock} {w w' : World} (h : TakesGrant k c clock w w') :
    w.consumptions ⊆ w'.consumptions := by
  obtain hlog | ⟨m, hlog, -⟩ := h.log
  · rw [hlog]
    exact List.Subset.refl _
  · rw [hlog]
    exact List.subset_append_left _ _

theorem GrantInvariant.call {n : Nat} {c : CommitCall} {clock : Clock} {r : Except String ExtensionControlAuthorityView}
    {w w' : World} (h : GrantInvariant k n w) (hmeets : LeftoverConsumed k c w)
    (hruns : Runs (commitExtensionControlLayers k c clock) w r w') : GrantInvariant k n w' := by
  obtain ⟨hgrant, hsteps⟩ := runs_commit h.phase hruns
  have hsub := hgrant.subset
  refine ⟨hsteps.phase h.phase, ?_, ?_, ?_, ?_⟩
  · refine (h.covered.mono hsub).steps ?_ hsteps
    rintro (hretries | hconsumed)
    · obtain ⟨e, he, hrequest⟩ := hmeets hretries
      exact ⟨e, hsub he, hrequest⟩
    · exact hconsumed
  · obtain hlog | ⟨m, hlog, -, -, hsound⟩ := hgrant.log
    · rw [hlog]
      exact h.sound
    · rw [hlog]
      exact List.forall_mem_append.2 ⟨h.sound, List.forall_mem_singleton.2 hsound⟩
  · have hkept : ∀ e ∈ w.consumptions, w'.grants.get? e.proof.grant.grantId = none := by
      intro e he
      refine Option.eq_none_iff_forall_ne_some.2 (fun m hget => ?_)
      cases (h.taken e he).symm.trans (hgrant.shrink _ _ hget)
    obtain hlog | ⟨m, hlog, -, hnone, -⟩ := hgrant.log
    · rw [hlog]
      exact hkept
    · rw [hlog]
      exact List.forall_mem_append.2 ⟨hkept, List.forall_mem_singleton.2 hnone⟩
  · obtain hlog | ⟨m, hlog, hsome, -, -⟩ := hgrant.log
    · rw [hlog]
      exact h.once
    · rw [hlog, List.map_append, List.nodup_append]
      refine ⟨h.once, List.nodup_singleton _, ?_⟩
      intro id hid id' hid' heq
      obtain ⟨e, he, hide⟩ := List.mem_map.1 hid
      have hnew : id' = c.proof.grant.grantId := by simpa [CommitCall.consumption] using hid'
      have := h.taken e he
      rw [hide, heq, hnew, hsome] at this
      cases this

theorem GrantInvariant.event {n : Nat} {w w' : World} (h : GrantInvariant k n w)
    (hevent : GrantEvent k (LeftoverConsumed k) w w') : GrantInvariant k n w' := by
  cases hevent with
  | call c clock r meets runs => exact h.call meets runs
  | issue id m unused =>
    refine ⟨h.phase, h.covered, h.sound, fun e he => ?_, h.once⟩
    rw [KeyMap.get?_insert, if_neg (unused e he)]
    exact h.taken e he
  | lose keep =>
    refine ⟨h.phase, h.covered, h.sound, fun e he => ?_, h.once⟩
    cases hget : (w.grants.retain keep).get? e.proof.grant.grantId with
    | none => rfl
    | some m =>
      have := (KeyMap.get?_retain.1 hget).1
      rw [h.taken e he] at this
      cases this
  | regate gate => exact ⟨h.phase, h.covered, h.sound, h.taken, h.once⟩

theorem GrantInvariant.authorised {n : Nat} {w : World} (h : GrantInvariant k n w) : Authorised k n w where
  covered row hrow hphase hn := by
    obtain ⟨e, he, hauth⟩ := h.covered row hrow hn (.inl hphase)
    exact ⟨e, he, hauth, h.sound e he⟩
  oneGrant row _ row' _ e he e' he' hauth hauth' hid := by
    have : e = e' := List.inj_on_of_nodup_map h.once he he' hid
    subst this
    rw [hauth.2, hauth'.2]
  oneProof row _ row' _ e he e' he' hauth hauth' hproof := by
    have hp := (validateExtensionControlProof_eq_ok (h.sound e he).proof).1
    have hp' := (validateExtensionControlProof_eq_ok (h.sound e' he').proof).1
    rw [hauth.2, hauth'.2, ← hp, ← hp', hproof]

/-- **Every change has its grant**: from a protected authority, in every history in which a call that finds its
transition prepared and its proof recorded finds that a grant was consumed for them. -/
theorem changes_authorised {rows : List TransitionRow} {s : SnapshotRow} {w₀ w : World} (hchain : Chain k rows s)
    (hledger : w₀.ledger = ⟨some s, rows, some ⟨s.revision, s.snapshot.digest, .committed⟩⟩)
    (hfresh : w₀.consumptions = [])
    (hrun : Relation.ReflTransGen (GrantEvent k (LeftoverConsumed k)) w₀ w) : Authorised k s.revision w := by
  have hstart : GrantInvariant k s.revision w₀ := by
    refine ⟨hledger ▸ .settled hchain, ?_, by simp [hfresh], by simp [hfresh], by simp [hfresh]⟩
    rw [hledger]
    intro row hrow hn
    have := hchain.revision_le hrow
    omega
  have hinv : GrantInvariant k s.revision w := by
    induction hrun with
    | refl => exact hstart
    | tail _ event ih => exact ih.event event
  exact hinv.authorised

/-! ## A grant that does not exist -/

def sampleKeys : Keys where
  snapshot := ⟨fun r => "snapshot " ++ toString r.revision, fun r => "snapshot mac " ++ toString r.revision⟩
  transition := ⟨fun r => "transition " ++ toString r.revision, fun r => "transition mac " ++ toString r.revision⟩
  manifest := ⟨fun r => "manifest " ++ r.catalogDigest, fun r => "manifest mac " ++ r.catalogDigest⟩
  activation := ⟨fun r => "activation " ++ r.bundleHash, fun r => "activation mac " ++ r.bundleHash⟩
  managedRevision := ⟨fun n => "managed " ++ toString n, fun n => "managed mac " ++ toString n⟩
  privateHash _ value := "private " ++ value
  mutationDigest m := "mutation " ++ m.nonce

def sampleCatalog : String := String.ofList (List.replicate 64 'a')

def sampleClock : Clock := ⟨"2026-01-01T00:00:00+00:00", 0⟩

def sampleEnrolled : World :=
  let empty : World := ⟨Database.empty, none, 0, ⟨"/home", false, false, 0⟩, KeyMap.empty, []⟩
  (enrollExtensionControlAuthority sampleKeys sampleCatalog sampleClock.stamp empty []).2.1

def sampleCall : CommitCall where
  layers := [⟨"1.0.0", .localAdmin, sampleCatalog, true, []⟩]
  catalogDigest := sampleCatalog
  actorId := "someone"
  expectedRevision := 0
  idempotencyKey := "key"
  nonce := "nonce"
  proof :=
    { proofId := String.ofList (List.replicate 64 '0')
      grant := ⟨"forged", ⟨"", "", "", "", "", [], false, false, false, false⟩, 0⟩
      actorId := "someone"
      previousRevision := 0
      catalogDigest := sampleCatalog
      canonicalDiffDigest := "mutation nonce"
      idempotencyKey := "key"
      nonce := "nonce"
      sessionNonce := "session" }

def sampleOnce : World := (commitExtensionControlLayers sampleKeys sampleCall sampleClock sampleEnrolled []).2.1

def sampleTwice : World := (commitExtensionControlLayers sampleKeys sampleCall sampleClock sampleOnce []).2.1

/-- **The second call commits without a grant.**  The first is refused, and leaves its transition prepared. -/
theorem forged_grant_commits :
    Relation.ReflTransGen (GrantEvent sampleKeys fun _ _ => True) sampleEnrolled sampleTwice ∧
      sampleEnrolled.consumptions = [] ∧ sampleTwice.consumptions = [] ∧ ¬ Authorised sampleKeys 0 sampleTwice := by
  have hempty : sampleTwice.consumptions = [] := by decide +kernel
  have hcommitted : ∃ row ∈ sampleTwice.db.transitions, row.phase = .committed ∧ 0 < row.revision := by decide +kernel
  refine ⟨?_, by decide +kernel, hempty, fun h => ?_⟩
  · exact (Relation.ReflTransGen.single (.call sampleCall sampleClock _ trivial ⟨[], rfl, rfl⟩)).tail
      (.call sampleCall sampleClock _ trivial ⟨[], rfl, rfl⟩)
  · obtain ⟨row, hrow, hphase, hn⟩ := hcommitted
    obtain ⟨e, he, -⟩ := h.covered row hrow hphase hn
    rw [hempty] at he
    cases he

/-! ## A grant that is consumed -/

def sampleFields : GrantFields where
  purpose := "extension_control_mutation"
  action := "commit-layers"
  scope := "extension-control-authority"
  subject := "mutation nonce"
  sessionNonce := "session"
  factorSet := ["password"]
  strict := true
  usedCooldown := false
  passwordVerified := true
  totpVerified := false

def sampleApproved : CommitCall :=
  { sampleCall with proof := { sampleCall.proof with grant := ⟨"grant", sampleFields, 10⟩ } }

def sampleIssued : World :=
  { sampleEnrolled with grants := sampleEnrolled.grants.insert "grant" ⟨"/home", 10, sampleFields, 0⟩ }

def sampleCommitted : World := (commitExtensionControlLayers sampleKeys sampleApproved sampleClock sampleIssued []).2.1

/-- The same call, stopped after the grant was consumed and before the anchor was written. -/
def sampleInterrupted : World :=
  (commitExtensionControlLayers sampleKeys sampleApproved sampleClock sampleIssued [.done, .done, .lost]).2.1

def sampleRetried : World :=
  (commitExtensionControlLayers sampleKeys sampleApproved sampleClock sampleInterrupted []).2.1

/-- The retry takes the leftover for a consumed proof, rightly, and commits. -/
theorem approved_change_authorised :
    sampleApproved.Retries sampleKeys sampleInterrupted ∧ sampleApproved.Consumed sampleKeys sampleInterrupted ∧
    (∃ row ∈ sampleRetried.db.transitions, row.phase = .committed ∧ 0 < row.revision) ∧
      Authorised sampleKeys 0 sampleRetried := by
  have hfresh : sampleEnrolled.consumptions = [] := by decide +kernel
  have hissue : GrantEvent sampleKeys (LeftoverConsumed sampleKeys) sampleEnrolled sampleIssued := by
    refine .issue "grant" ⟨"/home", 10, sampleFields, 0⟩ fun e he => ?_
    rw [hfresh] at he
    cases he
  have hstopped : GrantEvent sampleKeys (LeftoverConsumed sampleKeys) sampleIssued sampleInterrupted := by
    refine .call sampleApproved sampleClock _ (fun hretries => ?_) ⟨[.done, .done, .lost], rfl, rfl⟩
    exact absurd hretries.1 (by decide +kernel)
  have hconsumed : sampleApproved.Consumed sampleKeys sampleInterrupted :=
    ⟨sampleApproved.consumption ⟨"/home", 10, sampleFields, 0⟩ sampleClock, by decide +kernel, rfl⟩
  have hretry : GrantEvent sampleKeys (LeftoverConsumed sampleKeys) sampleInterrupted sampleRetried :=
    .call sampleApproved sampleClock _ (fun _ => hconsumed) ⟨[], rfl, rfl⟩
  refine ⟨by unfold CommitCall.Retries; decide +kernel, hconsumed, by decide +kernel, ?_⟩
  exact @changes_authorised sampleKeys [] (bootstrapSnapshot sampleKeys sampleCatalog sampleClock.stamp)
    sampleEnrolled _
    (.boot rfl rfl rfl) (by decide +kernel) hfresh (((Relation.ReflTransGen.single hissue).tail hstopped).tail hretry)

end ControlAuthority
end Guard
