import HolGuard.ControlAuthority.Commit
/-!
# Bootstrap, migration and recovery

The rules for the operations that are not commits.  Each moves the ledger by steps, and a view that it reports as
protected is that of the snapshot that is stored when it ends.
-/
namespace Guard
namespace ControlAuthority

open Lib (Faulty)
open Lib.Faulty (Runs after_bind after_lift after_pure after_refuse after_write runs_get_bind runs_pure)

variable {k : Keys} {R : Rights}

def Rights.transitions : Rights := ⟨fun _ _ => True, fun _ _ => True, False⟩

def Rights.all : Rights := ⟨fun _ _ => True, fun _ _ => True, True⟩

theorem Keeps.rfl' (w : World) : Keeps w w := ⟨rfl, rfl, rfl, rfl, rfl⟩

/-- How an operation ends: it has moved the ledger by steps, and its answer is as `P` says. -/
structure Ends (k : Keys) (R : Rights) (P : ExtensionControlAuthorityView → World → Prop) (w : World)
    (r : Except String ExtensionControlAuthorityView) (w' : World) : Prop where
  keeps : Keeps w w'
  steps : Steps k R w.ledger w'.ledger
  view : ∀ v, r = .ok v → P v w'

/-- The view is that of the stored snapshot, which is protected. -/
def Shows (k : Keys) (catalogDigest : String) (v : ExtensionControlAuthorityView) (w : World) : Prop :=
  ∃ s, Protects k catalogDigest w s ∧ v = protectedView s

/-- What the operation reports as protected is the snapshot that it leaves stored. -/
abbrev Reports (k : Keys) (R : Rights) (catalogDigest : String) :=
  Ends k R fun v w => v.health = .isProtected → Shows k catalogDigest v w

namespace Ends

variable {P : ExtensionControlAuthorityView → World → Prop} {w v w' : World}
    {r : Except String ExtensionControlAuthorityView}

theorem of_error {e : String} (hkeep : Keeps w w') (hsteps : Steps k R w.ledger w'.ledger) :
    Ends k R P w (.error e) w' :=
  ⟨hkeep, hsteps, nofun⟩

theorem before (hkeep : Keeps w v) (hsteps : Steps k R w.ledger v.ledger) (h : Ends k R P v r w') :
    Ends k R P w r w' :=
  ⟨hkeep.trans h.keeps, hsteps.trans h.steps, h.view⟩

theorem idle {e : String} : Ends k R P w (.error e) w :=
  .of_error (.rfl' w) .refl

theorem answers {x : ExtensionControlAuthorityView} (h : P x w) : Ends k R P w (.ok x) w := by
  refine ⟨.rfl' w, .refl, fun y hy => ?_⟩
  cases hy
  exact h

theorem of_invalidate {f : Unit → Op ExtensionControlAuthorityView}
    (h : Runs (invalidateNativeExtensionControlPolicy >>= f) w r w')
    (hrest : ∀ v, v.ledger = w.ledger → Runs (f ()) v r w' → Ends k R P v r w') :
    Ends k R P w r w' := by
  obtain ⟨v, hledger, hkeep, ⟨rfl, rfl⟩ | hruns⟩ := runs_invalidate_bind h
  · exact .of_error hkeep.toKeeps (by rw [hledger])
  · exact .before hkeep.toKeeps (by rw [hledger]) (hrest v hledger hruns)

theorem of_transact {g : Database → Database} {f : Unit → Op ExtensionControlAuthorityView}
    (h : Runs (transact g >>= f) w r w') (hkeep : Keeps w (w.updateDb g))
    (hsteps : Steps k R w.ledger (w.updateDb g).ledger)
    (hrest : Runs (f ()) (w.updateDb g) r w' → Ends k R P (w.updateDb g) r w') :
    Ends k R P w r w' :=
  after_write h .idle (.of_error hkeep hsteps) fun h => .before hkeep hsteps (hrest h)

theorem of_anchor {a : AuthorityAnchor} {f : Unit → Op ExtensionControlAuthorityView}
    (h : Runs (writeAndVerifyAnchor a >>= f) w r w') (hsteps : Steps k R w.ledger (w.setAnchor a).ledger)
    (hrest : Runs (f ()) (w.setAnchor a) r w' → Ends k R P (w.setAnchor a) r w') :
    Ends k R P w r w' :=
  have hkeep : Keeps w (w.setAnchor a) := ⟨rfl, rfl, rfl, rfl, rfl⟩
  after_write h .idle (.of_error hkeep hsteps) fun h => .before hkeep hsteps (hrest h)

end Ends

variable {catalogDigest : String} {w w' : World} {r : Except String ExtensionControlAuthorityView}

theorem reports_read (h : Runs (readExtensionControlAuthority k catalogDigest) w r w') :
    Reports k R catalogDigest w r w' := by
  obtain ⟨rfl, rfl | ⟨v, rfl, hview, -⟩⟩ := runs_read h
  · exact .idle
  · exact .answers hview

variable {s : SnapshotRow}

theorem ends_read (hprotects : Protects k catalogDigest w s)
    (h : Runs (readExtensionControlAuthority k catalogDigest) w r w') :
    Ends k R (Shows k catalogDigest) w r w' := by
  obtain ⟨rfl, rfl | ⟨v, rfl, -, hall⟩⟩ := runs_read h
  · exact .idle
  · exact .answers ⟨s, hprotects, hall s hprotects⟩

/-! ## Bootstrap and reset -/

theorem chain_bootstrap (catalogDigest stamp : String) : Chain k [] (bootstrapSnapshot k catalogDigest stamp) :=
  .boot rfl rfl rfl

variable {stamp : String}

/-- From a vacant ledger a first snapshot is stored, and then confirmed by the anchor. -/
theorem reports_bootstrap (hrows : w.db.snapshot = none → w.db.transitions = [])
    (h : Runs (bootstrapExtensionControlAuthority k catalogDigest stamp) w r w') :
    Reports k R catalogDigest w r w' := by
  unfold bootstrapExtensionControlAuthority at h
  refine .of_invalidate h fun v hledger h => ?_
  refine after_refuse (runs_get_bind h) (fun _ => .idle) fun hnone h => ?_
  have hvacant : v.ledger = ⟨none, [], v.anchor⟩ := by
    obtain ⟨hs, hrows', -⟩ := World.ledger_eq (w := v) (hledger : v.ledger = ⟨_, _, _⟩)
    rw [Option.not_isSome_iff_eq_none] at hnone
    simp only [World.ledger, hrows', hrows (hs.symm.trans hnone), hnone]
  have hchain := chain_bootstrap (k := k) catalogDigest stamp
  have hstored : (v.updateDb fun db => { db with snapshot := some (bootstrapSnapshot k catalogDigest stamp) }).ledger =
      ⟨some (bootstrapSnapshot k catalogDigest stamp), [], v.anchor⟩ := by
    simp only [World.ledger, World.updateDb_db, World.updateDb_anchor, (World.ledger_eq hvacant).2.1]
  refine .of_transact h ⟨rfl, rfl, rfl, rfl, rfl⟩ ?_ fun h => ?_
  · rw [hvacant, hstored]
    exact .single (.boot hchain _)
  generalize v.updateDb _ = v₁ at hstored h
  obtain ⟨hs₁, hrows₁, -⟩ := World.ledger_eq hstored
  have hsettled : (v₁.setAnchor ⟨0, (bootstrapSnapshot k catalogDigest stamp).snapshot.digest, .committed⟩).ledger =
      ⟨some (bootstrapSnapshot k catalogDigest stamp), [],
        some ⟨0, (bootstrapSnapshot k catalogDigest stamp).snapshot.digest, .committed⟩⟩ := by
    simp only [World.ledger, World.setAnchor_db, World.setAnchor_anchor, hs₁, hrows₁]
  refine .of_anchor h ?_ fun h => ?_
  · rw [hstored, hsettled]
    exact .single (.confirm hchain _)
  exact after_pure h (.answers fun _ => ⟨_, protects_of_settled hchain hsettled, rfl⟩)

theorem reports_reset {reason : String} (hreset : R.reset)
    (h : Runs (resetExtensionControlAuthority k catalogDigest reason stamp) w r w') :
    Reports k R catalogDigest w r w' := by
  unfold resetExtensionControlAuthority at h
  refine .of_invalidate h fun v _ hclear => ?_
  refine .of_transact hclear ⟨rfl, rfl, rfl, rfl, rfl⟩ (.single (.clear hreset v.ledger)) fun hboot => ?_
  exact reports_bootstrap (fun _ => rfl) hboot

theorem Phase.transitions_of_vacant (h : Phase k w.ledger) (hs : w.db.snapshot = none) :
    w.db.transitions = [] := by
  generalize hL : w.ledger = L at h
  cases h <;> obtain ⟨hs', hrows, -⟩ := World.ledger_eq hL <;> cases hs'.symm.trans hs
  exact hrows

theorem reports_enroll (hphase : Phase k w.ledger)
    (h : Runs (enrollExtensionControlAuthority k catalogDigest stamp) w r w') :
    Reports k R catalogDigest w r w' := by
  unfold enrollExtensionControlAuthority at h
  refine after_read h .idle fun _ _ _ h => ?_
  exact after_refuse h (fun _ => .idle) fun _ h => reports_bootstrap hphase.transitions_of_vacant h

/-! ## Migration -/

/-- A migration from a protected authority prepares, anchors and installs one transition. -/
theorem ends_migrate {previous : ExtensionControlAuthorityView} {registry : Registry}
    (hprepare : ∀ s row, R.prepare s row) (hanchor : ∀ s row, R.anchor s row)
    (hphase : Phase k w.ledger) (hprotects : Protects k previous.catalogDigest w s)
    (hprevious : previous = protectedView s)
    (h : Runs (migrateExtensionControlCatalog k previous registry stamp) w r w') :
    Ends k R (Shows k registry.catalogDigest) w r w' := by
  unfold migrateExtensionControlCatalog at h
  refine .of_invalidate h fun v hledger h => ?_
  obtain ⟨rows, hchain, hsettled⟩ := settled_of_protects hphase hprotects
  rw [← hledger] at hsettled
  obtain ⟨hs, hrows, ha⟩ := World.ledger_eq hsettled
  refine after_lift (runs_get_bind h) (fun _ _ => .idle) fun manifest _ h => ?_
  simp only at h
  generalize rebindLayers _ _ _ _ = layers at h
  refine after_lift h (fun _ _ => .idle) fun _ hvalid h => ?_
  refine after_lift h (fun _ _ => .idle) fun _ hsize h => ?_
  simp only [hs] at h
  refine after_refuse h (fun _ => .idle) fun _ h => ?_
  have hrevision : previous.revision = s.revision := by rw [hprevious]; rfl
  generalize hrow : (migrationTransition k previous registry.catalogDigest layers s.snapshot.digest stamp).row k = row
    at h
  have hfollows : Follows k s row := by
    rw [← hrow]
    exact ⟨by rw [← hrevision]; rfl, by rw [← hrevision]; rfl, rfl, rfl, hsize, hvalid⟩
  have hprepared : row.phase = .prepared := by rw [← hrow]; rfl
  refine after_refuse h (fun _ => .idle) fun _ h => ?_
  have hledger₁ : (v.updateDb (Database.insertTransition row)).ledger =
      ⟨some s, rows ++ [row], some (s.anchor .committed)⟩ := by
    simp [World.ledger, Database.insertTransition, hs, hrows, ha]
  refine .of_transact h ⟨rfl, rfl, rfl, rfl, rfl⟩ ?_ fun h => ?_
  · rw [hsettled, hledger₁]
    exact .single (.prepare hchain hprepared hfollows (hprepare s row))
  generalize v.updateDb _ = v₁ at hledger₁ h
  obtain ⟨hs₁, hrows₁, -⟩ := World.ledger_eq hledger₁
  have hledger₂ : (v₁.setAnchor (row.anchor .anchored)).ledger =
      ⟨some s, rows ++ [row], some (row.anchor .anchored)⟩ := by
    simp [World.ledger, hs₁, hrows₁]
  refine .of_anchor h ?_ fun h => ?_
  · rw [hledger₁, hledger₂]
    exact .single (.anchor hchain hprepared hfollows (hanchor s row))
  generalize v₁.setAnchor _ = v₂ at hledger₂ h
  refine after_refuse h (fun hbad => absurd hrevision.symm hbad) fun _ h => ?_
  have hledger₃ := map_install hchain hfollows hledger₂
  refine .of_transact h ⟨rfl, rfl, rfl, rfl, rfl⟩ ?_ fun h => ?_
  · rw [hledger₂, hledger₃]
    exact .single (.install _ hchain hprepared hfollows)
  generalize v₂.updateDb _ = v₃ at hledger₃ h
  obtain ⟨hs₃, hrows₃, -⟩ := World.ledger_eq hledger₃
  have hchain₃ := hchain.commit hfollows row.createdAt
  have hledger₄ : (v₃.setAnchor (row.anchor .committed)).ledger =
      ⟨some (row.toSnapshot s.snapshot.digest), rows ++ [row.commit row.createdAt],
        some (row.anchor .committed)⟩ := by
    rw [World.ledger, World.setAnchor_db, World.setAnchor_anchor, hs₃, hrows₃]
  refine .of_anchor h ?_ fun h => ?_
  · rw [hledger₃, hledger₄]
    exact .single (.finish hchain₃)
  have hcatalog : row.catalogDigest = registry.catalogDigest := by rw [← hrow]; rfl
  rw [← hcatalog] at h ⊢
  exact ends_read (protects_of_settled hchain₃ hledger₄) h

/-! ## Reading with a registry -/

/-- A resumed transition answers for the stored snapshot, if the caller brings no protected view of its own. -/
theorem Resumed.view {q : ResumeRequest} {row : TransitionRow} {current : ExtensionControlAuthorityView}
    {r : Except String (Option ExtensionControlAuthorityView)}
    (h : Resumed k R q row current w r w') (hcurrent : current.health ≠ .isProtected)
    {v : ExtensionControlAuthorityView} (hr : r = .ok (some v)) :
    ∃ s, Protects k row.catalogDigest w' s ∧ v = protectedView s := by
  obtain ⟨hone | ⟨-, hbad⟩, -⟩ := h.completed v hr
  · exact hone
  · exact absurd hbad hcurrent

theorem runs_resumeMigration {registry : Registry}
    {r : Except String (Option ExtensionControlAuthorityView)} (hphase : Phase k w.ledger)
    (h : Runs (resumeMigration k w.db s registry stamp) w r w') :
    Keeps w w' ∧ Steps k R w.ledger w'.ledger ∧ ∀ v, r = .ok (some v) →
      ∃ s, Protects k registry.catalogDigest w' s ∧ v = protectedView s := by
  have hnone : Runs (pure none : Op (Option ExtensionControlAuthorityView)) w r w' → Keeps w w' ∧
      Steps k R w.ledger w'.ledger ∧ ∀ v, r = .ok (some v) →
        ∃ s, Protects k registry.catalogDigest w' s ∧ v = protectedView s := by
    intro hpure
    exact after_pure hpure ⟨.rfl' _, .refl, nofun⟩
  unfold resumeMigration at h
  split at h
  · exact hnone h
  · rename_i pending hpending
    by_cases hcatalog : pending.catalogDigest = registry.catalogDigest
    · rw [if_pos hcatalog] at h
      have hspec := runs_resume_spec (R := R) hphase (List.mem_of_find?_eq_some hpending) h
      refine ⟨hspec.keeps.toKeeps, hspec.steps, fun v hv => ?_⟩
      rw [← hcatalog]
      exact hspec.view (by simp) hv
    · rw [if_neg hcatalog] at h
      exact hnone h

theorem reports_migrateFrom {registry : Registry} (hprepare : ∀ s row, R.prepare s row)
    (hanchor : ∀ s row, R.anchor s row) (hphase : Phase k w.ledger)
    (h : Runs (migrateFrom k catalogDigest registry stamp) w r w') :
    Reports k R registry.catalogDigest w r w' := by
  unfold migrateFrom at h
  refine after_read h .idle fun previous hview _ h => ?_
  refine after_refuse h (fun _ => .idle) fun hhealth h => ?_
  obtain ⟨s, hprotects, hprevious⟩ := hview (not_not.1 hhealth)
  have hcatalog : previous.catalogDigest = catalogDigest := by rw [hprevious]; exact hprotects.catalog
  have hends := ends_migrate hprepare hanchor hphase (hcatalog ▸ hprotects) hprevious h
  exact ⟨hends.keeps, hends.steps, fun v hv _ => hends.view v hv⟩

theorem reports_readOtherCatalog {registry : Registry} (hprepare : ∀ s row, R.prepare s row)
    (hanchor : ∀ s row, R.anchor s row) (hphase : Phase k w.ledger)
    (h : Runs (readOtherCatalog k w.db s registry stamp) w r w') :
    Reports k R registry.catalogDigest w r w' := by
  unfold readOtherCatalog at h
  refine after_bind h (fun e v hresume => ?_) fun resumed v hresume h => ?_
  · obtain ⟨hkeep, hsteps, -⟩ := runs_resumeMigration (R := R) hphase hresume
    exact .of_error hkeep hsteps
  obtain ⟨hkeep, hsteps, hview⟩ := runs_resumeMigration (R := R) hphase hresume
  refine .before hkeep hsteps ?_
  split at h
  · rename_i view hfilter
    obtain ⟨rfl, rfl⟩ := runs_pure h
    have hresumed : resumed = some view := (Option.filter_eq_some_iff.1 hfilter).1
    exact .answers fun _ => hview view (by rw [hresumed])
  · exact reports_migrateFrom hprepare hanchor (hsteps.phase hphase) h

variable {registry : Option Registry}

/-- **The rule for reads with a registry.** -/
theorem reports_readWithRegistry (hprepare : ∀ s row, R.prepare s row)
    (hanchor : ∀ s row, R.anchor s row) (hphase : Phase k w.ledger)
    (h : Runs (readWithRegistry k catalogDigest registry stamp) w r w') :
    Reports k R catalogDigest w r w' := by
  unfold readWithRegistry at h
  replace h := runs_get_bind h
  split at h
  · split at h
    · rename_i hother
      rw [← hother.2] at h ⊢
      obtain ⟨hread, -⟩ | ⟨e, v, -, hread, hpure⟩ := Faulty.runs_rescue h
      · exact reports_readOtherCatalog hprepare hanchor hphase hread
      · have hreport := reports_readOtherCatalog hprepare hanchor hphase hread
        exact after_pure hpure (.before hreport.keeps hreport.steps (.answers nofun))
    · exact reports_read h
  · exact reports_read h

/-! ## Recovery -/

theorem reports_recoverAnchored (hphase : Phase k w.ledger)
    (h : Runs (recoverAnchored k catalogDigest registry stamp s) w r w') :
    Reports k Rights.all catalogDigest w r w' := by
  unfold recoverAnchored at h
  replace h := runs_get_bind h
  split at h
  · exact reports_reset trivial h
  · have hread : ∀ {r w'}, Runs (do
        let recovered ← readWithRegistry k catalogDigest registry stamp
        if recovered.health = .isProtected then pure recovered
        else resetExtensionControlAuthority k catalogDigest "authenticated-recovery-unverifiable" stamp) w r w' →
        Reports k Rights.all catalogDigest w r w' := by
      intro r w' h
      refine after_bind h (fun e v hread => ?_) fun view v hread h => ?_
      · have hreport :=
          reports_readWithRegistry (R := Rights.all) (fun _ _ => trivial) (fun _ _ => trivial) hphase hread
        exact .of_error hreport.keeps hreport.steps
      have hreport := reports_readWithRegistry (R := Rights.all) (fun _ _ => trivial) (fun _ _ => trivial) hphase hread
      refine .before hreport.keeps hreport.steps ?_
      by_cases hhealth : view.health = .isProtected
      · simp only [hhealth, if_true] at h
        exact after_pure h (.answers fun _ => hreport.view _ rfl hhealth)
      · simp only [hhealth, if_false] at h
        exact reports_reset trivial h
    by_cases hzero : 0 < s.revision
    · simp only [hzero, if_true] at h
      exact after_write h .idle .idle hread
    · simp only [hzero, if_false] at h
      exact hread h

theorem Phase.steps_complete {anchor : AuthorityAnchor} (h : Phase k w.ledger)
    (hs : w.db.snapshot = some s) (ha : w.anchor = some anchor)
    (hrevision : anchor.revision = s.revision) (hphase : anchor.phase ≠ .committed) :
    Steps k R w.ledger (w.setAnchor (s.anchor .committed)).ledger := by
  have hset : (w.setAnchor (s.anchor .committed)).ledger =
      ⟨some s, w.db.transitions, some (s.anchor .committed)⟩ := by
    simp only [World.ledger, World.setAnchor_db, World.setAnchor_anchor, hs]
  rw [hset]
  generalize hL : w.ledger = L at h
  cases h <;> obtain ⟨hs', hrows, ha'⟩ := World.ledger_eq hL <;> cases hs'.symm.trans hs
  case booted anchor chain =>
    rw [hrows]
    exact .single (.confirm chain _)
  case settled | prepared =>
    cases ha'.symm.trans ha
    exact absurd rfl hphase
  case anchored row phase chain follows =>
    cases ha'.symm.trans ha
    have := follows.revision
    simp only at hrevision
    omega
  case installed chain =>
    rw [hrows]
    exact .single (.finish chain)

theorem reports_recoverUnresumed {anchor : AuthorityAnchor} (hphase : Phase k w.ledger)
    (hs : w.db.snapshot = some s) (ha : w.anchor = some anchor)
    (h : Runs (recoverUnresumed k catalogDigest registry stamp s anchor) w r w') :
    Reports k Rights.all catalogDigest w r w' := by
  unfold recoverUnresumed at h
  by_cases hnames : anchor.revision = s.revision ∧ anchor.snapshotDigest = s.snapshot.digest
  · rw [if_pos hnames] at h
    by_cases hcommitted : anchor.phase ≠ .committed
    · rw [if_pos hcommitted] at h
      have hsteps := hphase.steps_complete (R := Rights.all) hs ha hnames.1 hcommitted
      exact .of_anchor h hsteps fun hrest => reports_recoverAnchored (hsteps.phase hphase) hrest
    · rw [if_neg hcommitted] at h
      exact reports_recoverAnchored hphase h
  · rw [if_neg hnames] at h
    exact reports_reset trivial h

theorem mem_of_recoverable {db : Database} {revision : Nat} {row : TransitionRow}
    (h : recoverable db revision = some row) : row ∈ db.transitions := by
  unfold recoverable at h
  have hmem := List.mem_of_head? h
  exact List.mem_mergeSort.1 (List.mem_filter.1 hmem).1

theorem runs_resumeRecoverable {r : Except String (Option ExtensionControlAuthorityView)}
    (hphase : Phase k w.ledger) (hs : w.db.snapshot = some s)
    (h : Runs (resumeRecoverable k w.db catalogDigest stamp s) w r w') :
    Keeps w w' ∧ Steps k R w.ledger w'.ledger ∧
      (r = .ok none → w'.db.snapshot = some s ∧ w'.anchor = w.anchor) ∧
      ∀ v, r = .ok (some v) → ∃ catalog t, Protects k catalog w' t ∧ v = protectedView t := by
  unfold resumeRecoverable at h
  split at h
  · exact after_pure h ⟨.rfl' _, .refl, fun _ => ⟨hs, rfl⟩, nofun⟩
  · rename_i pending hpending
    have hspec := runs_resume_spec (R := R) hphase (mem_of_recoverable hpending) h
    refine ⟨hspec.keeps.toKeeps, hspec.steps, fun hr => ?_, fun v hv => ⟨_, hspec.view (by simp) hv⟩⟩
    obtain ⟨rows, t, -, -, -, -, hbefore, hafter⟩ := hspec.withdrawn hr
    obtain ⟨hs', -, ha'⟩ := World.ledger_eq hbefore
    obtain ⟨hs'', -, ha''⟩ := World.ledger_eq hafter
    exact ⟨by rw [hs'', ← hs', hs], by rw [ha'', ha']⟩

/-- **The rule for recoveries.**  A view that it reports as protected is the stored snapshot's, of the catalog asked for
or of the transition that was resumed. -/
theorem reports_recover (hphase : Phase k w.ledger)
    (h : Runs (recoverExtensionControlAuthority k catalogDigest registry stamp) w r w') :
    ∃ catalog, Reports k Rights.all catalog w r w' := by
  unfold recoverExtensionControlAuthority at h
  obtain ⟨v, hledger, hkeep, ⟨rfl, rfl⟩ | h⟩ := runs_invalidate_bind h
  · exact ⟨catalogDigest, .of_error hkeep.toKeeps (by rw [hledger])⟩
  suffices ∃ catalog, Reports k Rights.all catalog v r w' by
    obtain ⟨catalog, hreport⟩ := this
    exact ⟨catalog, .before hkeep.toKeeps (by rw [hledger]) hreport⟩
  rw [← hledger] at hphase
  replace h := runs_get_bind h
  split at h
  · rename_i s anchor hs ha
    unfold recoverFrom at h
    refine after_bind h (fun e t hresume => ?_) fun resumed t hresume h => ?_
    · obtain ⟨hkeep', hsteps, -, -⟩ := runs_resumeRecoverable (R := Rights.all) hphase hs hresume
      exact ⟨catalogDigest, .of_error hkeep' hsteps⟩
    obtain ⟨hkeep', hsteps, hnone, hsome⟩ := runs_resumeRecoverable (R := Rights.all) hphase hs hresume
    cases resumed with
    | none =>
      obtain ⟨hs', ha'⟩ := hnone rfl
      exact ⟨catalogDigest,
        .before hkeep' hsteps (reports_recoverUnresumed (hsteps.phase hphase) hs' (ha'.trans ha) h)⟩
    | some view =>
      obtain ⟨catalog, t', hprotects, rfl⟩ := hsome view rfl
      exact after_pure h ⟨catalog, .before hkeep' hsteps (.answers fun _ => ⟨t', hprotects, rfl⟩)⟩
  · exact ⟨catalogDigest, reports_reset trivial h⟩

end ControlAuthority
end Guard
