import HolGuard.ControlAuthority.ManagedRules
import HolGuard.ControlAuthority.CrashAtomic
import HolGuard.Policy.CommandFloor
/-!
# A revision pair names one set of controls

Commits and migrations number the local controls, activations and clears the managed ones.  Along a history without a
reset both numbers only grow, and while they stay the controls stay, as long as no read brings another fingerprint for a
target that the active bundle enables under a catalog digest whose manifest is recorded already.
-/
namespace Guard
namespace ControlAuthority

open Lib (Faulty KeyMap)
open Lib.Faulty (Runs after_lift after_write runs_get_bind runs_pure)
open Contracts (NativeCommandControlAuthorityV1)

variable {k : Keys}

/-! ## The local number -/

/-- The snapshot of the second ledger is the first one's, or of a later revision. -/
def Later (L L' : Ledger) : Prop :=
  ∀ s, L.snapshot = some s →
    ∃ s', L'.snapshot = some s' ∧ s.revision ≤ s'.revision ∧ (s.revision = s'.revision → s' = s)

theorem Later.rfl' (L : Ledger) : Later L L := fun s hs => ⟨s, hs, le_rfl, fun _ => rfl⟩

theorem Later.trans {L L' L'' : Ledger} (h : Later L L') (g : Later L' L'') : Later L L'' := by
  intro s hs
  obtain ⟨s', hs', hle, heq⟩ := h s hs
  obtain ⟨s'', hs'', hle', heq'⟩ := g s' hs'
  refine ⟨s'', hs'', hle.trans hle', fun hsame => ?_⟩
  have hfirst : s.revision = s'.revision := by omega
  rw [heq' (hfirst ▸ hsame), heq hfirst]

/-- A step that is not a reset keeps the snapshot, or installs the next one. -/
theorem Step.later {R : Rights} {L L' : Ledger} (hreset : ¬ R.reset) (h : Step k R L L') : Later L L' := by
  cases h with
  | prepare => exact fun s hs => ⟨s, hs, le_rfl, fun _ => rfl⟩
  | withdraw => exact fun s hs => ⟨s, hs, le_rfl, fun _ => rfl⟩
  | anchor => exact fun s hs => ⟨s, hs, le_rfl, fun _ => rfl⟩
  | install at_ chain phase follows =>
    intro s hs
    cases hs
    have hnext := follows.revision
    refine ⟨_, rfl, ?_, fun heq => ?_⟩
    · simp only [TransitionRow.toSnapshot]
      omega
    · simp only [TransitionRow.toSnapshot] at heq
      omega
  | finish => exact fun s hs => ⟨s, hs, le_rfl, fun _ => rfl⟩
  | clear allowed => exact absurd allowed hreset
  | boot => exact fun s hs => by cases hs
  | confirm => exact fun s hs => ⟨s, hs, le_rfl, fun _ => rfl⟩

theorem Steps.later {R : Rights} {L L' : Ledger} (hreset : ¬ R.reset) (h : Steps k R L L') : Later L L' := by
  induction h with
  | refl => exact .rfl' L
  | tail _ step ih => exact ih.trans (step.later hreset)

/-! ## The managed number -/

/-- What the managed controls of every bundle parse to, under the built-in catalog of that digest. -/
abbrev Parsing := String → String → ParsedManagedControlsPolicy

/-- The managed states that activations and clears leave behind. -/
inductive ManagedSound (k : Keys) (parse : Parsing) : ManagedState → Prop
  | unmanaged : ManagedSound k parse ⟨none, none⟩
  | cleared (n : Nat) (pos : 1 ≤ n) : ManagedSound k parse ⟨none, some (k.managedRevision.authenticate n)⟩
  | active (record : ActivationRecord) (pos : 1 ≤ record.extensionAuthorityRevision)
      (layers : record.signedCloudLayers = (parse record.catalogDigest record.bundleHash).signedCloudLayer.toList) :
      ManagedSound k parse ⟨some (k.activation.authenticate record),
        some (k.managedRevision.authenticate record.extensionAuthorityRevision)⟩

def ManagedState.number (m : ManagedState) : Nat := m.revision.elim 0 (·.record)

def ManagedState.content (m : ManagedState) : Option (String × List ExtensionControlLayer) :=
  m.active.map fun active => (active.record.catalogDigest, active.record.signedCloudLayers)

/-- The number grows, and as long as it stays the controls stay. -/
def Renumbers (m m' : ManagedState) : Prop := m.number ≤ m'.number ∧ (m.number = m'.number → m'.content = m.content)

variable {parse : Parsing}

theorem managedRevision_authenticate {n : Nat} (h : 1 ≤ n) :
    managedControlsRevisionFromState k (k.managedRevision.authenticate n) = .ok n := by
  rw [managedControlsRevisionFromState, if_neg (by simp only [Authenticator.authenticate_record]; omega),
    Authenticator.verify_authenticate]

theorem layers_authenticate (record : ActivationRecord) (catalogDigest : String) :
    managedControlsLayersFromActivationState k (k.activation.authenticate record) catalogDigest =
      if record.catalogDigest ≠ catalogDigest then .error "incomplete managed controls activation state"
      else if record.extensionAuthorityRevision < 1 then .error "invalid managed controls activation revision"
      else if record.signedCloudLayers.length > 1 ∨
        record.signedCloudLayers.any (fun layer => layer.kind ≠ .signedCloud)
      then .error "invalid managed signed Cloud layer"
      else .ok (record.signedCloudLayers, record.extensionAuthorityRevision) := by
  simp only [managedControlsLayersFromActivationState, Authenticator.authenticate_record,
    Authenticator.verify_authenticate, bind, Except.bind]

/-- A sound state is read back as its number and the bundle it activates. -/
theorem ManagedSound.previous {m : ManagedState} {catalogDigest : String} {out : Nat × Option String}
    (h : ManagedSound k parse m) (hout : previousManaged k m catalogDigest = .ok out) :
    out = (m.number, m.active.map fun active => active.record.bundleHash) ∧
      ∀ active, m.active = some active → active.record.catalogDigest = catalogDigest := by
  unfold previousManaged at hout
  cases h with
  | unmanaged =>
    simp only [bind, Except.bind] at hout
    cases hout
    exact ⟨rfl, fun _ hactive => by cases hactive⟩
  | cleared n pos =>
    simp only [managedRevision_authenticate pos, bind, Except.bind] at hout
    cases hout
    exact ⟨rfl, fun _ hactive => by cases hactive⟩
  | active record pos =>
    simp only [managedRevision_authenticate pos, layers_authenticate, Lib.bind_eq_ok, Lib.ite_error_eq_ok] at hout
    obtain ⟨n, hn, ⟨layers, revision⟩, ⟨hcatalog, -, -, hlayers⟩, -, hout⟩ := hout
    cases hlayers
    cases hout
    refine ⟨rfl, fun active hactive => ?_⟩
    cases hactive
    exact not_not.1 hcatalog

theorem renumbers_rfl (m : ManagedState) : Renumbers m m := ⟨le_rfl, fun _ => rfl⟩

theorem renumbers_succ {m m' : ManagedState} (h : m'.number = m.number + 1) : Renumbers m m' :=
  ⟨by omega, fun heq => by omega⟩

/-- The call's policy is what its bundle parses to. -/
def ApplyCall.Honest (parse : Parsing) (call : ApplyCall) : Prop :=
  ∀ p, call.policy = some p → p = parse call.builtInCatalogDigest call.bundle.bundleHash

theorem planActivation_sound {db : Database} {base : ExtensionControlAuthorityView} {call : ApplyCall}
    {m : ManagedState} (hsound : ManagedSound k parse db.managed) (hhonest : call.Honest parse)
    (hbase : base.health = .isProtected → base.catalogDigest = call.builtInCatalogDigest)
    (h : planActivation k db base call = .ok m) : ManagedSound k parse m ∧ Renumbers db.managed m := by
  unfold planActivation at h
  split at h
  · cases h
  obtain ⟨⟨n, hash⟩, hprevious, h⟩ := Lib.bind_eq_ok.1 h
  obtain ⟨hout, hcatalog⟩ := hsound.previous hprevious
  cases hout
  simp only at h
  split at h
  · rename_i parsed hpolicy
    rw [Lib.ite_error_eq_ok, not_not] at h
    obtain ⟨hprotected, h⟩ := h
    split at h
    · cases h
    · simp only [buildManagedControlsActivationState, Lib.bind_eq_ok, Lib.ite_error_eq_ok] at h
      obtain ⟨active, ⟨-, -, hactive⟩, hm⟩ := h
      cases hactive
      cases hm
      have hparsed := hhonest parsed hpolicy
      have hpos : 1 ≤ nextManagedRevision db.managed.number
          (db.managed.active.map fun active => active.record.bundleHash) call.bundle := by
        unfold nextManagedRevision
        split
        · rename_i hsame
          exact hsame.2
        · omega
      refine ⟨.active _ hpos ?_, ?_⟩
      · simp only [hbase hprotected, hparsed]
      · by_cases hsame : (db.managed.active.map fun active => active.record.bundleHash) = some call.bundle.bundleHash ∧
            0 < db.managed.number
        · -- the same bundle again: the number stays, and so do the controls
          have hnext : nextManagedRevision db.managed.number
              (db.managed.active.map fun active => active.record.bundleHash) call.bundle = db.managed.number :=
                if_pos hsame
          refine ⟨hnext.ge, fun _ => ?_⟩
          generalize hmanaged : db.managed = old at hsound hsame hcatalog
          cases hsound with
          | unmanaged => cases hsame.1
          | cleared => cases hsame.1
          | active record pos layers =>
            have hhash : record.bundleHash = call.bundle.bundleHash := Option.some.inj hsame.1
            have hsamecatalog : record.catalogDigest = base.catalogDigest := hcatalog _ rfl
            simp only [ManagedState.content, Option.map_some, Authenticator.authenticate_record, hsamecatalog, layers,
              hhash, hparsed, hbase hprotected]
        · exact renumbers_succ (if_neg hsame)
  · cases h
    generalize hmanaged : db.managed = old at hsound
    cases hsound with
    | unmanaged => exact ⟨.unmanaged, renumbers_rfl _⟩
    | cleared n pos =>
      have : 0 < n := pos
      simp only [ManagedState.number, Option.elim_some, Authenticator.authenticate_record, Option.isSome_none,
        Bool.false_eq_true, if_false, this, if_true]
      exact ⟨.cleared n pos, renumbers_rfl _⟩
    | active record pos layers =>
      simp only [ManagedState.number, Option.elim_some, Authenticator.authenticate_record, Option.isSome_some, if_true,
        Nat.succ_pos]
      exact ⟨.cleared _ (by omega), renumbers_succ rfl⟩

theorem planClear_sound {m m' : ManagedState} (hsound : ManagedSound k parse m) (h : planClear k m = .ok m') :
    ManagedSound k parse m' ∧ Renumbers m m' := by
  unfold planClear at h
  cases hsound with
  | unmanaged =>
    simp only [bind, Except.bind] at h
    cases h
    exact ⟨.unmanaged, renumbers_rfl _⟩
  | cleared n pos =>
    have hpos : 0 < n := pos
    simp only [managedRevision_authenticate pos, bind, Except.bind, hpos, if_true] at h
    cases h
    exact ⟨.cleared n pos, renumbers_rfl _⟩
  | active record pos =>
    simp only [managedRevision_authenticate pos, layers_authenticate, Lib.bind_eq_ok, Lib.ite_error_eq_ok] at h
    obtain ⟨n, hn, ⟨layers, revision⟩, ⟨-, -, -, hlayers⟩, -, hout⟩ := h
    cases hlayers
    cases hout
    exact ⟨.cleared _ (by omega), renumbers_succ rfl⟩

/-- An operation on the managed state: nothing else that a view is composed from changes. -/
structure Manages (k : Keys) (parse : Parsing) (w w' : World) : Prop where
  ledger : w'.ledger = w.ledger
  manifests : w'.db.manifests = w.db.manifests
  sound : ManagedSound k parse w'.db.managed
  renumbers : Renumbers w.db.managed w'.db.managed

variable {w w' : World}

theorem manages_of_keeps (hsound : ManagedSound k parse w.db.managed)
    (hledger : w'.ledger = w.ledger) (hkeep : Keeps w w') : Manages k parse w w' where
  ledger := hledger
  manifests := hkeep.manifests
  sound := hkeep.managed ▸ hsound
  renumbers := by
    rw [hkeep.managed]
    exact renumbers_rfl _

theorem runs_apply {call : ApplyCall} {r : Except String Bool}
    (hsound : ManagedSound k parse w.db.managed) (hhonest : call.Honest parse)
    (h : Runs (applyPolicyBundleAuthority k call) w r w') : Manages k parse w w' := by
  unfold applyPolicyBundleAuthority at h
  obtain ⟨v, hledger, hkeep, ⟨-, rfl⟩ | h⟩ := runs_invalidate_bind h
  · exact manages_of_keeps hsound hledger hkeep.toKeeps
  have hidle : Manages k parse w v := manages_of_keeps hsound hledger hkeep.toKeeps
  refine after_read h hidle fun base hbase _ h => ?_
  replace h := runs_get_bind h
  split at h
  · rw [(runs_pure h).2]
    exact hidle
  · rename_i m hplan
    rw [← hkeep.managed] at hsound
    have hcatalog : base.health = .isProtected → base.catalogDigest = call.builtInCatalogDigest := by
      intro hhealth
      obtain ⟨s, hprotects, rfl⟩ := hbase hhealth
      exact hprotects.catalog
    obtain ⟨hsound', hrenumbers⟩ := planActivation_sound hsound hhonest hcatalog hplan
    have hstored : Manages k parse w (v.updateDb (Database.setManaged m)) :=
      ⟨hledger, hkeep.manifests, hsound', hkeep.managed ▸ hrenumbers⟩
    refine after_write h hidle hstored fun h => ?_
    rw [(runs_pure h).2]
    exact hstored

theorem runs_clear {r : Except String Unit} (hsound : ManagedSound k parse w.db.managed)
    (h : Runs (clearPolicyBundleAuthority k) w r w') : Manages k parse w w' := by
  unfold clearPolicyBundleAuthority at h
  obtain ⟨v, hledger, hkeep, ⟨-, rfl⟩ | h⟩ := runs_invalidate_bind h
  · exact manages_of_keeps hsound hledger hkeep.toKeeps
  have hidle : Manages k parse w v := manages_of_keeps hsound hledger hkeep.toKeeps
  refine after_lift (runs_get_bind h) (fun _ _ => hidle) fun m hplan h => ?_
  rw [← hkeep.managed] at hsound
  obtain ⟨hsound', hrenumbers⟩ := planClear_sound hsound hplan
  have hstored : Manages k parse w (v.updateDb (Database.setManaged m)) :=
    ⟨hledger, hkeep.manifests, hsound', hkeep.managed ▸ hrenumbers⟩
  obtain ⟨-, rfl⟩ | ⟨-, rfl | rfl⟩ := Faulty.runs_write h
  · exact hstored
  · exact hidle
  · exact hstored

/-! ## Views of a managed state -/

variable {v : ExtensionControlAuthorityView}

theorem number_withManaged {db : Database} {s : SnapshotRow} {current : Manifest}
    {stale : Option Manifest} (hsound : ManagedSound k parse db.managed)
    (h : withManagedControlsActivation k db (protectedView s) current stale = .ok v) :
    v.managedRevision = db.managed.number := by
  unfold withManagedControlsActivation at h
  generalize db.managed = m at hsound h
  cases hsound with
  | unmanaged =>
    cases h
    rfl
  | cleared n pos =>
    simp only [managedRevision_authenticate pos, bind, Except.bind] at h
    cases h
    rfl
  | active record pos =>
    simp only [layers_authenticate, managedRevision_authenticate pos, Lib.bind_eq_ok, Lib.ite_error_eq_ok] at h
    obtain ⟨-, -, ⟨layers, n⟩, ⟨-, -, -, hlayers⟩, presented, -, durable, hdurable, -, h⟩ := h
    cases hlayers
    cases h
    rfl

/-- Sound states of one number and one content compose to the same view. -/
theorem withManaged_content {db db' : Database} {view : ExtensionControlAuthorityView}
    {current : Manifest} (hsound : ManagedSound k parse db.managed)
    (hsound' : ManagedSound k parse db'.managed) (hnumber : db.managed.number = db'.managed.number)
    (hcontent : db'.managed.content = db.managed.content) (hmanifests : db'.manifests = db.manifests)
    (h : withManagedControlsActivation k db view current none = .ok v) :
    withManagedControlsActivation k db' view current none = .ok v := by
  unfold withManagedControlsActivation at h ⊢
  have hpresent : presentManaged k db' = presentManaged k db := by
    funext activeCatalog layers catalogDigest current stale
    unfold presentManaged loadCatalogManifest
    rw [hmanifests]
  rw [hpresent]
  generalize db.managed = m at hsound h hnumber hcontent
  generalize db'.managed = m' at hsound' hnumber hcontent ⊢
  cases hsound with
  | unmanaged =>
    cases hsound' with
    | unmanaged => exact h
    | cleared n pos =>
      have hzero : 0 = n := hnumber
      omega
    | active => cases hcontent
  | cleared n pos =>
    cases hsound' with
    | unmanaged =>
      have hzero : n = 0 := hnumber
      omega
    | cleared n' pos' =>
      have hsame : n = n' := hnumber
      rw [← hsame]
      exact h
    | active => cases hcontent
  | active record pos =>
    cases hsound' with
    | unmanaged => cases hcontent
    | cleared => cases hcontent
    | active record' pos' =>
      have hsame : record.extensionAuthorityRevision = record'.extensionAuthorityRevision := hnumber
      simp only [ManagedState.content, Option.map_some, Authenticator.authenticate_record, Option.some.injEq,
        Prod.mk.injEq] at hcontent
      simp only [layers_authenticate, Authenticator.authenticate_record] at h ⊢
      rw [hcontent.1, hcontent.2, ← hsame]
      exact h

/-! ## Histories -/

/-- What a read brings: no other fingerprint than the one recorded, for any target that the active bundle enables. -/
def NoDrift (registry : Registry) (w : World) : Prop :=
  ∀ row, w.db.manifests.get? registry.catalogDigest = some row →
    Agrees w.db.managed.layers row.manifest registry.manifest

/-- One event, with the view that it gives if it is a completed read with managed controls; `ok` is asked of every read
and of the state before it. -/
inductive ControlEvent (k : Keys) (parse : Parsing) (ok : Registry → World → Prop) :
    World → Option ExtensionControlAuthorityView → World → Prop
  | enroll {w w' : World} (catalogDigest stamp : String) (r : Except String ExtensionControlAuthorityView)
      (runs : Runs (enrollExtensionControlAuthority k catalogDigest stamp) w r w') : ControlEvent k parse ok w none w'
  | commit {w w' : World} (c : CommitCall) (clock : Clock) (r : Except String ExtensionControlAuthorityView)
      (runs : Runs (commitExtensionControlLayers k c clock) w r w') : ControlEvent k parse ok w none w'
  | apply {w w' : World} (call : ApplyCall) (r : Except String Bool) (honest : call.Honest parse)
      (runs : Runs (applyPolicyBundleAuthority k call) w r w') : ControlEvent k parse ok w none w'
  | clear {w w' : World} (r : Except String Unit) (runs : Runs (clearPolicyBundleAuthority k) w r w') :
      ControlEvent k parse ok w none w'
  | read {w w' : World} (registry : Registry) (stamp : String) (v : ExtensionControlAuthorityView)
      (meets : ok registry w)
      (runs : Runs (readExtensionControlAuthorityForRegistry k registry true stamp) w (.ok v) w') :
      ControlEvent k parse ok w (some v) w'
  | unfinished {w w' : World} (registry : Registry) (managed : Bool) (stamp : String)
      (r : Except String ExtensionControlAuthorityView) (meets : ok registry w)
      (runs : Runs (readExtensionControlAuthorityForRegistry k registry managed stamp) w r w') :
      ControlEvent k parse ok w none w'
  | other {w w' : World} (ledger : w'.ledger = w.ledger) (managed : w'.db.managed = w.db.managed)
      (manifests : w'.db.manifests = w.db.manifests) : ControlEvent k parse ok w none w'

/-- The views of a history from an empty store, and the state it leads to. -/
inductive History (k : Keys) (parse : Parsing) (ok : Registry → World → Prop) :
    List ExtensionControlAuthorityView → World → Prop
  | start {w : World} (ledger : w.ledger = ⟨none, [], none⟩) (managed : w.db.managed = ⟨none, none⟩) :
      History k parse ok [] w
  | event {views : List ExtensionControlAuthorityView} {view : Option ExtensionControlAuthorityView} {w w' : World}
      (history : History k parse ok views w) (event : ControlEvent k parse ok w view w') :
      History k parse ok (views ++ view.toList) w'

/-! ## The invariant -/

/-- The view is of the stored numbers or of earlier ones; if of the stored ones, it is what the state composes to. -/
def Fits (k : Keys) (w : World) (v : ExtensionControlAuthorityView) : Prop :=
  ∃ s, w.db.snapshot = some s ∧ v.revision ≤ s.revision ∧ v.managedRevision ≤ w.db.managed.number ∧
    (v.revision = s.revision → v.managedRevision = w.db.managed.number →
      ∃ row, w.db.manifests.get? s.catalogDigest = some row ∧
        withManagedControlsActivation k w.db (protectedView s) row.manifest none = .ok v)

/-- A view goes on fitting while the numbers grow, if what is composed stays while they stay. -/
theorem Fits.mono (h : Fits k w v) (hlater : Later w.ledger w'.ledger)
    (hnumber : w.db.managed.number ≤ w'.db.managed.number)
    (hview : ∀ s row, w'.db.snapshot = some s → w.db.managed.number = w'.db.managed.number →
      w.db.manifests.get? s.catalogDigest = some row →
      withManagedControlsActivation k w.db (protectedView s) row.manifest none = .ok v →
      ∃ row, w'.db.manifests.get? s.catalogDigest = some row ∧
        withManagedControlsActivation k w'.db (protectedView s) row.manifest none = .ok v) :
    Fits k w' v := by
  obtain ⟨s, hs, hrevision, hmanaged, hsame⟩ := h
  obtain ⟨s', hs', hle, heq⟩ := hlater s hs
  refine ⟨s', hs', hrevision.trans hle, hmanaged.trans hnumber, fun hr hm => ?_⟩
  have hs'' := heq (by omega)
  subst hs''
  obtain ⟨row, hrow, hcomposed⟩ := hsame hr (by omega)
  exact hview s' row hs' (by omega) hrow hcomposed

theorem fits_of_ledger (h : Fits k w v) (hlater : Later w.ledger w'.ledger)
    (hmanaged : w'.db.managed = w.db.managed) (hmanifests : w'.db.manifests = w.db.manifests) :
    Fits k w' v := by
  refine h.mono hlater (by rw [hmanaged]) fun s row _ _ hrow hcomposed => ⟨row, by rw [hmanifests]; exact hrow, ?_⟩
  refine withManaged_congr ⟨hmanaged, fun catalog _ => by rw [hmanifests]⟩ (agrees_refl _ _) ?_ hcomposed
  intro prior hprior
  cases hprior

theorem Manages.fits (h : Manages k parse w w') (hsound : ManagedSound k parse w.db.managed)
    (hfits : Fits k w v) : Fits k w' v := by
  refine hfits.mono (by rw [h.ledger]; exact .rfl' _) h.renumbers.1 fun s row _ hnumber hrow hcomposed => ?_
  refine ⟨row, by rw [h.manifests]; exact hrow, ?_⟩
  exact withManaged_content hsound h.sound hnumber (h.renumbers.2 hnumber) h.manifests hcomposed

/-- A read without drift keeps the views of the stored numbers. -/
theorem RegistryRead.fits {registry : Registry} {managed : Bool}
    {r : Except String ExtensionControlAuthorityView} (h : RegistryRead k registry managed w r w')
    (hdrift : NoDrift registry w) (hfits : Fits k w v) : Fits k w' v := by
  have hlater : Later w.ledger w'.ledger := h.steps.later (by simp [Rights.transitions])
  obtain hsame | ⟨⟨s', hs', hcatalog⟩, row', hrow', hinsert⟩ := h.records
  · exact fits_of_ledger hfits hlater h.managedState hsame
  · refine hfits.mono hlater (by rw [h.managedState]) fun s row hs _ hrow hcomposed => ?_
    cases hs'.symm.trans hs
    refine ⟨row', by rw [hinsert, hcatalog, KeyMap.get?_insert, if_pos rfl], ?_⟩
    rw [hcatalog] at hrow
    have hagrees := hdrift row hrow
    rw [← hrow'] at hagrees
    refine withManaged_congr ?_ hagrees (fun prior hprior => by cases hprior) hcomposed
    have hdigest : (protectedView s').catalogDigest = registry.catalogDigest := hcatalog
    rw [hdigest]
    exact .insert h.managedState hinsert

/-- The view of a read without drift fits the state after it, and has its numbers. -/
theorem RegistryRead.fits_view {registry : Registry} (h : RegistryRead k registry true w (.ok v) w')
    (hsound : ManagedSound k parse w.db.managed) (hdrift : NoDrift registry w) (hhealth : v.health = .isProtected) :
    Fits k w' v ∧ (∀ s, w'.db.snapshot = some s → v.revision = s.revision) ∧
    v.managedRevision = w'.db.managed.number := by
  obtain ⟨s, row, db, stale, hprotects, hrow, hmanifest, hsame, hdb, hreplaces, hcomposed⟩ := h.view rfl v rfl hhealth
  have hdigest : (protectedView s).catalogDigest = registry.catalogDigest := hprotects.catalog
  have hcomposed' : withManagedControlsActivation k w'.db (protectedView s) row.manifest none = .ok v := by
    refine withManaged_congr (by rw [hdigest]; exact hsame) (by rw [hmanifest]; exact agrees_refl _ _) ?_ hcomposed
    rintro prior rfl
    obtain ⟨row₀, hrow₀, rfl⟩ := hreplaces
    rw [hdb]
    exact hdrift row₀ hrow₀
  have hrevision : v.revision = s.revision := (health_withManaged hcomposed).2.1
  have hnumber : v.managedRevision = w'.db.managed.number := by
    rw [← h.managedState] at hsound
    exact number_withManaged hsound hcomposed'
  refine ⟨⟨s, hprotects.snapshot, hrevision.le, hnumber.le, fun _ _ => ⟨row, ?_, hcomposed'⟩⟩, ?_, hnumber⟩
  · rw [hprotects.catalog]
    exact hrow
  · intro t ht
    cases ht.symm.trans hprotects.snapshot
    exact hrevision

/-- What two views of a history are to each other, the earlier one first. -/
def Ordered (v v' : ExtensionControlAuthorityView) : Prop :=
  v.health = .isProtected → v'.health = .isProtected →
    v.revision ≤ v'.revision ∧ v.managedRevision ≤ v'.managedRevision ∧
      (v.revision = v'.revision → v.managedRevision = v'.managedRevision → v = v')

theorem Fits.ordered {v' : ExtensionControlAuthorityView} (h : Fits k w v) (h' : Fits k w v')
    (hrevision : ∀ s, w.db.snapshot = some s → v'.revision = s.revision)
    (hnumber : v'.managedRevision = w.db.managed.number) : Ordered v v' := by
  intro _ _
  obtain ⟨s, hs, hle, hmanaged, hsame⟩ := h
  obtain ⟨s', hs', -, -, hsame'⟩ := h'
  cases hs.symm.trans hs'
  have hr := hrevision s hs
  refine ⟨by omega, by omega, fun hrev hman => ?_⟩
  obtain ⟨row, hrow, hcomposed⟩ := hsame (by omega) (by omega)
  obtain ⟨row', hrow', hcomposed'⟩ := hsame' (by omega) (by omega)
  cases hrow.symm.trans hrow'
  exact Except.ok.inj (hcomposed.symm.trans hcomposed')

structure PairInvariant (k : Keys) (parse : Parsing) (views : List ExtensionControlAuthorityView) (w : World) :
    Prop where
  phase : Phase k w.ledger
  sound : ManagedSound k parse w.db.managed
  fits : ∀ v ∈ views, v.health = .isProtected → Fits k w v
  ordered : views.Pairwise Ordered

theorem PairInvariant.silent {views : List ExtensionControlAuthorityView}
    (h : PairInvariant k parse views w) (hphase : Phase k w'.ledger)
    (hsound : ManagedSound k parse w'.db.managed) (hfits : ∀ v, Fits k w v → Fits k w' v) :
    PairInvariant k parse (views ++ Option.toList none) w' := by
  refine ⟨hphase, hsound, fun v hv hhealth => ?_, ?_⟩
  · rw [Option.toList_none, List.append_nil] at hv
    exact hfits v (h.fits v hv hhealth)
  · rw [Option.toList_none, List.append_nil]
    exact h.ordered

/-- **Every event keeps the views in order.** -/
theorem PairInvariant.event {views : List ExtensionControlAuthorityView}
    {view : Option ExtensionControlAuthorityView} (h : PairInvariant k parse views w)
    (event : ControlEvent k parse NoDrift w view w') :
    PairInvariant k parse (views ++ view.toList) w' := by
  cases event with
  | enroll catalogDigest stamp r runs =>
    have hreport := reports_enroll (R := Rights.transitions) h.phase runs
    refine h.silent (hreport.steps.phase h.phase) (by rw [hreport.keeps.managed]; exact h.sound) fun v hv => ?_
    exact fits_of_ledger hv (hreport.steps.later (by simp [Rights.transitions])) hreport.keeps.managed
      hreport.keeps.manifests
  | commit c clock r runs =>
    have hcommits := runs_commit h.phase runs
    refine h.silent (hcommits.steps.phase h.phase) (by rw [hcommits.grant.managed]; exact h.sound) fun v hv => ?_
    exact fits_of_ledger hv (hcommits.steps.later (by simp [CommitCall.rights])) hcommits.grant.managed
      hcommits.grant.manifests
  | apply call r honest runs =>
    have hmanages := runs_apply h.sound honest runs
    exact h.silent (hmanages.ledger ▸ h.phase) hmanages.sound fun v hv => hmanages.fits h.sound hv
  | clear r runs =>
    have hmanages := runs_clear h.sound runs
    exact h.silent (hmanages.ledger ▸ h.phase) hmanages.sound fun v hv => hmanages.fits h.sound hv
  | unfinished registry managed stamp r meets runs =>
    have hread := registryRead h.phase runs
    exact h.silent (hread.steps.phase h.phase) (by rw [hread.managedState]; exact h.sound) fun v hv =>
      hread.fits meets hv
  | other ledger managed manifests =>
    refine h.silent (ledger ▸ h.phase) (by rw [managed]; exact h.sound) fun v hv => ?_
    exact fits_of_ledger hv (by rw [ledger]; exact .rfl' _) managed manifests
  | read registry stamp v meets runs =>
    have hread := registryRead h.phase runs
    refine ⟨hread.steps.phase h.phase, by rw [hread.managedState]; exact h.sound, fun x hx hhealth => ?_, ?_⟩
    · rcases List.mem_append.1 hx with hx | hx
      · exact hread.fits meets (h.fits x hx hhealth)
      · rw [Option.toList_some, List.mem_singleton] at hx
        subst hx
        exact (hread.fits_view h.sound meets hhealth).1
    · rw [List.pairwise_append]
      refine ⟨h.ordered, by simp, fun x hx y hy hxp hyp => ?_⟩
      rw [Option.toList_some, List.mem_singleton] at hy
      subst hy
      obtain ⟨hfits, hrevision, hnumber⟩ := hread.fits_view h.sound meets hyp
      exact (hread.fits meets (h.fits x hx hxp)).ordered hfits hrevision hnumber hxp hyp

theorem History.invariant {views : List ExtensionControlAuthorityView}
    (h : History k parse NoDrift views w) : PairInvariant k parse views w := by
  induction h with
  | start ledger managed =>
    refine ⟨ledger ▸ .vacant none, by rw [managed]; exact .unmanaged, fun v hv => ?_, .nil⟩
    cases hv
  | event _ event ih => exact ih.event event

/-! ## Those who compare -/

section Compare

variable {digest : String → String} {v v' : ExtensionControlAuthorityView}

/-- What the runtime compares with is what it started from, or one of the views it has seen. -/
def Tracks (digest : String → String) (seen : List ExtensionControlAuthorityView) (runtime : ExtensionControlRuntime) :
    Prop :=
  (runtime.highestProtectedRevision = (0, 0) ∧ runtime.highestProtectedDigest = none) ∨
    ∃ v ∈ seen, v.health = .isProtected ∧ runtime.highestProtectedRevision = (v.revision, v.managedRevision) ∧
      runtime.highestProtectedDigest = some (digest (effectiveText v))

theorem tracks_start (first : ExtensionControlAuthorityView) : Tracks digest [first] (.start digest first) := by
  by_cases h : first.health = .isProtected
  · exact .inr ⟨first, List.mem_singleton.2 rfl, h, by simp [ExtensionControlRuntime.start, h],
      by simp [ExtensionControlRuntime.start, h]⟩
  · exact .inl ⟨by simp [ExtensionControlRuntime.start, h], by simp [ExtensionControlRuntime.start, h]⟩

theorem Tracks.refresh {seen : List ExtensionControlAuthorityView} {runtime : ExtensionControlRuntime}
    (h : Tracks digest seen runtime) (hordered : ∀ x ∈ seen, Ordered x v) :
    ∃ runtime', runtime.refresh digest v = .ok runtime' ∧ Tracks digest (seen ++ [v]) runtime' := by
  by_cases hhealth : v.health = .isProtected
  · have hvalid : runtime.validateCandidate digest v = .ok () := by
      unfold ExtensionControlRuntime.validateCandidate
      rw [if_neg (not_not.2 hhealth)]
      obtain ⟨hrevision, hnone⟩ | ⟨x, hx, hprotected, hrevision, hdigest⟩ := h
      · rw [hrevision, hnone]
        simp
      · obtain ⟨hle, hmanaged, hsame⟩ := hordered x hx hprotected hhealth
        rw [hrevision, hdigest, if_neg (by simp only; omega), if_neg]
        rintro ⟨hpair, d, hd, hne⟩
        cases hd
        simp only [Prod.mk.injEq] at hpair
        exact hne (by rw [hsame hpair.1.symm hpair.2.symm])
    refine ⟨_, by simp only [ExtensionControlRuntime.refresh, hvalid, hhealth, bind, Except.bind, if_true]; rfl,
      .inr ?_⟩
    exact ⟨v, List.mem_concat_self, hhealth, rfl, rfl⟩
  · have hvalid : runtime.validateCandidate digest v = .ok () := by
      rw [ExtensionControlRuntime.validateCandidate, if_pos hhealth]
    refine ⟨_, by simp only [ExtensionControlRuntime.refresh, hvalid, hhealth, bind, Except.bind, if_false]; rfl, ?_⟩
    exact h.imp id fun ⟨x, hx, hrest⟩ => ⟨x, List.mem_append_left _ hx, hrest⟩

theorem Tracks.refreshAll {rest : List ExtensionControlAuthorityView} :
    ∀ {seen : List ExtensionControlAuthorityView} {runtime : ExtensionControlRuntime}, Tracks digest seen runtime →
      (seen ++ rest).Pairwise Ordered →
      ∃ runtime', rest.foldlM (fun runtime view => runtime.refresh digest view) runtime = .ok runtime' := by
  induction rest with
  | nil => exact fun _ _ => ⟨_, rfl⟩
  | cons v rest ih =>
    intro seen runtime htracks hordered
    have hseen : ∀ x ∈ seen, Ordered x v := fun x hx =>
      (List.pairwise_append.1 hordered).2.2 x hx v List.mem_cons_self
    obtain ⟨next, hnext, htracks'⟩ := htracks.refresh hseen
    obtain ⟨last, hlast⟩ := ih htracks' (by rw [List.append_assoc]; exact hordered)
    refine ⟨last, ?_⟩
    rw [List.foldlM_cons, hnext]
    exact hlast

/-- What the floor calls a revision that went back, or that came again with other controls. -/
def revisionErrors : List String :=
  ["native_command_control_revision_downgrade", "native_command_control_revision_reused"]

theorem validate_error_ne {a : NativeCommandControlAuthorityV1} {e : String} (h : a.validate = .error e) :
    e ∉ revisionErrors := by
  unfold NativeCommandControlAuthorityV1.validate at h
  repeat' split at h
  all_goals cases h <;> decide

theorem validateRecovery_error_ne {sha : Lib.Hash} {current : Option Policy.CommandControlFloor}
    {c : Policy.CommandControlFloor} {a : NativeCommandControlAuthorityV1} {e : String}
    (h : Policy.validateRecovery sha current c a = .error e) : e ∉ revisionErrors := by
  unfold Policy.validateRecovery at h
  repeat' split at h
  all_goals cases h <;> decide

theorem validateAuthorityTransition_error_ne {sha : Lib.Hash} {current : Option Policy.CommandControlFloor}
    {c : Policy.CommandControlFloor} {e : String} (h : Policy.validateAuthorityTransition sha current c = .error e) :
    e ∉ revisionErrors := by
  unfold Policy.validateAuthorityTransition at h
  repeat' split at h
  all_goals first
    | exact validateRecovery_error_ne h
    | (rename_i hvalidate; cases h; exact validate_error_ne hvalidate)
    | (cases h <;> decide)

/-- The floor that a resident keeps of the view. -/
structure FloorOf (digest : String → String) (v : ExtensionControlAuthorityView) (floor : Policy.CommandControlFloor) :
    Prop where
  revision : floor.revision = v.revision
  managedRevision : floor.managedRevision = v.managedRevision
  effectiveDigest : floor.effectiveDigest = digest (effectiveText v)

/-- The resident's floor does not refuse a view that comes in order for its revision. -/
theorem Ordered.nextFloor {sha : Lib.Hash} {floor candidate : Policy.CommandControlFloor}
    {snapshot : Policy.PolicySnapshotV3} (h : Ordered v v') (hv : v.health = .isProtected)
    (hv' : v'.health = .isProtected) (hfloor : FloorOf digest v floor) (hcandidate : FloorOf digest v' candidate)
    (hsnapshot : Policy.snapshotFloor snapshot = some candidate) :
    ∀ e ∈ revisionErrors, Policy.nextFloor sha (some floor) snapshot ≠ .error e := by
  intro e he hnext
  obtain ⟨hle, hmanaged, hsame⟩ := h hv hv'
  have hdowngrade : ¬ (candidate.revision < floor.revision ∨ candidate.managedRevision < floor.managedRevision) := by
    rw [hcandidate.revision, hcandidate.managedRevision, hfloor.revision, hfloor.managedRevision]
    omega
  have hreused : ¬ (candidate.revision = floor.revision ∧ candidate.managedRevision = floor.managedRevision ∧
      candidate.effectiveDigest ≠ floor.effectiveDigest) := by
    rw [hcandidate.revision, hcandidate.managedRevision, hcandidate.effectiveDigest, hfloor.revision,
      hfloor.managedRevision, hfloor.effectiveDigest]
    rintro ⟨hr, hm, hne⟩
    exact hne (by rw [hsame hr.symm hm.symm])
  have hother : ∀ {e' : String}, (Except.error e' : Except String (Option Policy.CommandControlFloor)) = .error e →
      e' ∉ revisionErrors → False := by
    intro e' heq hne
    cases heq
    exact hne he
  unfold Policy.nextFloor at hnext
  split at hnext
  · exact hother hnext (by decide)
  split at hnext
  · exact hother hnext (by decide)
  rw [hsnapshot] at hnext
  simp only at hnext
  split at hnext
  · rename_i htransition
    exact hother hnext (validateAuthorityTransition_error_ne htransition)
  · rename_i recovery _
    cases recovery with
    | true => cases hnext
    | false =>
      simp only [Bool.false_eq_true, if_false] at hnext
      rw [if_neg hdowngrade, if_neg hreused] at hnext
      cases hnext

end Compare

/-- **A revision pair names one set of controls**, in every history in which no read brings another fingerprint for a
target that the active bundle enables: the numbers of the protected views never decrease, and views of one pair have one
effective digest.  A runtime that is given the views in turn refuses none, and neither does a resident's floor. -/
theorem revision_pairs_name_controls {views : List ExtensionControlAuthorityView} {w : World}
    (digest : String → String) (sha : Lib.Hash) (h : History k parse NoDrift views w) :
    (views.Pairwise fun v v' => v.health = .isProtected → v'.health = .isProtected →
      v.revision ≤ v'.revision ∧ v.managedRevision ≤ v'.managedRevision ∧
        (v.revision = v'.revision → v.managedRevision = v'.managedRevision →
          digest (effectiveText v) = digest (effectiveText v'))) ∧
    (∀ first rest, views = first :: rest →
      ∃ runtime, rest.foldlM (fun runtime view => runtime.refresh digest view) (.start digest first) =
        (.ok runtime : Except String ExtensionControlRuntime)) ∧
    views.Pairwise fun v v' => v.health = .isProtected → v'.health = .isProtected →
      ∀ floor candidate snapshot, FloorOf digest v floor → FloorOf digest v' candidate →
        Policy.snapshotFloor snapshot = some candidate →
        ∀ e ∈ revisionErrors, Policy.nextFloor sha (some floor) snapshot ≠ .error e := by
  have hordered := h.invariant.ordered
  refine ⟨hordered.imp fun hvv hv hv' => ?_, fun first rest hviews => ?_, hordered.imp fun hvv hv hv' => ?_⟩
  · obtain ⟨hrevision, hmanaged, hsame⟩ := hvv hv hv'
    exact ⟨hrevision, hmanaged, fun hr hm => by rw [hsame hr hm]⟩
  · rw [hviews] at hordered
    exact (tracks_start first).refreshAll hordered
  · intro floor candidate snapshot hfloor hcandidate hsnapshot
    exact hvv.nextFloor hv hv' hfloor hcandidate hsnapshot

/-! ## A fingerprint that changes -/

def sampleControl : ExtensionControl := ⟨⟨.permission, "command.git.permission.push"⟩, .enabled⟩

def sampleRegistry (fingerprint : String) : Registry :=
  ⟨sampleCatalog, ⟨[(keyName sampleControl, fingerprint)], List.pairwise_singleton _ _⟩⟩

def sampleParsing : Parsing := fun catalogDigest _ =>
  ⟨some ⟨"1.0.0", .signedCloud, catalogDigest, false, [sampleControl]⟩⟩

def sampleApply : ApplyCall :=
  ⟨⟨"bundle", 1, "workspace"⟩, some (sampleParsing sampleCatalog "bundle"), sampleCatalog, none⟩

def sampleActivated : World := (applyPolicyBundleAuthority sampleKeys sampleApply sampleEnrolled []).2.1

def sampleRead (fingerprint : String) (w : World) : Except String ExtensionControlAuthorityView × World :=
  let out :=
    readExtensionControlAuthorityForRegistry sampleKeys (sampleRegistry fingerprint) true sampleClock.stamp w []
  (out.1, out.2.1)

def sampleView (state : ControlState) : ExtensionControlAuthorityView :=
  ⟨.isProtected, 0, sampleCatalog,
    [⟨"1.0.0", .signedCloud, sampleCatalog, false, [{ sampleControl with state := state }]⟩], 1⟩

theorem history_sampleActivated (ok : Registry → World → Prop) :
    History sampleKeys sampleParsing ok [] sampleActivated := by
  have hstart : History sampleKeys sampleParsing ok []
      ⟨Database.empty, none, 0, ⟨"/home", false, false, 0⟩, KeyMap.empty, []⟩ := .start rfl rfl
  have henrolled : History sampleKeys sampleParsing ok [] sampleEnrolled :=
    hstart.event (.enroll sampleCatalog sampleClock.stamp _ ⟨[], rfl, rfl⟩)
  refine henrolled.event (.apply sampleApply _ (fun p hp => ?_) ⟨[], rfl, rfl⟩)
  cases hp
  rfl

def sampleReads (fingerprints : List String) : World :=
  fingerprints.foldl (fun w fingerprint => (sampleRead fingerprint w).2) sampleActivated

theorem runs_sampleRead {fingerprint : String} (h : (sampleRead fingerprint w).1 = .ok v) :
    Runs (readExtensionControlAuthorityForRegistry sampleKeys (sampleRegistry fingerprint) true sampleClock.stamp) w
      (.ok v) (sampleRead fingerprint w).2 :=
  ⟨[], h, rfl⟩

/-- **A changed fingerprint gives two sets of controls one revision pair**: the read that first meets it retires the
control, the next one presents it as enabled again, and nothing is counted. -/
theorem drift_reuses_revision_pair :
    History sampleKeys sampleParsing (fun _ _ => True) [sampleView .enabled, sampleView .disabled, sampleView .enabled]
      (sampleReads ["one", "two", "two"]) ∧
    (sampleView .enabled).revision = (sampleView .disabled).revision ∧
    (sampleView .enabled).managedRevision = (sampleView .disabled).managedRevision ∧
    effectiveText (sampleView .enabled) ≠ effectiveText (sampleView .disabled) ∧
    (ExtensionControlRuntime.start id (sampleView .enabled)).refresh id (sampleView .disabled) =
      .error "extension control runtime revision cannot be replaced" := by
  refine ⟨?_, rfl, rfl, by decide +kernel, by decide +kernel⟩
  have hone : (sampleRead "one" sampleActivated).1 = .ok (sampleView .enabled) := by decide +kernel
  have htwo : (sampleRead "two" (sampleReads ["one"])).1 = .ok (sampleView .disabled) := by decide +kernel
  have hthree : (sampleRead "two" (sampleReads ["one", "two"])).1 = .ok (sampleView .enabled) := by decide +kernel
  exact (((history_sampleActivated _).event (.read _ _ _ trivial (runs_sampleRead hone))).event
    (.read _ _ _ trivial (runs_sampleRead htwo))).event (.read _ _ _ trivial (runs_sampleRead hthree))

theorem recorded_sampleReads : ((sampleReads ["one"]).db.manifests.get? sampleCatalog).map (·.manifest) =
    some (sampleRegistry "one").manifest := by decide +kernel

theorem noDrift_sampleReads : NoDrift (sampleRegistry "one") (sampleReads ["one"]) := by
  intro row hrow
  have hmanifest := recorded_sampleReads
  rw [show (sampleReads ["one"]).db.manifests.get? sampleCatalog = some row from hrow] at hmanifest
  rw [show row.manifest = (sampleRegistry "one").manifest from Option.some.inj hmanifest]
  exact agrees_refl _ _

theorem steady_fingerprint_keeps_pair :
    History sampleKeys sampleParsing NoDrift [sampleView .enabled, sampleView .enabled] (sampleReads ["one", "one"]) ∧
    ∃ runtime, [sampleView .enabled].foldlM (fun runtime view => runtime.refresh id view)
      (.start id (sampleView .enabled)) = (.ok runtime : Except String ExtensionControlRuntime) := by
  have hone : (sampleRead "one" sampleActivated).1 = .ok (sampleView .enabled) := by decide +kernel
  have htwo : (sampleRead "one" (sampleReads ["one"])).1 = .ok (sampleView .enabled) := by decide +kernel
  have hfirst : NoDrift (sampleRegistry "one") sampleActivated := by
    intro row hrow
    have hnone : (sampleActivated.db.manifests.get? (sampleRegistry "one").catalogDigest).isNone = true := by
      decide +kernel
    rw [hrow] at hnone
    cases hnone
  have hhistory := ((history_sampleActivated NoDrift).event (.read _ _ _ hfirst (runs_sampleRead hone))).event
    (.read _ _ _ noDrift_sampleReads (runs_sampleRead htwo))
  exact ⟨hhistory, (revision_pairs_name_controls id Lib.Hash.zero hhistory).2.1 _ _ rfl⟩

end ControlAuthority
end Guard
