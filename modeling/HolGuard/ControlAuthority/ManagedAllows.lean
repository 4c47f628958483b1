import HolGuard.ControlAuthority.RevisionPairs
/-!
# Managed allows and the contract they were given for

A bundle is activated under a catalog, and reads under any registries follow.  The first manifest that a read leaves
recorded for that catalog is the contract of the bundle: what a later view presents as enabled has that fingerprint in
the registry of the read, or is unknown to it.  The first read under that catalog with another fingerprint retires the
allow, and records the new fingerprint in place of the contract's.
-/
namespace Guard
namespace ControlAuthority

open Lib (Faulty KeyMap)
open Lib.Faulty (Runs)

variable {k : Keys}

/-! ## What is presented as enabled -/

def Enables (layers : List ExtensionControlLayer) (key : String) : Prop :=
  ∃ layer ∈ layers, ∃ control ∈ layer.controls, control.state = .enabled ∧ keyName control = key

variable {layers : List ExtensionControlLayer}

theorem Agrees.get_eq {m n : Manifest} {key : String} (h : Agrees layers m n)
    (henables : Enables layers key) : m.get key = n.get key := by
  obtain ⟨layer, hlayer, control, hcontrol, henabled, rfl⟩ := henables
  exact h layer hlayer control hcontrol henabled

theorem Agrees.trans {m n o : Manifest} (h : Agrees layers m n) (g : Agrees layers n o) :
    Agrees layers m o := fun layer hlayer control hcontrol henabled =>
  (h layer hlayer control hcontrol henabled).trans (g layer hlayer control hcontrol henabled)

variable {current : Manifest}

/-- A control that is still enabled once it is restated was enabled, and its fingerprint matched or there was none. -/
theorem enabled_of_restate {prior : Manifest} {control : ExtensionControl}
    (h : (restate prior current control).state = .enabled) :
    control.state = .enabled ∧ keyName (restate prior current control) = keyName control ∧
      (current.get (keyName control) = none ∨ prior.get (keyName control) = current.get (keyName control)) := by
  unfold restate at h ⊢
  by_cases hpreserve : preserveManagedExtensionControl control prior current = true
  · rw [if_pos hpreserve] at h ⊢
    exact ⟨h, rfl, (preserve_enabled h).1 hpreserve⟩
  · rw [if_neg hpreserve] at h
    cases h

variable {catalogDigest : String}

theorem enables_restateLayers {key : String} {prior : Manifest}
    (h : Enables (restateLayers layers catalogDigest prior current) key) :
    Enables layers key ∧ (current.get key = none ∨ prior.get key = current.get key) := by
  obtain ⟨layer', hlayer', control', hcontrol', henabled, hkey⟩ := h
  obtain ⟨layer, hlayer, rfl⟩ := List.mem_map.1 hlayer'
  obtain ⟨control, hcontrol, rfl⟩ := List.mem_map.1 hcontrol'
  obtain ⟨hstate, hname, hmatch⟩ := enabled_of_restate henabled
  rw [← hkey, hname]
  exact ⟨⟨layer, hlayer, control, hcontrol, hstate, rfl⟩, hmatch⟩

/-- What a read presents as enabled: under another catalog than the active one it is compared with what is recorded for
the active one, under the same catalog with the manifest that is replaced. -/
theorem enables_presentManaged {db : Database} {activeCatalog key : String}
    {presented : List ExtensionControlLayer} {stale : Option Manifest}
    (h : presentManaged k db activeCatalog layers catalogDigest current stale = .ok presented)
    (henables : Enables presented key) :
    Enables layers key ∧
    (activeCatalog ≠ catalogDigest → current.get key = none ∨
      ∃ row, db.manifests.get? activeCatalog = some row ∧ row.manifest.get key = current.get key) ∧
    (activeCatalog = catalogDigest → ∀ prior, stale = some prior →
      current.get key = none ∨ prior.get key = current.get key) := by
  unfold presentManaged at h
  by_cases hcatalog : activeCatalog ≠ catalogDigest
  · rw [if_pos hcatalog] at h
    simp only [Lib.ite_error_eq_ok, Lib.bind_eq_ok] at h
    obtain ⟨-, loaded, hload, hout⟩ := h
    cases hout
    obtain ⟨hlayers, hmatch⟩ := enables_restateLayers henables
    refine ⟨hlayers, fun _ => ?_, fun heq => absurd heq hcatalog⟩
    cases hrow : db.manifests.get? activeCatalog with
    | none =>
      rw [loadCatalogManifest, hrow] at hload
      cases hload
      have hempty : Manifest.get Lib.SortedMap.empty key = none := rfl
      simp only [Option.getD_none, hempty] at hmatch
      exact .inl (hmatch.elim id Eq.symm)
    | some row =>
      cases loaded with
      | none =>
        simp only [loadCatalogManifest, hrow, Lib.bind_eq_ok, Lib.ite_error_eq_ok] at hload
        obtain ⟨-, -, -, hbad⟩ := hload
        cases hbad
      | some m =>
        rw [loadCatalogManifest_eq hrow hload] at hmatch
        exact hmatch.imp_right fun heq => ⟨row, rfl, heq⟩
  · rw [if_neg hcatalog] at h
    cases stale with
    | none =>
      cases h
      exact ⟨henables, fun hne => absurd hne hcatalog, fun _ _ hprior => by cases hprior⟩
    | some prior =>
      simp only at h
      by_cases hsame : prior = current
      · rw [if_pos hsame] at h
        cases h
        refine ⟨henables, fun hne => absurd hne hcatalog, fun _ prior' hprior => ?_⟩
        cases hprior
        exact .inr (by rw [hsame])
      · rw [if_neg hsame, Lib.ite_error_eq_ok] at h
        obtain ⟨-, hout⟩ := h
        cases hout
        obtain ⟨hlayers, hmatch⟩ := enables_restateLayers henables
        refine ⟨hlayers, fun hne => absurd hne hcatalog, fun _ prior' hprior => ?_⟩
        cases hprior
        exact hmatch

variable {v : ExtensionControlAuthorityView}

/-- What a composed view presents as enabled is a control of the active bundle. -/
theorem enables_withManaged {db : Database} {active : Sealed ActivationRecord} {s : SnapshotRow}
    {stale : Option Manifest} {layer : ExtensionControlLayer} {control : ExtensionControl}
    (hactive : db.managed.active = some active)
    (h : withManagedControlsActivation k db (protectedView s) current stale = .ok v)
    (hlayer : layer ∈ v.layers) (hkind : layer.kind = .signedCloud)
    (hcontrol : control ∈ layer.controls) (henabled : control.state = .enabled) :
    Enables db.managed.layers (keyName control) ∧
    (active.record.catalogDigest ≠ s.catalogDigest →
      current.get (keyName control) = none ∨ ∃ row, db.manifests.get? active.record.catalogDigest = some row ∧
        row.manifest.get (keyName control) = current.get (keyName control)) ∧
    (active.record.catalogDigest = s.catalogDigest → ∀ prior, stale = some prior →
      current.get (keyName control) = none ∨ prior.get (keyName control) = current.get (keyName control)) := by
  unfold withManagedControlsActivation at h
  rw [hactive] at h
  cases hrevision : db.managed.revision with
  | none =>
    rw [hrevision] at h
    cases h
  | some state =>
    rw [hrevision] at h
    simp only [Lib.ite_error_eq_ok, Lib.bind_eq_ok] at h
    obtain ⟨-, -, ⟨layers, n⟩, hlayers, presented, hpresented, durable, -, -, hview⟩ := h
    cases hview
    have hpresent : layer ∈ presented := by
      rcases List.mem_append.1 hlayer with hlocal | hpresent
      · have hlocalKind : layer.kind = .localAdmin := by simpa using (List.mem_filter.1 hlocal).2
        rw [hkind] at hlocalKind
        cases hlocalKind
      · exact hpresent
    have heq : layers = db.managed.layers := layers_of_activation hactive hlayers
    rw [← heq]
    exact enables_presentManaged hpresented ⟨layer, hpresent, control, hcontrol, henabled, rfl⟩

/-! ## Reads after an activation -/

/-- Completed reads after an activation under the catalog, with their registries and views; `contract` is the first
manifest that one of them left recorded for the catalog.  Once there is one, `ok` is asked of every read and of the
state before it.  Other operations may come between the reads. -/
inductive Reads (k : Keys) (ok : Registry → World → Prop) (catalogDigest : String) (w₀ : World) :
    Option Manifest → List (Registry × ExtensionControlAuthorityView) → World → Prop
  | start : Reads k ok catalogDigest w₀ none [] w₀
  | read {contract : Option Manifest} {reads : List (Registry × ExtensionControlAuthorityView)} {w w' : World}
      (before : Reads k ok catalogDigest w₀ contract reads w) (registry : Registry) (stamp : String)
      (v : ExtensionControlAuthorityView) (meets : contract.isSome → ok registry w)
      (runs : Runs (readExtensionControlAuthorityForRegistry k registry true stamp) w (.ok v) w') :
      Reads k ok catalogDigest w₀ (contract.or ((w'.db.manifests.get? catalogDigest).map (·.manifest)))
        (reads ++ [(registry, v)]) w'
  | other {contract : Option Manifest} {reads : List (Registry × ExtensionControlAuthorityView)} {w w' : World}
      (before : Reads k ok catalogDigest w₀ contract reads w) (operation : Operation k w w')
      (managed : w'.db.managed = w.db.managed) (manifests : w'.db.manifests = w.db.manifests) :
      Reads k ok catalogDigest w₀ contract reads w'

/-- A registry of the activation's catalog brings the fingerprints that are recorded. -/
def KeepsContract (catalogDigest : String) (registry : Registry) (w : World) : Prop :=
  registry.catalogDigest = catalogDigest → NoDrift registry w

/-- Every enabled control of a signed-cloud layer in the view has the contract's fingerprint in the registry, or the
registry does not know its target. -/
def Bound (contract : Option Manifest) (registry : Registry) (v : ExtensionControlAuthorityView) : Prop :=
  v.health = .isProtected → ∀ layer ∈ v.layers, layer.kind = .signedCloud →
    ∀ control ∈ layer.controls, control.state = .enabled → registry.manifest.get (keyName control) = none ∨
      ∃ m, contract = some m ∧ m.get (keyName control) = registry.manifest.get (keyName control)

variable {contract : Option Manifest} {registry : Registry}

theorem Bound.or {other : Option Manifest} (h : Bound contract registry v) :
    Bound (contract.or other) registry v := by
  intro hhealth layer hlayer hkind control hcontrol henabled
  obtain hnone | ⟨m, hm, heq⟩ := h hhealth layer hlayer hkind control hcontrol henabled
  · exact .inl hnone
  · exact .inr ⟨m, by rw [hm]; rfl, heq⟩

/-- What holds between the reads: the manifest that is recorded for the catalog agrees with the contract. -/
structure ContractKept (k : Keys) (catalogDigest : String) (managed : ManagedState) (contract : Option Manifest)
    (w : World) : Prop where
  phase : Phase k w.ledger
  managedState : w.db.managed = managed
  recorded : ∀ m, contract = some m →
    ∃ row, w.db.manifests.get? catalogDigest = some row ∧ Agrees managed.layers m row.manifest

/-- A read leaves a manifest recorded that agrees with the contract, and there is one as soon as any is recorded. -/
theorem ContractKept.read {managed : ManagedState} {w w' : World} (h : ContractKept k catalogDigest managed contract w)
    (hmeets : contract.isSome → KeepsContract catalogDigest registry w)
    (hread : RegistryRead k registry true w (.ok v) w') :
    ContractKept k catalogDigest managed (contract.or ((w'.db.manifests.get? catalogDigest).map (·.manifest))) w' := by
  refine ⟨hread.steps.phase h.phase, hread.managedState.trans h.managedState, fun m hm => ?_⟩
  cases contract with
  | none =>
    rw [Option.none_or, Option.map_eq_some_iff] at hm
    obtain ⟨row, hrow, rfl⟩ := hm
    exact ⟨row, hrow, agrees_refl _ _⟩
  | some m' =>
    cases hm
    obtain ⟨row, hrow, hagrees⟩ := h.recorded m rfl
    obtain hsame | ⟨-, row', hrow', hinsert⟩ := hread.records
    · exact ⟨row, by rw [hsame]; exact hrow, hagrees⟩
    · by_cases hcatalog : registry.catalogDigest = catalogDigest
      · refine ⟨row', by rw [hinsert, hcatalog, KeyMap.get?_insert, if_pos rfl], ?_⟩
        have hdrift := hmeets rfl hcatalog row (by rw [hcatalog]; exact hrow)
        rw [h.managedState] at hdrift
        rw [hrow']
        exact hagrees.trans hdrift
      · refine ⟨row, ?_, hagrees⟩
        rw [hinsert, KeyMap.get?_insert, if_neg (Ne.symm hcatalog)]
        exact hrow

/-- **A read presents as enabled only what the contract allows**, whatever fingerprints it brings. -/
theorem ContractKept.bound {managed : ManagedState} {active : Sealed ActivationRecord}
    {w w' : World} (hactive : managed.active = some active) (hdigest : active.record.catalogDigest = catalogDigest)
    (h : ContractKept k catalogDigest managed contract w) (hread : RegistryRead k registry true w (.ok v) w') :
    Bound (contract.or ((w'.db.manifests.get? catalogDigest).map (·.manifest))) registry v := by
  intro hhealth layer hlayer hkind control hcontrol henabled
  obtain ⟨s, row, db, stale, hprotects, hrow, hmanifest, hsame, hdb, hreplaces, hcomposed⟩ :=
    hread.view rfl v rfl hhealth
  have hdbManaged : db.managed = managed := hdb.trans h.managedState
  obtain ⟨henables, hother, hown⟩ :=
    enables_withManaged (hdbManaged ▸ hactive) hcomposed hlayer hkind hcontrol henabled
  rw [hdbManaged] at henables
  rw [hdigest, hprotects.catalog] at hother hown
  by_cases hcatalog : catalogDigest = registry.catalogDigest
  · cases contract with
    | none => exact .inr ⟨row.manifest, by rw [hcatalog, hrow]; rfl, by rw [hmanifest]⟩
    | some m =>
      obtain ⟨row₀, hrow₀, hagrees⟩ := h.recorded m rfl
      rw [hcatalog] at hrow₀
      -- what the read finds recorded is what it compares with, and the contract agrees with it
      have hmatch : registry.manifest.get (keyName control) = none ∨
          row₀.manifest.get (keyName control) = registry.manifest.get (keyName control) := by
        cases stale with
        | none => exact .inr (by rw [hreplaces row₀ hrow₀])
        | some prior =>
          obtain ⟨row', hrow', rfl⟩ := hreplaces
          cases hrow₀.symm.trans hrow'
          exact hown hcatalog _ rfl
      exact hmatch.imp_right fun heq => ⟨m, rfl, (hagrees.get_eq henables).trans heq⟩
  · obtain hnone | ⟨row₀, hrow₀, heq⟩ := hother hcatalog
    · exact .inl hnone
    · have hkept := h.read (fun _ hdigest => absurd hdigest.symm hcatalog) hread
      rw [← hsame.manifests catalogDigest hcatalog] at hrow₀
      rw [hrow₀] at hkept ⊢
      obtain ⟨m, hm⟩ : ∃ m, contract.or (some row₀.manifest) = some m := by
        cases contract with
        | none => exact ⟨row₀.manifest, rfl⟩
        | some m => exact ⟨m, rfl⟩
      obtain ⟨row', hrow', hagrees⟩ := hkept.recorded m hm
      cases hrow₀.symm.trans hrow'
      exact .inr ⟨m, hm, (hagrees.get_eq henables).trans heq⟩

theorem Reads.bound {active : Sealed ActivationRecord}
    {reads : List (Registry × ExtensionControlAuthorityView)} {w₀ w : World}
    (hphase : Phase k w₀.ledger) (hactive : w₀.db.managed.active = some active)
    (hdigest : active.record.catalogDigest = catalogDigest)
    (h : Reads k (KeepsContract catalogDigest) catalogDigest w₀ contract reads w) :
    ContractKept k catalogDigest w₀.db.managed contract w ∧ ∀ p ∈ reads, Bound contract p.1 p.2 := by
  induction h with
  | start => exact ⟨⟨hphase, rfl, fun m hm => by cases hm⟩, fun p hp => by cases hp⟩
  | read before registry stamp v meets runs ih =>
    obtain ⟨hkept, hbound⟩ := ih
    have hread := registryRead hkept.phase runs
    refine ⟨hkept.read meets hread, fun p hp => ?_⟩
    rcases List.mem_append.1 hp with hp | hp
    · exact (hbound p hp).or
    · rw [List.mem_singleton] at hp
      rw [hp]
      exact hkept.bound hactive hdigest hread
  | other before operation managed manifests ih =>
    obtain ⟨hkept, hbound⟩ := ih
    refine ⟨⟨operation.phase hkept.phase, managed.trans hkept.managedState, fun m hm => ?_⟩, hbound⟩
    rw [manifests]
    exact hkept.recorded m hm

theorem active_of_apply {call : ApplyCall} {p : ParsedManagedControlsPolicy} {w w' : World}
    (hpolicy : call.policy = some p) (h : Runs (applyPolicyBundleAuthority k call) w (.ok true) w') :
    w'.ledger = w.ledger ∧
      ∃ active, w'.db.managed.active = some active ∧ active.record.catalogDigest = call.builtInCatalogDigest := by
  unfold applyPolicyBundleAuthority at h
  obtain ⟨v, hledger, -, ⟨hbad, -⟩ | h⟩ := runs_invalidate_bind h
  · cases hbad
  obtain ⟨base, u, hread, hrest⟩ := Faulty.runs_bind_ok h
  obtain ⟨rfl, hbad | ⟨_, heq, hbase, -⟩⟩ := runs_read hread
  · cases hbad
  cases heq
  replace hrest := Faulty.runs_get_bind hrest
  split at hrest
  · cases (Faulty.runs_pure hrest).1
  · rename_i m hplan
    obtain ⟨hbad, -⟩ | hpure := Faulty.runs_write_bind hrest
    · cases hbad
    rw [(Faulty.runs_pure hpure).2]
    refine ⟨hledger, ?_⟩
    unfold planActivation at hplan
    split at hplan
    · cases hplan
    obtain ⟨previous, -, hplan⟩ := Lib.bind_eq_ok.1 hplan
    simp only [hpolicy, Lib.ite_error_eq_ok, not_not] at hplan
    obtain ⟨hprotected, hplan⟩ := hplan
    split at hplan
    · cases hplan
    · simp only [buildManagedControlsActivationState, Lib.bind_eq_ok, Lib.ite_error_eq_ok] at hplan
      obtain ⟨active, ⟨-, -, hactive⟩, hm⟩ := hplan
      cases hactive
      cases hm
      obtain ⟨s, hprotects, rfl⟩ := hbase hprotected
      exact ⟨_, rfl, hprotects.catalog⟩

/-- **Managed allows do not outlive their contract**: after an activation, a protected view presents a signed-cloud
control as enabled only if the registry of the read gives its target the fingerprint first recorded for the activation's
catalog, or does not know the target.  It holds up to the first read under that catalog that brings another fingerprint
for what the bundle enables, that read included: the earlier ones keep the contract, and nothing is asked of the
last. -/
theorem managed_allows_bound {call : ApplyCall} {p : ParsedManagedControlsPolicy} {contract : Option Manifest}
    {reads : List (Registry × ExtensionControlAuthorityView)} {w₀ w₁ w w' : World} {registry : Registry}
    {stamp : String} {v : ExtensionControlAuthorityView} (hreached : Reached k w₀) (hpolicy : call.policy = some p)
    (happly : Runs (applyPolicyBundleAuthority k call) w₀ (.ok true) w₁)
    (hreads : Reads k (KeepsContract call.builtInCatalogDigest) call.builtInCatalogDigest w₁ contract reads w)
    (hlast : Runs (readExtensionControlAuthorityForRegistry k registry true stamp) w (.ok v) w') :
    ∀ q ∈ reads ++ [(registry, v)], q.2.health = .isProtected → ∀ layer ∈ q.2.layers, layer.kind = .signedCloud →
      ∀ control ∈ layer.controls, control.state = .enabled →
        q.1.manifest.get (keyName control) = none ∨
          ∃ m, contract.or ((w'.db.manifests.get? call.builtInCatalogDigest).map (·.manifest)) = some m ∧
            m.get (keyName control) = q.1.manifest.get (keyName control) := by
  obtain ⟨hledger, active, hactive, hdigest⟩ := active_of_apply hpolicy happly
  obtain ⟨hkept, hbound⟩ := Reads.bound (hledger ▸ hreached.phase) hactive hdigest hreads
  exact List.forall_mem_append.2 ⟨fun q hq => (hbound q hq).or,
    List.forall_mem_singleton.2 (hkept.bound hactive hdigest (registryRead hkept.phase hlast))⟩

/-! ## A drifted read, and a target that the registry does not know -/

def readElsewhere (manifest : Manifest) (w : World) : Except String ExtensionControlAuthorityView × World :=
  let out := readExtensionControlAuthorityForRegistry sampleKeys ⟨otherCatalog, manifest⟩ true sampleClock.stamp w []
  (out.1, out.2.1)

def sampleOtherView : ExtensionControlAuthorityView :=
  ⟨.isProtected, 1, otherCatalog, [⟨"1.0.0", .signedCloud, otherCatalog, false, [sampleControl]⟩], 1⟩

theorem reached_sampleEnrolled : Reached sampleKeys sampleEnrolled :=
  ⟨⟨Database.empty, none, 0, ⟨"/home", false, false, 0⟩, KeyMap.empty, []⟩, rfl,
    .single (.enroll sampleCatalog sampleClock.stamp _ ⟨[], rfl, rfl⟩)⟩

theorem runs_sampleApply :
    Runs (applyPolicyBundleAuthority sampleKeys sampleApply) sampleEnrolled (.ok true) sampleActivated :=
  ⟨[], by decide +kernel, rfl⟩

/-- The first read after the activation records the fingerprint `one`. -/
theorem reads_one (ok : Registry → World → Prop) :
    Reads sampleKeys ok sampleCatalog sampleActivated (some (sampleRegistry "one").manifest)
      [(sampleRegistry "one", sampleView .enabled)] (sampleReads ["one"]) := by
  have hone : (sampleRead "one" sampleActivated).1 = .ok (sampleView .enabled) := by decide +kernel
  rw [← recorded_sampleReads]
  exact .read .start _ _ _ (fun hsome => by cases hsome) (runs_sampleRead hone)

/-- After two reads with the fingerprint `one`, another catalog that has it keeps the allow, and the activation's own
catalog with `two` retires it. -/
theorem drifted_read_bound :
    (readElsewhere (sampleRegistry "one").manifest (sampleReads ["one", "one"])).1 = .ok sampleOtherView ∧
    (∃ m, some (sampleRegistry "one").manifest = some m ∧
      m.get (keyName sampleControl) = (sampleRegistry "one").manifest.get (keyName sampleControl)) ∧
    ∃ v, (sampleRead "two" (sampleReads ["one", "one"])).1 = .ok v ∧ v.health = .isProtected ∧
      ∀ layer ∈ v.layers, layer.kind = .signedCloud → ∀ control ∈ layer.controls,
        control.state = .enabled → keyName control ≠ keyName sampleControl := by
  have hagain : (sampleRead "one" (sampleReads ["one"])).1 = .ok (sampleView .enabled) := by decide +kernel
  have hother : (readElsewhere (sampleRegistry "one").manifest (sampleReads ["one", "one"])).1 =
      .ok sampleOtherView := by decide +kernel
  have htwo : (sampleRead "two" (sampleReads ["one", "one"])).1 = .ok (sampleView .disabled) := by decide +kernel
  have hreads := (reads_one (KeepsContract sampleCatalog)).read _ _ _ (fun _ _ => noDrift_sampleReads)
    (runs_sampleRead hagain)
  refine ⟨hother, ?_, _, htwo, rfl, fun layer hlayer hkind control hcontrol henabled hkey => ?_⟩
  · refine (managed_allows_bound reached_sampleEnrolled rfl runs_sampleApply hreads ⟨[], hother, rfl⟩ _
      List.mem_concat_self rfl _ List.mem_cons_self rfl sampleControl List.mem_cons_self
      rfl).resolve_left ?_
    decide +kernel
  · obtain hnone | ⟨m, hm, heq⟩ := managed_allows_bound reached_sampleEnrolled rfl runs_sampleApply hreads
      (runs_sampleRead htwo) _ List.mem_concat_self rfl layer hlayer hkind control hcontrol henabled
    · rw [hkey] at hnone
      exact absurd hnone (by decide +kernel)
    · cases hm
      rw [hkey] at heq
      exact absurd heq (by decide +kernel)

/-- **An unknown target stays enabled**: the fingerprint recorded for it is `one`, and the registry has none. -/
theorem unknown_target_stays_enabled :
    Runs (applyPolicyBundleAuthority sampleKeys sampleApply) sampleEnrolled (.ok true) sampleActivated ∧
    Reads sampleKeys (fun _ _ => True) sampleCatalog sampleActivated (some (sampleRegistry "one").manifest)
      [(sampleRegistry "one", sampleView .enabled), (⟨otherCatalog, Lib.SortedMap.empty⟩, sampleOtherView)]
      (readElsewhere Lib.SortedMap.empty (sampleReads ["one"])).2 ∧
    sampleControl.state = .enabled ∧
    (sampleRegistry "one").manifest.get (keyName sampleControl) = some "one" ∧
    Manifest.get Lib.SortedMap.empty (keyName sampleControl) = none := by
  refine ⟨runs_sampleApply, ?_, rfl, by decide +kernel, rfl⟩
  have hother : (readElsewhere Lib.SortedMap.empty (sampleReads ["one"])).1 = .ok sampleOtherView := by
    decide +kernel
  exact (reads_one _).read _ _ _ (fun _ => trivial) ⟨[], hother, rfl⟩

end ControlAuthority
end Guard
