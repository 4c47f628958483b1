import HolGuard.ControlAuthority.Managed
import HolGuard.ControlAuthority.Recovery
/-!
# What a read for a registry does

`read_extension_control_authority_for_registry` moves the ledger by steps, records the registry's manifest under its own
catalog digest, and composes its view from the stored snapshot and the managed state.  The view depends on the manifests
only through the fingerprints of the targets that the active bundle enables.
-/
namespace Guard
namespace ControlAuthority

open Lib (Faulty KeyMap)
open Lib.Faulty (Runs after_bind after_fail after_lift after_pure runs_get_bind)

variable {k : Keys}

/-! ## Manifests that agree -/

/-- The two manifests give every target that the layers enable the same fingerprint, or both none. -/
def Agrees (layers : List ExtensionControlLayer) (m n : Manifest) : Prop :=
  ∀ layer ∈ layers, ∀ control ∈ layer.controls, control.state = .enabled →
    m.get (keyName control) = n.get (keyName control)

theorem agrees_refl (layers : List ExtensionControlLayer) (m : Manifest) : Agrees layers m m :=
  fun _ _ _ _ _ => rfl

variable {prior current : Manifest} {control : ExtensionControl}

theorem restate_disabled (h : control.state = .disabled) :
    restate prior current control = control := by
  unfold restate
  split
  · rfl
  · rw [← h]

theorem preserve_enabled (h : control.state = .enabled) :
    preserveManagedExtensionControl control prior current = true ↔
      current.get (keyName control) = none ∨ prior.get (keyName control) = current.get (keyName control) := by
  unfold preserveManagedExtensionControl
  cases hcurrent : current.get (keyName control) with
  | none => simp
  | some fingerprint => simp [h]

variable {current' : Manifest}

/-- A control that the layers enable is restated by its fingerprints alone. -/
theorem restate_congr
    (h : control.state = .enabled → current.get (keyName control) = current'.get (keyName control)) :
    restate prior current control = restate prior current' control := by
  cases hstate : control.state with
  | disabled => rw [restate_disabled hstate, restate_disabled hstate]
  | enabled =>
    have hsame : preserveManagedExtensionControl control prior current =
        preserveManagedExtensionControl control prior current' := by
      rw [Bool.eq_iff_iff, preserve_enabled hstate, preserve_enabled hstate, h hstate]
    rw [restate, restate, hsame]

theorem restate_self
    (h : control.state = .enabled → prior.get (keyName control) = current.get (keyName control)) :
    restate prior current control = control := by
  cases hstate : control.state with
  | disabled => exact restate_disabled hstate
  | enabled => rw [restate, if_pos ((preserve_enabled hstate).2 (.inr (h hstate)))]

variable {catalogDigest : String}

theorem restateLayers_congr {layers : List ExtensionControlLayer} (h : Agrees layers current current') :
    restateLayers layers catalogDigest prior current = restateLayers layers catalogDigest prior current' := by
  refine List.map_congr_left fun layer hlayer => ?_
  have hcontrols : layer.controls.map (restate prior current) = layer.controls.map (restate prior current') :=
    List.map_congr_left fun control hcontrol => restate_congr (h layer hlayer control hcontrol)
  rw [hcontrols]

theorem restateLayers_self {layers : List ExtensionControlLayer} (h : Agrees layers prior current)
    (hcatalog : ∀ layer ∈ layers, layer.catalogDigest = catalogDigest) :
    restateLayers layers catalogDigest prior current = layers := by
  refine (List.map_congr_left fun layer hlayer => ?_).trans (List.map_id layers)
  have hcontrols : layer.controls.map (restate prior current) = layer.controls :=
    (List.map_congr_left fun control hcontrol => restate_self (h layer hlayer control hcontrol)).trans (List.map_id _)
  rw [hcontrols, ← hcatalog layer hlayer, id]

/-! ## Composed views -/

/-- The databases have the same managed state, and the same manifests but for one catalog. -/
structure SameManaged (catalogDigest : String) (db db' : Database) : Prop where
  managed : db'.managed = db.managed
  manifests : ∀ catalog, catalog ≠ catalogDigest → db'.manifests.get? catalog = db.manifests.get? catalog

variable {db : Database}

theorem SameManaged.load {catalog : String} {db' : Database} (h : SameManaged catalogDigest db db')
    (hne : catalog ≠ catalogDigest) :
    loadCatalogManifest k db' catalog = loadCatalogManifest k db catalog := by
  unfold loadCatalogManifest
  rw [h.manifests catalog hne]

def ManagedState.layers (managed : ManagedState) : List ExtensionControlLayer :=
  match managed.active with
  | none => []
  | some active => active.record.signedCloudLayers

theorem layers_of_activation {managed : ManagedState} {active : Sealed ActivationRecord}
    {layers : List ExtensionControlLayer} {n : Nat} (hactive : managed.active = some active)
    (h : managedControlsLayersFromActivationState k active active.record.catalogDigest = .ok (layers, n)) :
    layers = managed.layers := by
  simp only [managedControlsLayersFromActivationState, Lib.ite_error_eq_ok, Lib.bind_eq_ok, ne_eq, not_true_eq_false,
    not_false_eq_true, true_and] at h
  obtain ⟨activation, hverify, -, -, hout⟩ := h
  have hrecord := congrArg Sealed.record (k.activation.verify_eq_ok hverify)
  cases hout
  rw [ManagedState.layers, hactive]
  simp only at hrecord ⊢
  rw [hrecord]
  rfl

variable {stale : Option Manifest}

theorem presentManaged_congr {db' : Database} {activeCatalog : String}
    {layers presented : List ExtensionControlLayer} (hsame : SameManaged catalogDigest db db')
    (hagrees : Agrees layers current current') (hstale : ∀ prior, stale = some prior → Agrees layers prior current)
    (h : presentManaged k db activeCatalog layers catalogDigest current stale = .ok presented) :
    presentManaged k db' activeCatalog layers catalogDigest current' none = .ok presented := by
  unfold presentManaged at h ⊢
  by_cases hcatalog : activeCatalog ≠ catalogDigest
  · rw [if_pos hcatalog] at h ⊢
    rw [hsame.load hcatalog]
    simp only [restateLayers_congr hagrees] at h
    exact h
  · rw [if_neg hcatalog] at h ⊢
    cases stale with
    | none => exact h
    | some prior =>
      simp only at h
      split at h
      · exact h
      · rw [Lib.ite_error_eq_ok] at h
        obtain ⟨hlayers, heq⟩ := h
        cases heq
        push Not at hcatalog
        have hall : ∀ layer ∈ layers, layer.catalogDigest = catalogDigest := by
          rw [← hcatalog]
          simpa using hlayers
        rw [restateLayers_self (hstale prior rfl) hall]

variable {view : ExtensionControlAuthorityView}

/-- **A composed view depends on the manifests only through the targets that are enabled.** -/
theorem withManaged_congr {db' : Database} {v : ExtensionControlAuthorityView}
    (hsame : SameManaged view.catalogDigest db db') (hagrees : Agrees db.managed.layers current current')
    (hstale : ∀ prior, stale = some prior → Agrees db.managed.layers prior current)
    (h : withManagedControlsActivation k db view current stale = .ok v) :
    withManagedControlsActivation k db' view current' none = .ok v := by
  unfold withManagedControlsActivation at h ⊢
  rw [hsame.managed]
  cases hactive : db.managed.active with
  | none =>
    rw [hactive] at h
    cases hrevision : db.managed.revision with
    | none =>
      rw [hrevision] at h
      exact h
    | some state =>
      rw [hrevision] at h
      exact h
  | some active =>
    cases hrevision : db.managed.revision with
    | none =>
      rw [hactive, hrevision] at h
      cases h
    | some state =>
      rw [hactive, hrevision] at h
      simp only [Lib.ite_error_eq_ok, Lib.bind_eq_ok] at h ⊢
      obtain ⟨hhealth, hcatalog, ⟨layers, n⟩, hlayers, presented, hpresented, durable, hdurable, hrest⟩ := h
      refine ⟨hhealth, hcatalog, (layers, n), hlayers, presented, ?_, durable, hdurable, hrest⟩
      have heq : layers = db.managed.layers := layers_of_activation hactive hlayers
      rw [← heq] at hagrees hstale
      exact presentManaged_congr hsame hagrees hstale hpresented

/-! ## Recording a manifest -/

section Record

variable {registry : Registry} {stamp : String} {w v w' : World}

/-- The manifests are as they were, or the registry's is recorded and the snapshot is of its catalog. -/
def Records (registry : Registry) (w w' : World) : Prop :=
  w'.db.manifests = w.db.manifests ∨
    (∃ s, w'.db.snapshot = some s ∧ s.catalogDigest = registry.catalogDigest) ∧
      ∃ row, row.manifest = registry.manifest ∧
        w'.db.manifests = w.db.manifests.insert registry.catalogDigest row

theorem runs_writeCatalogManifest {r : Except String Unit} (h : Runs (writeCatalogManifest k registry stamp) w r w') :
    w'.ledger = w.ledger ∧ w'.db.managed = w.db.managed ∧
      ((w'.db.manifests = w.db.manifests ∧ r ≠ .ok ()) ∨ ∃ row, row.manifest = registry.manifest ∧
        w'.db.manifests = w.db.manifests.insert registry.catalogDigest row) := by
  unfold writeCatalogManifest at h
  obtain ⟨v, hledger, hkeep, ⟨rfl, rfl⟩ | hwrite⟩ := runs_invalidate_bind h
  · exact ⟨hledger, hkeep.managed, .inl ⟨hkeep.manifests, nofun⟩⟩
  · rw [← hledger, ← hkeep.managed, ← hkeep.manifests]
    obtain ⟨-, rfl⟩ | ⟨rfl, rfl | rfl⟩ := Faulty.runs_write hwrite
    · exact ⟨rfl, rfl, .inr ⟨_, rfl, rfl⟩⟩
    · exact ⟨rfl, rfl, .inl ⟨rfl, nofun⟩⟩
    · exact ⟨rfl, rfl, .inr ⟨_, rfl, rfl⟩⟩

/-- The manifest that a read finds recorded and replaces; there is none if nothing or the registry's own is recorded. -/
def Replaces (registry : Registry) (w : World) : Option Manifest → Prop
  | none => ∀ row, w.db.manifests.get? registry.catalogDigest = some row → row.manifest = registry.manifest
  | some prior => ∃ row, w.db.manifests.get? registry.catalogDigest = some row ∧ prior = row.manifest

/-- How the manifest is brought up to date: the view is of the stored snapshot still, and either the registry's manifest
is recorded, or the recorded one is stale. -/
structure Synced (k : Keys) (registry : Registry) (w : World)
    (r : Except String (ExtensionControlAuthorityView × Option Manifest)) (w' : World) : Prop where
  steps : Steps k Rights.transitions w.ledger w'.ledger
  managed : w'.db.managed = w.db.managed
  records : Records registry w w'
  view : ∀ out, r = .ok out → Shows k registry.catalogDigest out.1 w'
  stale : ∀ out, r = .ok out →
    (out.2 = none ∧ Replaces registry w none ∧
      ∃ row, w'.db.manifests.get? registry.catalogDigest = some row ∧ row.manifest = registry.manifest) ∨
    ∃ row, w.db.manifests.get? registry.catalogDigest = some row ∧ out.2 = some row.manifest ∧
      w'.db.manifests = w.db.manifests

theorem Synced.of_error {e : String} (hsteps : Steps k Rights.transitions w.ledger w'.ledger)
    (hmanaged : w'.db.managed = w.db.managed) (hrecords : Records registry w w') : Synced k registry w (.error e) w' :=
  ⟨hsteps, hmanaged, hrecords, nofun, nofun⟩

theorem loadCatalogManifest_eq {row : ManifestRow} {m : Manifest} (hrow : db.manifests.get? catalogDigest = some row)
    (h : loadCatalogManifest k db catalogDigest = .ok (some m)) : m = row.manifest := by
  simp only [loadCatalogManifest, hrow, Lib.bind_eq_ok, Lib.ite_error_eq_ok] at h
  obtain ⟨-, -, -, h⟩ := h
  cases h
  rfl

theorem ends_rebindDrifted {persisted : Manifest} {r : Except String ExtensionControlAuthorityView}
    (hphase : Phase k w.ledger) (hview : Shows k registry.catalogDigest view w)
    (h : Runs (rebindDrifted k view registry persisted stamp) w r w') :
    Ends k Rights.transitions (Shows k registry.catalogDigest) w r w' := by
  unfold rebindDrifted at h
  split at h
  · obtain ⟨s, hprotects, hs⟩ := hview
    have hcatalog : view.catalogDigest = registry.catalogDigest := by rw [hs]; exact hprotects.catalog
    exact ends_migrate (fun _ _ => trivial) (fun _ _ => trivial) hphase (hcatalog ▸ hprotects) hs h
  · exact after_pure h (.answers hview)

theorem runs_syncTrustedCatalogManifest
    {r : Except String (ExtensionControlAuthorityView × Option Manifest)}
    (hphase : Phase k w.ledger) (hview : Shows k registry.catalogDigest view w)
    (h : Runs (syncTrustedCatalogManifest k view registry stamp) w r w') :
    Synced k registry w r w' := by
  unfold syncTrustedCatalogManifest at h
  replace h := runs_get_bind h
  split at h
  · -- the first manifest of the catalog
    rename_i hunrecorded
    obtain ⟨s, hprotects, hs⟩ := hview
    have hwritten : ∀ {r' t}, Runs (writeCatalogManifest k registry stamp) w r' t →
        t.ledger = w.ledger ∧ t.db.managed = w.db.managed ∧ Records registry w t := by
      intro r' t hwrite
      obtain ⟨hledger, hmanaged, hmanifests⟩ := runs_writeCatalogManifest hwrite
      refine ⟨hledger, hmanaged, hmanifests.imp (fun hsame => hsame.1) fun hrow => ⟨⟨s, ?_, hprotects.catalog⟩, hrow⟩⟩
      exact (hprotects.congr hledger).snapshot
    refine after_bind h (fun e t hwrite => ?_) fun u t hwrite h => ?_
    · obtain ⟨hledger, hmanaged, hrecords⟩ := hwritten hwrite
      exact .of_error (by rw [hledger]) hmanaged hrecords
    · obtain ⟨hledger, hmanaged, hrecords⟩ := hwritten hwrite
      obtain ⟨-, -, ⟨-, hbad⟩ | ⟨row, hrow, hinsert⟩⟩ := runs_writeCatalogManifest hwrite
      · exact absurd rfl hbad
      refine after_pure h ⟨by rw [hledger], hmanaged, hrecords, fun out hout => ?_, fun out hout => ?_⟩ <;> cases hout
      · exact ⟨s, hprotects.congr hledger, hs⟩
      · refine .inl ⟨rfl, fun row' hrow' => ?_, row, by rw [hinsert, KeyMap.get?_insert, if_pos rfl], hrow⟩
        rw [hunrecorded] at hrow'
        cases hrow'
  · rename_i row hrow
    refine after_lift h (fun _ _ => .of_error .refl rfl (.inl rfl)) fun loaded hload h => ?_
    cases loaded with
    | none =>
      exact after_fail h (.of_error .refl rfl (.inl rfl))
    | some persisted =>
      have hpersisted := loadCatalogManifest_eq hrow hload
      simp only at h
      by_cases hsame : persisted = registry.manifest
      · rw [if_pos hsame] at h
        refine after_pure h ⟨.refl, rfl, .inl rfl, fun out hout => ?_, fun out hout => ?_⟩ <;> cases hout
        · exact hview
        · refine .inl ⟨rfl, fun row' hrow' => ?_, row, hrow, hpersisted ▸ hsame⟩
          cases hrow.symm.trans hrow'
          exact hpersisted ▸ hsame
      · rw [if_neg hsame] at h
        refine after_bind h (fun e t hrebind => ?_) fun rebound t hrebind h => ?_
        · have hends := ends_rebindDrifted hphase hview hrebind
          exact .of_error hends.steps hends.keeps.managed (.inl hends.keeps.manifests)
        · have hends := ends_rebindDrifted hphase hview hrebind
          refine after_pure h ⟨hends.steps, hends.keeps.managed, .inl hends.keeps.manifests, fun out hout => ?_,
            fun out hout => ?_⟩ <;> cases hout
          · exact hends.view _ rfl
          · exact .inr ⟨row, hrow, by rw [hpersisted], hends.keeps.manifests⟩

end Record

/-! ## A read -/

section Read

variable {registry : Registry} {managed : Bool} {stamp : String} {w v w' : World}
  {r : Except String ExtensionControlAuthorityView}

theorem Records.after (hmanifests : v.db.manifests = w.db.manifests) (h : Records registry v w') :
    Records registry w w' := by
  unfold Records at h ⊢
  rw [hmanifests] at h
  exact h

/-- Composing changes no ledger, and records the registry's manifest in place of a stale one. -/
theorem runs_composeAndRecord
    (hcatalog : stale.isSome → ∃ s, w.db.snapshot = some s ∧ s.catalogDigest = registry.catalogDigest)
    (h : Runs (composeAndRecord k registry managed stamp view stale) w r w') :
    w'.ledger = w.ledger ∧ w'.db.managed = w.db.managed ∧ Records registry w w' ∧ (stale = none → w' = w) ∧
    ∀ c, r = .ok c →
      (if managed then withManagedControlsActivation k w.db view registry.manifest stale else .ok view) = .ok c ∧
      (stale.isSome → ∃ row, row.manifest = registry.manifest ∧
        w'.db.manifests = w.db.manifests.insert registry.catalogDigest row) := by
  unfold composeAndRecord at h
  refine after_lift (runs_get_bind h) (fun _ _ => ⟨rfl, rfl, .inl rfl, fun _ => rfl, nofun⟩)
    fun composed hcomposed h => ?_
  cases stale with
  | none =>
    refine after_pure h ⟨rfl, rfl, .inl rfl, fun _ => rfl, fun c hc => ?_⟩
    cases hc
    exact ⟨hcomposed, nofun⟩
  | some prior =>
    obtain ⟨s, hs, hsc⟩ := hcatalog rfl
    refine after_bind h (fun e t hwrite => ?_) fun u t hwrite h => ?_
    · obtain ⟨hledger, hmanaged, hmanifests⟩ := runs_writeCatalogManifest hwrite
      have hs' := (World.ledger_eq (w := t) (hledger : t.ledger = ⟨_, _, _⟩)).1.trans hs
      exact ⟨hledger, hmanaged, hmanifests.imp (fun hsame => hsame.1) fun hrow => ⟨⟨s, hs', hsc⟩, hrow⟩, nofun, nofun⟩
    · obtain ⟨hledger, hmanaged, ⟨-, hbad⟩ | hrow⟩ := runs_writeCatalogManifest hwrite
      · exact absurd rfl hbad
      have hs' := (World.ledger_eq (w := t) (hledger : t.ledger = ⟨_, _, _⟩)).1.trans hs
      refine after_pure h ⟨hledger, hmanaged, .inr ⟨⟨s, hs', hsc⟩, hrow⟩, nofun, fun c hc => ?_⟩
      cases hc
      exact ⟨hcomposed, fun _ => hrow⟩

/-- The view is composed from the stored snapshot and the managed state, with the registry's manifest for the current
one: nothing else of the manifests matters than what is enabled. -/
def Composes (k : Keys) (registry : Registry) (w w' : World) (v : ExtensionControlAuthorityView) : Prop :=
  ∃ s row db stale, Protects k registry.catalogDigest w' s ∧
    w'.db.manifests.get? registry.catalogDigest = some row ∧ row.manifest = registry.manifest ∧
    SameManaged registry.catalogDigest db w'.db ∧ db.managed = w.db.managed ∧
    Replaces registry w stale ∧
    withManagedControlsActivation k db (protectedView s) registry.manifest stale = .ok v

/-- What a read for a registry does. -/
structure RegistryRead (k : Keys) (registry : Registry) (managed : Bool) (w : World)
    (r : Except String ExtensionControlAuthorityView) (w' : World) : Prop where
  steps : Steps k Rights.transitions w.ledger w'.ledger
  managedState : w'.db.managed = w.db.managed
  records : Records registry w w'
  view : managed = true → ∀ v, r = .ok v → v.health = .isProtected → Composes k registry w w' v

theorem health_withManaged {v : ExtensionControlAuthorityView}
    (h : withManagedControlsActivation k db view current stale = .ok v) :
    v.health = view.health ∧ v.revision = view.revision ∧ v.catalogDigest = view.catalogDigest := by
  unfold withManagedControlsActivation at h
  split at h
  · cases h
    exact ⟨rfl, rfl, rfl⟩
  · obtain ⟨n, -, h⟩ := Lib.bind_eq_ok.1 h
    cases h
    exact ⟨rfl, rfl, rfl⟩
  · cases h
  · simp only [Lib.ite_error_eq_ok, Lib.bind_eq_ok] at h
    obtain ⟨-, -, ⟨layers, n⟩, -, presented, -, durable, -, -, h⟩ := h
    cases h
    exact ⟨rfl, rfl, rfl⟩

theorem RegistryRead.of_error {e : String} (hsteps : Steps k Rights.transitions w.ledger w'.ledger)
    (hmanaged : w'.db.managed = w.db.managed) (hrecords : Records registry w w') :
    RegistryRead k registry managed w (.error e) w' :=
  ⟨hsteps, hmanaged, hrecords, fun _ => nofun⟩

theorem SameManaged.insert {row : ManifestRow} (hmanaged : w'.db.managed = w.db.managed)
    (hmanifests : w'.db.manifests = w.db.manifests.insert catalogDigest row) :
    SameManaged catalogDigest w.db w'.db :=
  ⟨hmanaged, fun catalog hne => by rw [hmanifests, KeyMap.get?_insert, if_neg hne]⟩

/-- The manifest is brought up to date, and the managed controls are composed. -/
theorem registryRead_synced {out : ExtensionControlAuthorityView × Option Manifest}
    (hsynced : Synced k registry w (.ok out) v)
    (h : Runs (composeAndRecord k registry managed stamp out.1 out.2) v r w') :
    RegistryRead k registry managed w r w' := by
  obtain ⟨s, hprotects, hs⟩ := hsynced.view out rfl
  obtain ⟨hledger, hmanaged, hrecords, hnone, hok⟩ :=
    runs_composeAndRecord (fun _ => ⟨s, hprotects.snapshot, hprotects.catalog⟩) h
  have hsteps : Steps k Rights.transitions w.ledger w'.ledger := by
    rw [hledger]
    exact hsynced.steps
  have hstate := hmanaged.trans hsynced.managed
  have hprotects' := hprotects.congr hledger
  obtain ⟨hout, hreplaces, row, hrow, hmanifest⟩ | ⟨row, hrow, hout, hmanifests⟩ := hsynced.stale out rfl
  · -- the registry's manifest is recorded
    have hw := hnone hout
    refine ⟨hsteps, hstate, by rw [hw]; exact hsynced.records, fun hmanaged view hview _ => ?_⟩
    obtain ⟨hcomposed, -⟩ := hok view hview
    rw [if_pos hmanaged, hs, hout] at hcomposed
    have hsame : SameManaged registry.catalogDigest v.db w'.db := by
      rw [hw]
      exact ⟨rfl, fun _ _ => rfl⟩
    exact ⟨s, row, v.db, none, hprotects', by rw [hw]; exact hrow, hmanifest, hsame, hsynced.managed, hreplaces,
      hcomposed⟩
  · -- the recorded manifest was stale
    refine ⟨hsteps, hstate, hrecords.after hmanifests, fun hmanaged' view hview _ => ?_⟩
    obtain ⟨hcomposed, hinsert⟩ := hok view hview
    obtain ⟨row', hrow', hinserted⟩ := hinsert (by rw [hout]; rfl)
    rw [if_pos hmanaged', hs, hout] at hcomposed
    exact ⟨s, row', v.db, some row.manifest, hprotects', by rw [hinserted, KeyMap.get?_insert, if_pos rfl], hrow',
      .insert hmanaged hinserted, hsynced.managed, ⟨row, hrow, rfl⟩, hcomposed⟩

theorem RegistryRead.before (hkeep : Keeps w v) (hsteps : Steps k Rights.transitions w.ledger v.ledger)
    (h : RegistryRead k registry managed v r w') : RegistryRead k registry managed w r w' where
  steps := hsteps.trans h.steps
  managedState := h.managedState.trans hkeep.managed
  records := h.records.after hkeep.manifests
  view hmanaged view hview hhealth := by
    obtain ⟨s, row, db, stale, hprotects, hrow, hmanifest, hsame, hdb, hreplaces, hcomposed⟩ :=
      h.view hmanaged view hview hhealth
    rw [hkeep.managed] at hdb
    refine ⟨s, row, db, stale, hprotects, hrow, hmanifest, hsame, hdb, ?_, hcomposed⟩
    cases stale with
    | none =>
      intro row' hrow'
      exact hreplaces row' (by rw [hkeep.manifests]; exact hrow')
    | some prior =>
      obtain ⟨row', hrow', hprior⟩ := hreplaces
      exact ⟨row', by rw [← hkeep.manifests]; exact hrow', hprior⟩

theorem registryRead_body (hphase : Phase k w.ledger) (h : Runs (readAndCompose k registry managed stamp) w r w') :
    RegistryRead k registry managed w r w' := by
  unfold readAndCompose at h
  refine after_bind h (fun e t hread => ?_) fun view t hread h => ?_
  · have hreport :=
      reports_readWithRegistry (R := Rights.transitions) (fun _ _ => trivial) (fun _ _ => trivial) hphase hread
    exact .of_error hreport.steps hreport.keeps.managed (.inl hreport.keeps.manifests)
  have hreport :=
    reports_readWithRegistry (R := Rights.transitions) (fun _ _ => trivial) (fun _ _ => trivial) hphase hread
  refine .before hreport.keeps hreport.steps ?_
  by_cases hhealth : view.health = .isProtected
  · rw [if_pos hhealth] at h
    have hphase' := hreport.steps.phase hphase
    have hshows := hreport.view view rfl hhealth
    refine after_bind h (fun e u hsync => ?_) fun out u hsync h => ?_
    · have hsynced := runs_syncTrustedCatalogManifest hphase' hshows hsync
      exact .of_error hsynced.steps hsynced.managed hsynced.records
    · exact registryRead_synced (runs_syncTrustedCatalogManifest hphase' hshows hsync) h
  · rw [if_neg hhealth] at h
    obtain ⟨hledger, hmanaged, hrecords, -, hok⟩ := runs_composeAndRecord (fun hsome => by cases hsome) h
    refine ⟨by rw [hledger], hmanaged, hrecords, fun hmanaged' v hv hprotected => ?_⟩
    obtain ⟨hcomposed, -⟩ := hok v hv
    rw [if_pos hmanaged'] at hcomposed
    exact absurd ((health_withManaged hcomposed).1.symm.trans hprotected) hhealth

/-- **The rule for reads for a registry.** -/
theorem registryRead (hphase : Phase k w.ledger)
    (h : Runs (readExtensionControlAuthorityForRegistry k registry managed stamp) w r w') :
    RegistryRead k registry managed w r w' := by
  obtain ⟨hread, -⟩ | ⟨e, t, -, hread, hpure⟩ := Faulty.runs_rescue h
  · exact registryRead_body hphase hread
  · have hbody := registryRead_body hphase hread
    refine after_pure hpure ⟨hbody.steps, hbody.managedState, hbody.records, fun _ v hv hprotected => ?_⟩
    cases hv
    cases hprotected

end Read

end ControlAuthority
end Guard
