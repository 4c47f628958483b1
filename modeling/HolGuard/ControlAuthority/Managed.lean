import HolGuard.ControlAuthority.Operations
/-!
# Managed controls

The part of `apply_policy_bundle_authority` and `clear_policy_bundle_authority` that is about managed controls,
`read_extension_control_authority_for_registry` with the manifests it records, and the in-memory snapshot of
`extension_control_runtime.py`.

Of a policy bundle there is what an activation binds and what its managed controls were parsed to.  The checks of an
activation that are about other things (the checkpoint, the continuity of custom extensions, the delivery) come with the
call as the reason they reject it for, if they do.
-/
namespace Guard
namespace ControlAuthority

open Lib (KeyMap Faulty Json)
open Lib.Faulty (refuse)

variable (k : Keys)

/-! ## Managed state -/

def managedControlsRevisionFromState (state : Sealed Nat) : Except String Nat :=
  if state.record < 1 then .error "invalid managed controls revision state" else k.managedRevision.verify state

def managedControlsLayersFromActivationState (active : Sealed ActivationRecord) (catalogDigest : String) :
    Except String (List ExtensionControlLayer × Nat) := do
  if active.record.catalogDigest ≠ catalogDigest then .error "incomplete managed controls activation state"
  else
    let activation ← k.activation.verify active
    if activation.extensionAuthorityRevision < 1 then .error "invalid managed controls activation revision"
    else if activation.signedCloudLayers.length > 1 ∨
        activation.signedCloudLayers.any (fun layer => layer.kind ≠ .signedCloud) then
      .error "invalid managed signed Cloud layer"
    else .ok (activation.signedCloudLayers, activation.extensionAuthorityRevision)

def localLayers (layers : List ExtensionControlLayer) : List ExtensionControlLayer :=
  layers.filter fun layer => layer.kind = .localAdmin

/-! ## Activating and clearing -/

structure ManagedBundle where
  bundleHash : String
  bundleVersion : Int
  workspaceId : String
deriving DecidableEq, Repr

structure ParsedManagedControlsPolicy where
  signedCloudLayer : Option ExtensionControlLayer
deriving DecidableEq, Repr

/-- A call of `apply_policy_bundle_authority`: `rejection` is what its other checks say. -/
structure ApplyCall where
  bundle : ManagedBundle
  policy : Option ParsedManagedControlsPolicy
  builtInCatalogDigest : String
  rejection : Option String

def previousManaged (managed : ManagedState) (catalogDigest : String) : Except String (Nat × Option String) := do
  let previous ← match managed.revision with
    | none => .ok 0
    | some state => managedControlsRevisionFromState k state
  match managed.active with
  | none => .ok (previous, none)
  | some active =>
    let (_, activeRevision) ← managedControlsLayersFromActivationState k active catalogDigest
    if managed.revision.isSome ∧ activeRevision ≠ previous then .error "managed_controls_revision_state_mismatch"
    else .ok (activeRevision, some active.record.bundleHash)

def buildManagedControlsActivationState (bundle : ManagedBundle) (parsed : ParsedManagedControlsPolicy)
    (base : ExtensionControlAuthorityView) (managedRevision : Nat) (baseSnapshotDigest : String) :
    Except String (Sealed ActivationRecord) :=
  if bundle.bundleHash = "" then .error "managed bundle hash is required"
  else if bundle.workspaceId = "" then .error "managed workspace binding is required"
  else
    .ok (k.activation.authenticate
      { bundleHash := bundle.bundleHash
        bundleVersion := bundle.bundleVersion
        workspaceId := bundle.workspaceId
        catalogDigest := base.catalogDigest
        baseAuthorityRevision := base.revision
        baseAuthoritySnapshotDigest := baseSnapshotDigest
        extensionAuthorityRevision := managedRevision
        signedCloudLayers := parsed.signedCloudLayer.toList })

/-- The revision that an activation gets: an activation of the same bundle keeps its number. -/
def nextManagedRevision (previous : Nat) (previousHash : Option String) (bundle : ManagedBundle) : Nat :=
  if previousHash = some bundle.bundleHash ∧ 0 < previous then previous else previous + 1

/-- The managed state that a call of `apply_policy_bundle_authority` stores. -/
def planActivation (db : Database) (base : ExtensionControlAuthorityView) (call : ApplyCall) :
    Except String ManagedState :=
  match call.rejection with
  | some reason => .error reason
  | none => do
    let (previous, previousHash) ← previousManaged k db.managed base.catalogDigest
    match call.policy with
    | some parsed =>
      if base.health ≠ .isProtected then .error "managed_controls_authority_unprotected"
      else
        match db.snapshot with
        | none => .error "managed_controls_authority_snapshot_missing"
        | some snapshot =>
          let managedRevision := nextManagedRevision previous previousHash call.bundle
          let active ← buildManagedControlsActivationState k call.bundle parsed base managedRevision
            snapshot.snapshot.digest
          .ok ⟨some active, some (k.managedRevision.authenticate managedRevision)⟩
    | none =>
      let managedRevision := if db.managed.active.isSome then previous + 1 else previous
      .ok ⟨none, if 0 < managedRevision then some (k.managedRevision.authenticate managedRevision)
        else db.managed.revision⟩

def Database.setManaged (managed : ManagedState) (db : Database) : Database := { db with managed := managed }

/-- `apply_policy_bundle_authority`: whether the bundle was activated. -/
def applyPolicyBundleAuthority (call : ApplyCall) : Op Bool := do
  invalidateNativeExtensionControlPolicy
  let base ← readExtensionControlAuthority k call.builtInCatalogDigest
  let w ← Faulty.get
  match planActivation k w.db base call with
  | .error _ => pure false
  | .ok managed => do
    transact (Database.setManaged managed)
    pure true

/-- The managed state that `clear_policy_bundle_authority` stores. -/
def planClear (managed : ManagedState) : Except String ManagedState := do
  let previous ← match managed.revision with
    | none => .ok 0
    | some state => managedControlsRevisionFromState k state
  match managed.active with
  | none => .ok ⟨none, if 0 < previous then some (k.managedRevision.authenticate previous) else managed.revision⟩
  | some active =>
    let (_, activeRevision) ← managedControlsLayersFromActivationState k active active.record.catalogDigest
    if managed.revision.isSome ∧ activeRevision ≠ previous then .error "managed controls revision mismatch"
    else .ok ⟨none, some (k.managedRevision.authenticate (activeRevision + 1))⟩

def clearPolicyBundleAuthority : Op Unit := do
  invalidateNativeExtensionControlPolicy
  let w ← Faulty.get
  let managed ← Faulty.lift (planClear k w.db.managed)
  transact (Database.setManaged managed)

/-! ## Reading for a registry -/

def Database.recordManifest (registry : Registry) (stamp : String) (db : Database) : Database :=
  { db with
    manifests := db.manifests.insert registry.catalogDigest
      ⟨registry.manifest, k.manifest.authenticate ⟨registry.catalogDigest, registry.manifest.pairs, stamp⟩, stamp⟩ }

def writeCatalogManifest (registry : Registry) (stamp : String) : Op Unit := do
  invalidateNativeExtensionControlPolicy
  transact (Database.recordManifest k registry stamp)

/-- `_sync_trusted_catalog_manifest` for a recorded manifest that is not the registry's. -/
def rebindDrifted (view : ExtensionControlAuthorityView) (registry : Registry) (persisted : Manifest) (stamp : String) :
    Op ExtensionControlAuthorityView :=
  if rebindLayers view.layers view.catalogDigest persisted registry.manifest ≠ view.layers then
    migrateExtensionControlCatalog k view registry stamp
  else pure view

/-- `_sync_trusted_catalog_manifest`: the view, and the recorded manifest if it is stale. -/
def syncTrustedCatalogManifest (view : ExtensionControlAuthorityView) (registry : Registry) (stamp : String) :
    Op (ExtensionControlAuthorityView × Option Manifest) := do
  let w ← Faulty.get
  match w.db.manifests.get? registry.catalogDigest with
  | none => do
    writeCatalogManifest k registry stamp
    pure (view, none)
  | some _ => do
    match ← Faulty.lift (loadCatalogManifest k w.db registry.catalogDigest) with
    | none => Faulty.fail "extension control catalog manifest conflict"
    | some persisted =>
      if persisted = registry.manifest then pure (view, none)
      else do
        let rebound ← rebindDrifted k view registry persisted stamp
        pure (rebound, some persisted)

def restate (prior current : Manifest) (control : ExtensionControl) : ExtensionControl :=
  if preserveManagedExtensionControl control prior current then control else { control with state := .disabled }

def restateLayers (layers : List ExtensionControlLayer) (catalogDigest : String) (prior current : Manifest) :
    List ExtensionControlLayer :=
  layers.map fun layer =>
    { layer with catalogDigest := catalogDigest, controls := layer.controls.map (restate prior current) }

/-- The layers of the active bundle under the registry of a read. -/
def presentManaged (db : Database) (activeCatalogDigest : String) (layers : List ExtensionControlLayer)
    (catalogDigest : String) (current : Manifest) (stale : Option Manifest) :
    Except String (List ExtensionControlLayer) :=
  if activeCatalogDigest ≠ catalogDigest then
    if layers.any fun layer => layer.catalogDigest ≠ activeCatalogDigest then
      .error "managed controls activation layer catalog mismatch"
    else do
      let prior ← loadCatalogManifest k db activeCatalogDigest
      .ok (restateLayers layers catalogDigest (prior.getD Lib.SortedMap.empty) current)
  else
    match stale with
    | none => .ok layers
    | some prior =>
      if prior = current then .ok layers
      else if layers.any fun layer => layer.catalogDigest ≠ activeCatalogDigest then
        .error "managed controls activation layer catalog mismatch"
      else .ok (restateLayers layers catalogDigest prior current)

def withManagedControlsActivation (db : Database) (view : ExtensionControlAuthorityView) (current : Manifest)
    (stale : Option Manifest) : Except String ExtensionControlAuthorityView :=
  match db.managed.active, db.managed.revision with
  | none, none => .ok view
  | none, some state => do
    let managedRevision ← managedControlsRevisionFromState k state
    .ok { view with layers := localLayers view.layers, managedRevision := managedRevision }
  | some _, none => .error "managed controls revision state is missing"
  | some active, some state =>
    if view.health ≠ .isProtected then .error "managed controls require protected local authority"
    else if active.record.catalogDigest = "" then .error "invalid managed controls activation catalog"
    else do
      let (layers, managedRevision) ← managedControlsLayersFromActivationState k active active.record.catalogDigest
      let presented ← presentManaged k db active.record.catalogDigest layers view.catalogDigest current stale
      let durable ← managedControlsRevisionFromState k state
      if managedRevision ≠ durable then .error "managed controls activation revision mismatch"
      else
        .ok ⟨view.health, view.revision, view.catalogDigest, localLayers view.layers ++ presented, managedRevision⟩

/-- The managed controls are composed with the view, and a stale manifest is replaced. -/
def composeAndRecord (registry : Registry) (includeManagedControls : Bool) (stamp : String)
    (view : ExtensionControlAuthorityView) (stale : Option Manifest) : Op ExtensionControlAuthorityView := do
  let w ← Faulty.get
  let composed ← Faulty.lift
    (if includeManagedControls then withManagedControlsActivation k w.db view registry.manifest stale else .ok view)
  match stale with
  | none => pure composed
  | some _ => do
    writeCatalogManifest k registry stamp
    pure composed

/-- The body of `read_extension_control_authority_for_registry`. -/
def readAndCompose (registry : Registry) (includeManagedControls : Bool) (stamp : String) :
    Op ExtensionControlAuthorityView := do
  let view ← readWithRegistry k registry.catalogDigest (some registry) stamp
  if view.health = .isProtected then do
    let synced ← syncTrustedCatalogManifest k view registry stamp
    composeAndRecord k registry includeManagedControls stamp synced.1 synced.2
  else composeAndRecord k registry includeManagedControls stamp view none

def readExtensionControlAuthorityForRegistry (registry : Registry) (includeManagedControls : Bool) (stamp : String) :
    Op ExtensionControlAuthorityView :=
  Faulty.rescue [interrupted, constraintFailed] (readAndCompose k registry includeManagedControls stamp) fun _ =>
    pure (tamperedView registry.catalogDigest)

/-! ## The runtime snapshot -/

def AuthorityHealth.value : AuthorityHealth → String
  | .unenrolled => "unenrolled"
  | .isProtected => "protected"
  | .tampered => "tampered"
  | .recoveryRequired => "recovery-required"

def layerPayload (layer : ExtensionControlLayer) : Json :=
  layerToValue { layer with controls := layer.controls.mergeSort fun a b => targetLe a.target b.target }

def kindLe (a b : ExtensionControlLayer) : Bool := decide (a.kind.value ≤ b.kind.value)

def runtimeSnapshotSchema : String := "guard.extension-control-runtime-snapshot.v1"

def runtimePayload (view : ExtensionControlAuthorityView) : Json :=
  .obj [("catalog_digest", .str view.catalogDigest),
    ("health", .str view.health.value),
    ("layers", .arr ((view.layers.mergeSort kindLe).map layerPayload)),
    ("managed_revision", .num view.managedRevision),
    ("revision", .num view.revision),
    ("schema_version", .str runtimeSnapshotSchema)]

/-- The text whose SHA-256 is the effective digest of a view. -/
def effectiveText (view : ExtensionControlAuthorityView) : String :=
  runtimeSnapshotSchema ++ "\x00" ++ toString (runtimePayload view).write.length ++ "\x00" ++ (runtimePayload view).text

/-- `ExtensionControlRuntime`, with `digest` for the SHA-256: what it compares a new view with. -/
structure ExtensionControlRuntime where
  snapshot : ExtensionControlAuthorityView
  highestProtectedRevision : Nat × Nat
  highestProtectedDigest : Option String
deriving DecidableEq

namespace ExtensionControlRuntime

variable (digest : String → String)

def start (initial : ExtensionControlAuthorityView) : ExtensionControlRuntime where
  snapshot := initial
  highestProtectedRevision :=
    if initial.health = .isProtected then (initial.revision, initial.managedRevision) else (0, 0)
  highestProtectedDigest := if initial.health = .isProtected then some (digest (effectiveText initial)) else none

/-- `_validate_candidate_locked` -/
def validateCandidate (runtime : ExtensionControlRuntime) (candidate : ExtensionControlAuthorityView) :
    Except String Unit :=
  if candidate.health ≠ .isProtected then .ok ()
  else if candidate.revision < runtime.highestProtectedRevision.1 ∨
      candidate.managedRevision < runtime.highestProtectedRevision.2 then
    .error "extension control runtime revision cannot move backwards"
  else if (candidate.revision, candidate.managedRevision) = runtime.highestProtectedRevision ∧
      ∃ d, runtime.highestProtectedDigest = some d ∧ digest (effectiveText candidate) ≠ d then
    .error "extension control runtime revision cannot be replaced"
  else .ok ()

def refresh (runtime : ExtensionControlRuntime) (view : ExtensionControlAuthorityView) :
    Except String ExtensionControlRuntime := do
  runtime.validateCandidate digest view
  if view.health = .isProtected then
    .ok ⟨view, (view.revision, view.managedRevision), some (digest (effectiveText view))⟩
  else .ok { runtime with snapshot := view }

end ExtensionControlRuntime

end ControlAuthority
end Guard
