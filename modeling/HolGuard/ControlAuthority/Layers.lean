import HolGuard.Lib.Checks
import HolGuard.Lib.Codec
import HolGuard.Lib.KeyMap
/-!
# Control layers

`extension_control_contract.py`, `compose_control_layers` of `extension_control_resolver.py`, the layer checks of
`store_extension_control_authority_support.py` and the DNS rewriting of `command_dns_control_migration.py`.

A layers column holds the layers its canonical text decodes to; the size limit is on that text.  A registry is its
catalog digest and its manifest, the fingerprint of every target it knows.
-/
namespace Guard
namespace ControlAuthority

open Lib (Json KeyMap SortedMap)

inductive ControlLayerKind where
  | localAdmin
  | signedCloud
deriving DecidableEq, Repr

def ControlLayerKind.value : ControlLayerKind → String
  | .localAdmin => "local-admin"
  | .signedCloud => "signed-cloud"

inductive ControlTargetKind where
  | extension
  | permission
deriving DecidableEq, Repr

def ControlTargetKind.value : ControlTargetKind → String
  | .extension => "extension"
  | .permission => "permission"

inductive ControlState where
  | enabled
  | disabled
deriving DecidableEq, Repr

def ControlState.value : ControlState → String
  | .enabled => "enabled"
  | .disabled => "disabled"

structure ControlTarget where
  kind : ControlTargetKind
  targetId : String
deriving DecidableEq, Repr

structure ExtensionControl where
  target : ControlTarget
  state : ControlState
deriving DecidableEq, Repr

structure ExtensionControlLayer where
  schemaVersion : String
  kind : ControlLayerKind
  catalogDigest : String
  globalLockdown : Bool
  controls : List ExtensionControl
deriving DecidableEq, Repr

/-! ## Composition -/

inductive ResolverFailureCode where
  | duplicateLayerKind
  | duplicateTargetInLayer
deriving DecidableEq, Repr

def ResolverFailureCode.value : ResolverFailureCode → String
  | .duplicateLayerKind => "duplicate-layer-kind"
  | .duplicateTargetInLayer => "duplicate-target-in-layer"

structure ControlResolverFailure where
  code : ResolverFailureCode
  layerKind : ControlLayerKind
deriving DecidableEq, Repr

structure ComposedExtensionControls where
  globalLockdown : Bool
  controls : List ExtensionControl
  failures : List ControlResolverFailure

/-- What the loops of `compose_control_layers` carry. -/
structure Composing where
  states : KeyMap ControlTarget ControlState
  seenLayerKinds : List ControlLayerKind
  seenTargets : List ControlTarget
  failures : List ControlResolverFailure
  lockdown : Bool

def composeControl (kind : ControlLayerKind) (c : Composing) (control : ExtensionControl) : Composing :=
  if control.target ∈ c.seenTargets then { c with failures := c.failures.insert ⟨.duplicateTargetInLayer, kind⟩ }
  else
    { c with
      seenTargets := control.target :: c.seenTargets
      states := c.states.insert control.target
        (if c.states.get? control.target = some .disabled ∨ control.state = .disabled then .disabled else .enabled) }

def composeLayer (c : Composing) (layer : ExtensionControlLayer) : Composing :=
  layer.controls.foldl (composeControl layer.kind)
    { c with
      failures :=
        if layer.kind ∈ c.seenLayerKinds then c.failures.insert ⟨.duplicateLayerKind, layer.kind⟩ else c.failures
      seenLayerKinds := layer.kind :: c.seenLayerKinds
      seenTargets := []
      lockdown := c.lockdown || layer.globalLockdown }

def targetLe (a b : ControlTarget) : Bool :=
  if a.kind = b.kind then decide (a.targetId ≤ b.targetId) else decide (a.kind.value ≤ b.kind.value)

def failureLe (a b : ControlResolverFailure) : Bool :=
  if a.code = b.code then decide (a.layerKind.value ≤ b.layerKind.value) else decide (a.code.value ≤ b.code.value)

def composeControlLayers (layers : List ExtensionControlLayer) : ComposedExtensionControls :=
  let c := layers.foldl composeLayer ⟨KeyMap.empty, [], [], [], false⟩
  { globalLockdown := c.lockdown
    controls := (c.states.pairs.map fun p => ⟨p.1, p.2⟩).mergeSort fun a b => targetLe a.target b.target
    failures := c.failures.mergeSort failureLe }

/-! ## The checks on layers -/

def maxControlsPerLayer : Nat := 512

def maxSerializedLayersBytes : Nat := 256 * 1024

def layerToValue (layer : ExtensionControlLayer) : Json :=
  .obj [("catalog_digest", .str layer.catalogDigest),
    ("controls", .arr (layer.controls.map fun control =>
      .obj [("state", .str control.state.value), ("target_id", .str control.target.targetId),
        ("target_kind", .str control.target.kind.value)])),
    ("global_lockdown", .bool layer.globalLockdown),
    ("kind", .str layer.kind.value),
    ("schema_version", .str layer.schemaVersion)]

/-- The length in bytes of `layers_to_json(layers)`, a text of ASCII characters. -/
def serializedBytes (layers : List ExtensionControlLayer) : Nat := (Json.write (.arr (layers.map layerToValue))).length

def validateSerializedLayers (layers : List ExtensionControlLayer) : Except String Unit :=
  if serializedBytes layers > maxSerializedLayersBytes then .error "extension control layers exceed storage limit"
  else .ok ()

def validateLayers (layers : List ExtensionControlLayer) (catalogDigest : String) : Except String Unit :=
  if layers.length > 2 then .error "too many extension control layers"
  else if layers.any fun layer => layer.controls.length > maxControlsPerLayer then
    .error "too many extension controls in layer"
  else if layers.any fun layer => layer.catalogDigest ≠ catalogDigest then
    .error "extension control catalog digest mismatch"
  else if (composeControlLayers layers).failures ≠ [] then .error "invalid extension control layers"
  else if ¬ (layers.map (·.kind)).Nodup then .error "duplicate extension control layer"
  else .ok ()

/-! ## Manifests -/

abbrev Manifest := SortedMap String

def Manifest.get (m : Manifest) (key : String) : Option String := m.pairs.lookup key

structure Registry where
  catalogDigest : String
  manifest : Manifest

def keyName (control : ExtensionControl) : String := control.target.kind.value ++ ":" ++ control.target.targetId

/-- Disabled controls stay, and enabled ones whose target is unchanged or was unknown. -/
def preserveMigratedExtensionControl (control : ExtensionControl) (previous current : Manifest) : Bool :=
  match current.get (keyName control) with
  | none => false
  | some fingerprint =>
    control.state = .disabled || previous.get (keyName control) = none ||
      previous.get (keyName control) = some fingerprint

/-- An enabled control stays only with a prior fingerprint that matches; a target the registry does not know is kept,
so that the resolver reports it. -/
def preserveManagedExtensionControl (control : ExtensionControl) (previous current : Manifest) : Bool :=
  match current.get (keyName control) with
  | none => true
  | some fingerprint => control.state = .disabled || previous.get (keyName control) = some fingerprint

/-! ## The retired DNS controls -/

def dnsProviderExtensionIds : List String := ["command.dns.aws", "command.dns.gcp", "command.dns.azure"]

def dnsZonePermissionIds : List String :=
  ["command.dns.aws.permission.zone-deletion", "command.dns.gcp.permission.zone-deletion",
    "command.dns.azure.permission.public-zone-deletion"]

def expandLegacyDnsTarget (target : ControlTarget) : List ControlTarget :=
  match target.kind with
  | .extension =>
    if target.targetId = "command.dns" then dnsProviderExtensionIds.map fun id => ⟨.extension, id⟩ else [target]
  | .permission =>
    if target.targetId = "command.dns.permission.delete" then dnsZonePermissionIds.map fun id => ⟨.permission, id⟩
    else [target]

structure Expanding where
  merged : KeyMap ControlTarget ControlState
  extras : List ExtensionControl
  seenOriginals : List ControlTarget

def mergeTarget (state : ControlState) (merged : KeyMap ControlTarget ControlState) (target : ControlTarget) :
    KeyMap ControlTarget ControlState :=
  match merged.get? target with
  | none => merged.insert target state
  | some previous => if previous = .disabled ∨ state = .disabled then merged.insert target .disabled else merged

def expandControl (e : Expanding) (control : ExtensionControl) : Expanding :=
  if control.target ∈ e.seenOriginals then
    { e with extras := e.extras ++ (expandLegacyDnsTarget control.target).map fun target => ⟨target, control.state⟩ }
  else
    { e with
      seenOriginals := control.target :: e.seenOriginals
      merged := (expandLegacyDnsTarget control.target).foldl (mergeTarget control.state) e.merged }

def expandLegacyDnsLayers (layers : List ExtensionControlLayer) : List ExtensionControlLayer :=
  layers.map fun layer =>
    let e := layer.controls.foldl expandControl ⟨KeyMap.empty, [], []⟩
    { layer with controls := (e.merged.pairs.map fun p => ⟨p.1, p.2⟩) ++ e.extras }

end ControlAuthority
end Guard
