import HolGuard.Contracts.CommandControls
import HolGuard.Lib.Dependencies
/-!
# Compiled command controls

`CompiledNativeCommandControls::for_program`: the layers of an authenticated binding composed over an admitted program.
A target is disabled when one layer disables it, an extension or permission is blocked when it or something it depends
on is, and a permission is explicitly enabled when the authority is protected, some layer enables it and none disables
it.
-/
namespace Guard
namespace Controls

open Contracts (NativeExtensionControlV1 NativeExtensionControlLayerV1 NativeCommandControlBindingV1)
open Lib (dependsOnMarked)

/-! ## The program -/

structure ProgramPermission where
  permissionId : String
  configurable : Bool
  dependencies : List String
  impliedPermissions : List String
  deriving DecidableEq, Repr

structure ProgramMcpLaunch where
  kind : String
  package : Option String
  serverNames : List String
  deriving DecidableEq, Repr

structure ProgramMcpTool where
  name : String
  state : String
  deriving DecidableEq, Repr

structure ProgramMcp where
  mcpLaunch : ProgramMcpLaunch
  mcpTools : List ProgramMcpTool
  deriving DecidableEq, Repr

structure ProgramExtension where
  extensionId : String
  required : Bool
  dependencies : List String
  executables : List String
  trustClass : String
  delegatedProtection : Option String
  mcp : Option ProgramMcp
  permissions : List ProgramPermission
  deriving DecidableEq, Repr

structure ProgramRule where
  ruleId : String
  extensionIndex : Nat
  permissionId : String
  defaultMode : String
  severity : String
  matcher : Option Nat
  deriving DecidableEq, Repr

/-- An admitted program.  Admission refuses two extensions, permissions or rules of one id, and a rule whose permission
is not its extension's, so a lookup by id finds one entry. -/
structure NativeCommandProgram where
  programDigest : String
  catalogDigest : String
  trustDigest : String
  extensions : List ProgramExtension
  rules : List ProgramRule
  extensionsNodup : (extensions.map ProgramExtension.extensionId).Nodup
  permissionsNodup : ((extensions.flatMap ProgramExtension.permissions).map ProgramPermission.permissionId).Nodup
  rulesNodup : (rules.map ProgramRule.ruleId).Nodup
  rulesOwned : ∀ rule ∈ rules, ∃ extension ∈ extensions[rule.extensionIndex]?,
    rule.permissionId ∈ extension.permissions.map ProgramPermission.permissionId

namespace NativeCommandProgram

def extension? (program : NativeCommandProgram) (id : String) : Option ProgramExtension :=
  program.extensions.find? (fun extension => extension.extensionId = id)

def permissions (program : NativeCommandProgram) : List (String × ProgramPermission) :=
  program.extensions.flatMap
    (fun extension => extension.permissions.map (fun permission => (extension.extensionId, permission)))

def permission? (program : NativeCommandProgram) (id : String) : Option (String × ProgramPermission) :=
  program.permissions.find? (fun entry => entry.2.permissionId = id)

/-- `rule_indices` and the rule at the index. -/
def rule? (program : NativeCommandProgram) (id : String) : Option ProgramRule :=
  program.rules.find? (fun rule => rule.ruleId = id)

def ruleRequired (program : NativeCommandProgram) (rule : ProgramRule) : Bool :=
  (program.extensions[rule.extensionIndex]?).any ProgramExtension.required

end NativeCommandProgram

/-! ## Composing the layers -/

/-- What the loop over the layers has gathered. -/
structure Composition where
  composed : String × String → Option Bool
  locallyEnabled : Finset String
  globalBlock : Bool

section Compose

variable (program : NativeCommandProgram)

/-- Whether the program has the target of a control. -/
def knowsTarget (control : NativeExtensionControlV1) : Bool :=
  if control.targetKind = "extension" then (program.extension? control.targetId).isSome
  else (program.permission? control.targetId).isSome

def composeControl (layerKind : String) (acc : Composition) (control : NativeExtensionControlV1) : Composition :=
  let disabled := control.state == "disabled"
  let key := (control.targetKind, control.targetId)
  { acc with
    composed := Function.update acc.composed key (some ((acc.composed key).getD false || disabled))
    locallyEnabled :=
      if control.targetKind = "extension" ∧ layerKind = "local-admin" ∧ disabled = false then
        insert control.targetId acc.locallyEnabled
      else acc.locallyEnabled }

def composeControls (layerKind : String) : Composition → List NativeExtensionControlV1 → Except String Composition
  | acc, [] => .ok acc
  | acc, control :: controls =>
    if knowsTarget program control = false then .error "native_command_control_target_unknown"
    else composeControls layerKind (composeControl layerKind acc control) controls

def composeLayers : Composition → List NativeExtensionControlLayerV1 → Except String Composition
  | acc, [] => .ok acc
  | acc, layer :: layers =>
    match composeControls program layer.kind { acc with globalBlock := acc.globalBlock || layer.globalLockdown }
        layer.controls with
    | .error e => .error e
    | .ok acc => composeLayers acc layers

/-! ## Blocking -/

/-- The ids for which a loop over dependencies finds a mark. -/
def blockedAmong (error : String) (blocked : String → Option Bool) : List String → Except String (Finset String)
  | [] => .ok ∅
  | id :: ids =>
    match blocked id with
    | none => .error error
    | some found =>
      match blockedAmong error blocked ids with
      | .error e => .error e
      | .ok rest => .ok (if found then insert id rest else rest)

def blockedExtensionsOf (composed : String × String → Option Bool) : Except String (Finset String) :=
  blockedAmong "native_command_extension_dependency_unknown"
    (fun id => dependsOnMarked (program.extensions.map (fun e => (e.extensionId, e.dependencies)))
      (fun dependency => composed ("extension", dependency) == some true) [id] ∅ false)
    (program.extensions.map ProgramExtension.extensionId)

def blockedPermissionsOf (composed : String × String → Option Bool) (blockedExtensions : Finset String) :
    Except String (Finset String) :=
  blockedAmong "native_command_permission_dependency_unknown"
    (fun id => dependsOnMarked
      (program.permissions.map (fun p => (p.2.permissionId, p.2.dependencies ++ p.2.impliedPermissions)))
      (fun current => composed ("permission", current) == some true ||
        (program.permission? current).any (fun p => p.1 ∈ blockedExtensions)) [id] ∅ false)
    (program.permissions.map (fun p => p.2.permissionId))

/-- The extensions whose rules are evaluated: an external one only with the local administrator's consent. -/
def activeExtensionsOf (composition : Composition) : Finset String :=
  ((program.extensions.filter (fun e => e.required || e.trustClass != "external" ||
    (decide (e.extensionId ∈ composition.locallyEnabled) &&
      composition.composed ("extension", e.extensionId) != some true))).map ProgramExtension.extensionId).toFinset

def explicitlyEnabledOf (health : String) (composed : String × String → Option Bool) : Finset String :=
  ((program.permissions.filter (fun p => health == "protected" && p.2.configurable &&
    composed ("permission", p.2.permissionId) == some false)).map (fun p => p.2.permissionId)).toFinset

end Compose

/-! ## Compilation -/

structure CompiledNativeCommandControls where
  program : NativeCommandProgram
  binding : NativeCommandControlBindingV1
  activeExtensions : Finset String
  blockedExtensions : Finset String
  blockedPermissions : Finset String
  explicitlyEnabledPermissions : Finset String
  globalBlock : Bool

/-- The baseline of a device that was never enrolled. -/
def initialDefaults (binding : NativeCommandControlBindingV1) : Bool :=
  binding.health == "unenrolled" && binding.revision == 0 && binding.managedRevision == 0 && binding.layers.isEmpty &&
    binding.authority.any (fun authority => authority.epoch == 1 &&
      authority.authorityKeyId == String.ofList (List.replicate 64 '0') && authority.recovery.isNone)

def initialComposition (binding : NativeCommandControlBindingV1) : Composition where
  composed := fun _ => none
  locallyEnabled := ∅
  globalBlock := binding.health != "protected" && !initialDefaults binding

def forProgram (sha : Lib.Hash) (binding : NativeCommandControlBindingV1) (program : NativeCommandProgram) :
    Except String CompiledNativeCommandControls :=
  match binding.validate sha with
  | .error e => .error e
  | .ok () =>
    if binding.programDigest ≠ program.programDigest ∨ binding.catalogDigest ≠ program.catalogDigest ∨
        binding.trustDigest ≠ program.trustDigest then
      .error "native_command_program_binding_mismatch"
    else match composeLayers program (initialComposition binding) binding.layers with
      | .error e => .error e
      | .ok composition => match blockedExtensionsOf program composition.composed with
        | .error e => .error e
        | .ok blockedExtensions => match blockedPermissionsOf program composition.composed blockedExtensions with
          | .error e => .error e
          | .ok blockedPermissions => .ok {
              program, binding, blockedExtensions, blockedPermissions
              activeExtensions := activeExtensionsOf program composition
              explicitlyEnabledPermissions := explicitlyEnabledOf program binding.health composition.composed
              globalBlock := composition.globalBlock }

end Controls
end Guard
