import HolGuard.Controls.Compiled
import HolGuard.Lib.AsciiText
/-!
# Observations of a command and delegated surfaces

The batch of observations a command yields, and `delegated_observations`: the permissions of package firewalls and MCP
extensions are observed for the commands and tools they own, and a tool a server lists as blocked or to be reviewed
raises the floor.  Only active extensions take part.
-/
namespace Guard
namespace Controls

open Lib (asciiLower eqIgnoreAsciiCase lastPiece)

structure CommandSegmentV1 where
  executable : Option String
  arguments : List String
  deriving DecidableEq, Repr

structure CanonicalCommandV1 where
  wrapperChain : List String
  segments : List CommandSegmentV1
  confidence : String
  pathOverridden : Bool
  deriving DecidableEq, Repr

structure NativeMatcherEvidenceV1 where
  segmentIndex : Nat
  executable : Option String
  detail : String
  deriving DecidableEq, Repr

structure NativeSafeVariantObservationV1 where
  variantId : String
  matcherEvidence : List NativeMatcherEvidenceV1
  deriving DecidableEq, Repr

structure NativeCommandObservationV1 where
  extensionId : String
  ruleId : String
  matcherEvidence : List NativeMatcherEvidenceV1
  safeVariants : List NativeSafeVariantObservationV1
  uncertaintyReasons : List String
  effectiveSegmentIndexes : List Nat
  deriving DecidableEq, Repr

structure NativeCommandPermissionObservationV1 where
  mcpTool : Option String
  extensionId : String
  permissionId : String
  matcherEvidence : List NativeMatcherEvidenceV1
  uncertaintyReasons : List String
  deriving DecidableEq, Repr

structure NativeCommandObservationBatchV1 where
  observations : List NativeCommandObservationV1
  permissionObservations : List NativeCommandPermissionObservationV1
  evaluationError : Option String
  deriving DecidableEq, Repr

def maxNativeCommandObservations : Nat := 2048

def maxNativeCommandEvidenceItems : Nat := 8192

namespace NativeCommandObservationBatchV1

def empty : NativeCommandObservationBatchV1 := ⟨[], [], none⟩

def failed : NativeCommandObservationBatchV1 := ⟨[], [], some "native_command_evaluation_failed"⟩

def count (batch : NativeCommandObservationBatchV1) : Nat :=
  batch.observations.length + batch.permissionObservations.length

def evidenceCount (batch : NativeCommandObservationBatchV1) : Nat :=
  (batch.permissionObservations.map (fun item => item.matcherEvidence.length)).sum +
    (batch.observations.map (fun item => item.matcherEvidence.length +
      (item.safeVariants.map (fun safe => safe.matcherEvidence.length)).sum)).sum

end NativeCommandObservationBatchV1

/-! ## Texts -/

def basename (value : String) : List Char :=
  (value.toList.reverse.takeWhile (fun c => c != '/' && c != '\\')).reverse

def inspectionOnly (arguments : List String) : Bool :=
  match arguments with
  | [only] => only == "--version" || only == "--help" || only == "-h"
  | _ => false

def normalizedTool (value : List Char) : List Char :=
  value.map (fun c => if asciiLower c = '_' then '-' else asciiLower c)

/-- The text after a given start, if it has it. -/
def afterStart (start text : List Char) : Option (List Char) :=
  if start.isPrefixOf text then some (text.drop start.length) else none

/-! ## Delegated surfaces -/

section Delegated

variable (controls : CompiledNativeCommandControls)

/-- The segments a package manager owns. -/
def packageEvidence (extension : ProgramExtension) (command : CanonicalCommandV1) : List NativeMatcherEvidenceV1 :=
  command.segments.zipIdx.filterMap (fun (segment, index) =>
    segment.executable.bind (fun path =>
      let owner := extension.executables.find? (fun value => eqIgnoreAsciiCase value.toList (basename path))
      if owner.isNone || inspectionOnly segment.arguments then none
      else some ⟨index, owner, "Matched bounded structured command constraints."⟩))

/-- Observe every permission of an extension, within the limit. -/
def observePermissions (make : String → NativeCommandPermissionObservationV1) :
    List ProgramPermission → NativeCommandObservationBatchV1 → Except String NativeCommandObservationBatchV1
  | [], batch => .ok batch
  | permission :: permissions, batch =>
    if maxNativeCommandObservations ≤ batch.count then .error "native_command_evidence_limit_exceeded"
    else observePermissions make permissions
      { batch with permissionObservations := batch.permissionObservations ++ [make permission.permissionId] }

/-- The entry for a tool that a package or a server namespace selects. -/
def selectedTool (extension : ProgramExtension) (mcp : ProgramMcp) (tool : String) (packages : List String) :
    Option ProgramMcpTool :=
  let lower := tool.toList.map asciiLower
  let serverAlias := (afterStart "command.mcp-".toList extension.extensionId.toList).getD []
  let named := afterStart ("mcp__".toList ++ serverAlias ++ "__".toList) lower
  let packageMatch := mcp.mcpLaunch.package.any (fun expected =>
    packages.any (fun package => eqIgnoreAsciiCase package.toList expected.toList))
  let remoteNamed := mcp.mcpLaunch.kind == "remote-http" && mcp.mcpLaunch.serverNames.any (fun server =>
    ("mcp__".toList ++ server.toList.map asciiLower ++ "__".toList).isPrefixOf lower)
  if named.isNone && !packageMatch && !remoteNamed then none
  else
    let wanted := normalizedTool (named.getD (lastPiece lower))
    (mcp.mcpTools.find? (fun entry => normalizedTool entry.name.toList == wanted)).or
      (mcp.mcpTools.find? (fun entry => entry.name == "other"))

/-- The floor a listed tool asks for, on top of the one so far. -/
def toolFloor (state floor : String) : String :=
  if state = "block" then "block" else if state = "review" ∧ floor ≠ "block" then "review" else floor

/-- The package part of one extension; nothing when the loop goes on with the next. -/
def observePackages (command : Option CanonicalCommandV1) (extension : ProgramExtension)
    (batch : NativeCommandObservationBatchV1) : Except String (Option NativeCommandObservationBatchV1) :=
  if extension.delegatedProtection = some "package-firewall" then
    match command with
    | none => .ok none
    | some command =>
      let evidence := packageEvidence extension command
      if evidence.isEmpty then .ok none
      else (observePermissions (fun id => ⟨none, extension.extensionId, id, evidence, []⟩)
        extension.permissions batch).map some
  else .ok (some batch)

/-- The MCP part of one extension. -/
def observeTool (tool : Option String) (packages : List String) (extension : ProgramExtension) (floor : String)
    (batch : NativeCommandObservationBatchV1) : Except String (String × NativeCommandObservationBatchV1) :=
  match extension.mcp, tool with
  | some mcp, some tool =>
    match selectedTool extension mcp tool packages with
    | none => .ok (floor, batch)
    | some selected =>
      (observePermissions (fun id => ⟨some selected.name, extension.extensionId, id, [], []⟩) extension.permissions
        batch).map (fun batch => (toolFloor selected.state floor, batch))
  | _, _ => .ok (floor, batch)

/-- The loop over the extensions; `expired` says at which the deadline is found to have passed. -/
def delegatedLoop (active : Finset String) (expired : String → Bool) (command : Option CanonicalCommandV1)
    (tool : Option String) (packages : List String) :
    List ProgramExtension → String → NativeCommandObservationBatchV1 →
      Except String (String × NativeCommandObservationBatchV1)
  | [], floor, batch => .ok (floor, batch)
  | extension :: extensions, floor, batch =>
    if expired extension.extensionId then .error "native_command_deadline_exceeded"
    else if extension.extensionId ∉ active then
      delegatedLoop active expired command tool packages extensions floor batch
    else match observePackages command extension batch with
      | .error e => .error e
      | .ok none => delegatedLoop active expired command tool packages extensions floor batch
      | .ok (some batch) => match observeTool tool packages extension floor batch with
        | .error e => .error e
        | .ok (floor, batch) => delegatedLoop active expired command tool packages extensions floor batch

/-- `delegated_observations`: the floor and the batch with what was observed. -/
def delegatedObservations (expired : String → Bool) (command : Option CanonicalCommandV1) (tool : Option String)
    (packages : List String) (batch : NativeCommandObservationBatchV1) :
    Except String (String × NativeCommandObservationBatchV1) :=
  match delegatedLoop controls.activeExtensions expired command tool packages controls.program.extensions "allow"
    batch with
  | .error e => .error e
  | .ok (floor, batch) =>
    if maxNativeCommandObservations < batch.count ∨ maxNativeCommandEvidenceItems < batch.evidenceCount then
      .error "native_command_evidence_limit_exceeded"
    else .ok (floor, batch)

end Delegated

end Controls
end Guard
