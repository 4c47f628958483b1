import HolGuard.Controls.Delegated
/-!
# Applying compiled controls to a decision

`apply_with_tool_and_context`: the observations of a command set a floor, the incoming decision is raised to it, and the
generic review of an unknown command is settled when explicit permissions cover every segment.  Matching rules against a
command, the native proof that a segment is benign and the digest of a batch come with an `Evaluator`.
-/
namespace Guard
namespace Controls

structure PreToolActionV1 where
  bounded : Bool
  sensitiveTarget : Bool
  deriving DecidableEq, Repr

structure NativeCommandReceiptBindingV1 where
  schema : String
  programDigest : String
  catalogDigest : String
  trustDigest : String
  controlRevision : Nat
  managedControlRevision : Nat
  controlEffectiveDigest : String
  observationsDigest : String
  observationCount : Nat
  uncertaintyCount : Nat
  deriving DecidableEq, Repr

structure NativeCommandObservationsV1 where
  schema : String
  binding : NativeCommandReceiptBindingV1
  observations : List NativeCommandObservationV1
  permissionObservations : List NativeCommandPermissionObservationV1
  evaluationError : Option String
  deriving DecidableEq, Repr

structure PreToolResultV1 where
  action : PreToolActionV1
  decision : String
  policyAction : String
  minimumAction : String
  reasonCode : String
  reason : String
  explicitlyBenign : Bool
  commandExtensions : Option NativeCommandObservationsV1
  deriving DecidableEq, Repr

/-- What evaluation takes from the matchers, for one context of paths and one deadline. -/
structure Evaluator where
  observe : CanonicalCommandV1 → Finset String → Except String NativeCommandObservationBatchV1
  benignCommandSegments : CanonicalCommandV1 → List Nat
  digestValue : NativeCommandObservationBatchV1 → Option String
  expired : String → Bool

/-! ## Actions -/

def rank (action : String) : Nat :=
  if action = "allow" then 0
  else if action = "warn" then 1
  else if action = "review" then 2
  else if action = "require-reapproval" then 3
  else if action = "sandbox-required" then 4
  else 5

def ProgramRule.isCompatibilityAttributionOnly (rule : ProgramRule) : Bool :=
  rule.matcher.isNone && rule.defaultMode == "disabled"

def ruleFloor (rule : ProgramRule) (required : Bool) : String :=
  if rule.isCompatibilityAttributionOnly then "allow"
  else if required then if rule.severity = "critical" then "block" else "review"
  else if rule.defaultMode = "disabled" then "allow"
  else if rule.defaultMode = "monitor" then "warn"
  else if rule.defaultMode = "review" ∨ rule.defaultMode = "required" then "review"
  else "block"

def strengthen (result : PreToolResultV1) (action reason : String) : PreToolResultV1 :=
  if rank result.minimumAction < rank action then
    { result with
      minimumAction := action
      policyAction := action
      decision := if action = "allow" ∨ action = "warn" then "allow" else "deny"
      explicitlyBenign := action == "allow"
      reasonCode := reason
      reason := if reason = "native_command_extension_evaluation_failed" then
        "HOL Guard could not evaluate the extension controls for this command. Check Guard diagnostics before retrying."
        else "HOL Guard requires the native command extension policy before this action can execute." }
  else result

section Apply

variable (controls : CompiledNativeCommandControls)

/-! ## Coverage -/

/-- The loop of `explicit_permissions_cover_command` over the observations: the segments covered at its end, or none
when an observation ends it. -/
def coverLoop : List NativeCommandObservationV1 → Finset Nat → Option (Finset Nat)
  | [], covered => some covered
  | observation :: observations, covered =>
    if observation.effectiveSegmentIndexes.isEmpty then coverLoop observations covered
    else match controls.program.rule? observation.ruleId with
      | none => none
      | some rule =>
        if rule.permissionId ∉ controls.explicitlyEnabledPermissions then
          if observation.effectiveSegmentIndexes.all (fun index => decide (index ∈ covered)) then
            coverLoop observations covered
          else none
        else coverLoop observations (covered ∪ observation.effectiveSegmentIndexes.toFinset)

def explicitPermissionsCoverCommand (benign : List Nat) (command : CanonicalCommandV1)
    (observations : List NativeCommandObservationV1) : Bool :=
  if command.confidence ≠ "exact" ∨ command.pathOverridden = true ∨ command.wrapperChain ≠ [] ∨
    command.segments = [] then
    false
  else match coverLoop controls observations benign.toFinset with
    | none => false
    | some covered => (List.range command.segments.length).all (fun index => decide (index ∈ covered))

/-! ## The floor -/

/-- One observation raises the floor and may name the reason. -/
def observationFloor (acc : String × String) (observation : NativeCommandObservationV1) : String × String :=
  let acc := if observation.uncertaintyReasons.isEmpty then acc else ("block", "native_command_extension_uncertain")
  let acc := if observation.extensionId ∈ controls.blockedExtensions then
    ("block", "native_command_extension_disabled") else acc
  if observation.effectiveSegmentIndexes.isEmpty then acc
  else match controls.program.rule? observation.ruleId with
    | none => ("block", "native_command_extension_identity_invalid")
    | some rule =>
      let acc := if rule.permissionId ∈ controls.blockedPermissions then
        ("block", "native_command_permission_disabled") else acc
      if rule.permissionId ∉ controls.explicitlyEnabledPermissions then
        let candidate := ruleFloor rule (controls.program.ruleRequired rule)
        if rank acc.1 < rank candidate then (candidate, acc.2) else acc
      else acc

def permissionFloor (acc : String × String) (observation : NativeCommandPermissionObservationV1) : String × String :=
  let acc := if observation.uncertaintyReasons.isEmpty then acc else ("block", "native_command_extension_uncertain")
  if observation.extensionId ∈ controls.blockedExtensions ∨ observation.permissionId ∈ controls.blockedPermissions then
    ("block", "native_command_permission_disabled")
  else acc

def startFloor (batch : NativeCommandObservationBatchV1) (delegatedFloor : String) : String × String :=
  (if controls.globalBlock then "block" else delegatedFloor,
    if controls.globalBlock then "native_command_control_authority_block"
    else if batch.evaluationError.isSome then "native_command_extension_evaluation_failed"
    else if delegatedFloor = "block" then "native_command_permission_disabled"
    else "native_command_extension_review")

def batchFloor (batch : NativeCommandObservationBatchV1) (delegatedFloor : String) : String × String :=
  batch.permissionObservations.foldl (permissionFloor controls)
    (batch.observations.foldl (observationFloor controls) (startFloor controls batch delegatedFloor))

def uncertaintyCount (batch : NativeCommandObservationBatchV1) : Nat :=
  batch.observations.countP (fun observation => !observation.uncertaintyReasons.isEmpty) +
    batch.permissionObservations.countP (fun observation => !observation.uncertaintyReasons.isEmpty) +
    if batch.evaluationError.isSome then 1 else 0

/-! ## Application -/

variable (evaluator : Evaluator)

def observedBatch (command : Option CanonicalCommandV1) (tool : Option String) (packages : List String) :
    NativeCommandObservationBatchV1 × String :=
  let observed := match command with
    | some command => evaluator.observe command controls.activeExtensions
    | none => .ok .empty
  let batch := match observed with
    | .ok batch => batch
    | .error _ => .failed
  if batch.evaluationError.isNone then
    match delegatedObservations controls evaluator.expired command tool packages batch with
    | .ok (floor, batch) => (batch, floor)
    | .error _ => (.failed, "block")
  else (batch, "allow")

def receiptBinding (batch : NativeCommandObservationBatchV1) (digest : String) : NativeCommandReceiptBindingV1 where
  schema := "guard.native-command-receipt-binding.v1"
  programDigest := controls.binding.programDigest
  catalogDigest := controls.binding.catalogDigest
  trustDigest := controls.binding.trustDigest
  controlRevision := controls.binding.revision
  managedControlRevision := controls.binding.managedRevision
  controlEffectiveDigest := controls.binding.effectiveDigest
  observationsDigest := digest
  observationCount := batch.count
  uncertaintyCount := uncertaintyCount batch

/-- Whether authenticated consent settles the generic review of the command. -/
def settlesReview (command : Option CanonicalCommandV1) (result : PreToolResultV1)
    (batch : NativeCommandObservationBatchV1) (floor : String) : Bool :=
  result.reasonCode == "native_command_review_required" && result.minimumAction == "review" && result.action.bounded &&
    !result.action.sensitiveTarget && floor == "allow" && uncertaintyCount batch == 0 &&
    command.any (fun model => explicitPermissionsCoverCommand controls (evaluator.benignCommandSegments model) model
      batch.observations)

def settled (result : PreToolResultV1) : PreToolResultV1 :=
  { result with
    minimumAction := "allow"
    policyAction := "allow"
    decision := "allow"
    explicitlyBenign := true
    reasonCode := "native_command_explicit_permission_allow"
    reason := "This command is allowed by its authenticated extension permissions." }

def finalFloor (batch : NativeCommandObservationBatchV1) (acc : String × String) : String × String :=
  if batch.evaluationError.isSome ∧ controls.globalBlock = false ∧ rank acc.1 < rank "block" then
    ("block", "native_command_extension_evaluation_failed")
  else acc

/-- `apply_with_tool_and_context` -/
def applyWithTool (command : Option CanonicalCommandV1) (result : PreToolResultV1) (tool : Option String)
    (packages : List String) : PreToolResultV1 :=
  let (batch, delegatedFloor) := observedBatch controls evaluator command tool packages
  let floor := batchFloor controls batch delegatedFloor
  match evaluator.digestValue batch with
  | none => strengthen result "block" "native_command_extension_evaluation_failed"
  | some digest =>
    let result := if settlesReview controls evaluator command result batch floor.1 then settled result else result
    let result := { result with
      commandExtensions := some {
        schema := "guard.native-command-observations.v1"
        binding := receiptBinding controls batch digest
        observations := batch.observations
        permissionObservations := batch.permissionObservations
        evaluationError := batch.evaluationError } }
    let floor := finalFloor controls batch floor
    strengthen result floor.1 floor.2

end Apply

end Controls
end Guard
