import HolGuard.Controls.Composition
import HolGuard.Controls.Coverage
/-!
# Controls raise decisions

Applying controls gives the maximum of the incoming decision and the floor, but for one case: the generic review of an
unknown command is settled when authenticated consent, or the native proof that a segment is benign, covers all of it.
-/
namespace Guard
namespace Controls

open Contracts (NativeExtensionControlV1 NativeExtensionControlLayerV1 NativeCommandControlBindingV1)

/-! ## Ranks -/

theorem rank_le_block (action : String) : rank action ≤ rank "block" := by
  have hblock : rank "block" = 5 := by decide
  rw [hblock, rank]
  repeat' split
  all_goals omega

theorem rank_eq_zero {action : String} : rank action = 0 ↔ action = "allow" := by
  unfold rank
  constructor
  · intro h
    by_contra hne
    rw [if_neg hne] at h
    repeat' split at h
    all_goals omega
  · rintro rfl
    rfl

theorem rank_strengthen (result : PreToolResultV1) (action reason : String) :
    rank (strengthen result action reason).minimumAction = max (rank result.minimumAction) (rank action) := by
  unfold strengthen
  split
  · rename_i h
    exact (max_eq_right h.le).symm
  · rename_i h
    exact (max_eq_left (not_lt.1 h)).symm

/-! ## The floor -/

section Floor

variable {controls : CompiledNativeCommandControls}

def baseRank (controls : CompiledNativeCommandControls) (acc : String × String) (o : NativeCommandObservationV1) :
    Nat :=
  if o.uncertaintyReasons = [] ∧ o.extensionId ∉ controls.blockedExtensions then rank acc.1 else rank "block"

theorem rank_observationFloor_eq (acc : String × String) (o : NativeCommandObservationV1) :
    rank (observationFloor controls acc o).1 =
      if o.effectiveSegmentIndexes = [] then baseRank controls acc o
      else match controls.program.rule? o.ruleId with
        | none => rank "block"
        | some rule =>
          if rule.permissionId ∈ controls.blockedPermissions then rank "block"
          else if rule.permissionId ∈ controls.explicitlyEnabledPermissions then baseRank controls acc o
          else max (baseRank controls acc o) (rank (ruleFloor rule (controls.program.ruleRequired rule))) := by
  simp only [observationFloor, List.isEmpty_iff]
  set a := if o.extensionId ∈ controls.blockedExtensions then ("block", "native_command_extension_disabled")
    else if o.uncertaintyReasons = [] then acc else ("block", "native_command_extension_uncertain") with ha
  have hbase : baseRank controls acc o = rank a.1 := by
    by_cases hextension : o.extensionId ∈ controls.blockedExtensions <;>
      by_cases hcertain : o.uncertaintyReasons = [] <;> simp [baseRank, ha, hextension, hcertain]
  rw [hbase]
  split
  · rfl
  cases controls.program.rule? o.ruleId with
  | none => rfl
  | some rule =>
    by_cases hblocked : rule.permissionId ∈ controls.blockedPermissions
    · simp only [hblocked, if_true, if_neg (not_lt.2 (rank_le_block _)), ite_self]
    · by_cases henabled : rule.permissionId ∈ controls.explicitlyEnabledPermissions
      · simp only [hblocked, henabled, if_false, not_true_eq_false, if_true]
      · simp only [hblocked, henabled, if_false, not_false_eq_true, if_true]
        split
        · rename_i hlt
          exact (max_eq_right hlt.le).symm
        · rename_i hle
          exact (max_eq_left (not_lt.1 hle)).symm

theorem rank_observationFloor (acc : String × String) (o : NativeCommandObservationV1) :
    rank acc.1 ≤ rank (observationFloor controls acc o).1 := by
  have hbase : rank acc.1 ≤ baseRank controls acc o := by
    unfold baseRank
    split
    · exact le_rfl
    · exact rank_le_block _
  rw [rank_observationFloor_eq]
  split
  · exact hbase
  split
  · exact rank_le_block _
  split_ifs
  · exact rank_le_block _
  · exact hbase
  · exact le_max_of_le_left hbase

theorem rank_permissionFloor (acc : String × String) (o : NativeCommandPermissionObservationV1) :
    rank acc.1 ≤ rank (permissionFloor controls acc o).1 := by
  unfold permissionFloor
  simp only
  split
  · exact rank_le_block _
  split
  · exact le_rfl
  · exact rank_le_block _

/-- An observation that leaves the floor at allow is certain, of no blocked extension and, with a segment, of no blocked
permission. -/
theorem observationFloor_allow {acc : String × String} {o : NativeCommandObservationV1}
    (h : rank (observationFloor controls acc o).1 = 0) :
    o.uncertaintyReasons = [] ∧ o.extensionId ∉ controls.blockedExtensions ∧
      (o.effectiveSegmentIndexes ≠ [] → ∀ rule, controls.program.rule? o.ruleId = some rule →
        rule.permissionId ∉ controls.blockedPermissions) := by
  have hblock : rank "block" ≠ 0 := by decide
  have hbase : baseRank controls acc o = 0 → o.uncertaintyReasons = [] ∧
      o.extensionId ∉ controls.blockedExtensions := by
    intro hzero
    by_contra hnot
    rw [baseRank, if_neg hnot] at hzero
    exact hblock hzero
  rw [rank_observationFloor_eq] at h
  split at h
  · rename_i hempty
    exact ⟨(hbase h).1, (hbase h).2, fun hne => absurd hempty hne⟩
  split at h
  · exact absurd h hblock
  rename_i rule hrule
  split at h
  · exact absurd h hblock
  rename_i hblocked
  have hzero : baseRank controls acc o = 0 := by
    split at h
    · exact h
    · exact Nat.eq_zero_of_le_zero (h ▸ le_max_left _ _)
  refine ⟨(hbase hzero).1, (hbase hzero).2, fun _ rule' hrule' => ?_⟩
  rw [hrule] at hrule'
  cases hrule'
  exact hblocked

theorem permissionFloor_allow {acc : String × String} {o : NativeCommandPermissionObservationV1}
    (h : rank (permissionFloor controls acc o).1 = 0) :
    o.uncertaintyReasons = [] ∧ o.extensionId ∉ controls.blockedExtensions ∧
      o.permissionId ∉ controls.blockedPermissions := by
  have hblock : rank "block" ≠ 0 := by decide
  unfold permissionFloor at h
  simp only at h
  split at h
  · exact (hblock h).elim
  rename_i hfree
  push Not at hfree
  split at h
  · rename_i hcertain
    exact ⟨List.isEmpty_iff.1 hcertain, hfree⟩
  · exact (hblock h).elim

/-- A fold of steps that only raise the floor and ends at allow was at allow after each of them. -/
theorem foldl_floor_allow {α : Type} {step : String × String → α → String × String} {P : α → Prop}
    (hraise : ∀ acc a, rank acc.1 ≤ rank (step acc a).1) (hstep : ∀ acc a, rank (step acc a).1 = 0 → P a) :
    ∀ (l : List α) (acc : String × String), rank (l.foldl step acc).1 = 0 → rank acc.1 = 0 ∧ ∀ a ∈ l, P a
  | [], acc, h => ⟨h, fun _ h => by cases h⟩
  | a :: l, acc, h => by
    obtain ⟨hafter, hall⟩ := foldl_floor_allow hraise hstep l (step acc a) h
    exact ⟨Nat.le_zero.1 ((hraise acc a).trans hafter.le), List.forall_mem_cons.2 ⟨hstep acc a hafter, hall⟩⟩

/-- **What a floor of allow says about a batch.** -/
theorem batchFloor_allow {batch : NativeCommandObservationBatchV1} {delegatedFloor : String}
    (h : (batchFloor controls batch delegatedFloor).1 = "allow") :
    controls.globalBlock = false ∧
    (∀ o ∈ batch.observations, o.uncertaintyReasons = [] ∧ o.extensionId ∉ controls.blockedExtensions ∧
      (o.effectiveSegmentIndexes ≠ [] → ∀ rule, controls.program.rule? o.ruleId = some rule →
        rule.permissionId ∉ controls.blockedPermissions)) ∧
    ∀ o ∈ batch.permissionObservations, o.uncertaintyReasons = [] ∧ o.extensionId ∉ controls.blockedExtensions ∧
      o.permissionId ∉ controls.blockedPermissions := by
  obtain ⟨hobservations, hpermissions⟩ := foldl_floor_allow rank_permissionFloor (fun _ _ => permissionFloor_allow)
    batch.permissionObservations _ (rank_eq_zero.2 h)
  obtain ⟨hstart, hall⟩ := foldl_floor_allow rank_observationFloor (fun _ _ => observationFloor_allow)
    batch.observations _ hobservations
  refine ⟨?_, hall, hpermissions⟩
  cases hblock : controls.globalBlock with
  | false => rfl
  | true =>
    simp only [startFloor, hblock, if_true] at hstart
    exact absurd hstart (by decide)

end Floor

/-! ## Lowering -/

section Lowering

variable (sha : Lib.Hash) (binding : NativeCommandControlBindingV1) (program : NativeCommandProgram)
  (controls : CompiledNativeCommandControls) (evaluator : Evaluator) (command : Option CanonicalCommandV1)
  (result : PreToolResultV1) (tool : Option String) (packages : List String)

/-- The floor that the decision is raised to; a batch without a digest blocks. -/
def computedFloor : String :=
  match evaluator.digestValue (observedBatch controls evaluator command tool packages).1 with
  | none => "block"
  | some _ => (finalFloor controls (observedBatch controls evaluator command tool packages).1
      (batchFloor controls (observedBatch controls evaluator command tool packages).1
        (observedBatch controls evaluator command tool packages).2)).1

/-- The permission of the observed rule is configurable, enabled by a layer of a protected authority and disabled by
none. -/
def AuthenticatedConsent (o : NativeCommandObservationV1) : Prop :=
  binding.health = "protected" ∧ ∃ rule entry, program.rule? o.ruleId = some rule ∧ entry ∈ program.permissions ∧
    entry.2.permissionId = rule.permissionId ∧ entry.2.configurable = true ∧
    (∃ e ∈ entries binding.layers, target e = ("permission", rule.permissionId)) ∧
    ∀ e ∈ entries binding.layers, target e = ("permission", rule.permissionId) → e.2.state ≠ "disabled"

/-- The generic review, and consent to all of the command. -/
structure FullCoverage : Prop where
  generic : result.reasonCode = "native_command_review_required" ∧ result.minimumAction = "review"
  bounded : result.action.bounded = true ∧ result.action.sensitiveTarget = false
  evaluated : (observedBatch controls evaluator command tool packages).1.evaluationError = none
  observations : ∀ o ∈ (observedBatch controls evaluator command tool packages).1.observations,
    o.uncertaintyReasons = [] ∧ o.extensionId ∉ controls.blockedExtensions ∧
      (o.effectiveSegmentIndexes ≠ [] → ∀ rule, program.rule? o.ruleId = some rule →
        rule.permissionId ∉ controls.blockedPermissions)
  permissions : ∀ o ∈ (observedBatch controls evaluator command tool packages).1.permissionObservations,
    o.uncertaintyReasons = [] ∧ o.extensionId ∉ controls.blockedExtensions ∧
      o.permissionId ∉ controls.blockedPermissions
  authority : binding.health = "protected" ∨ initialDefaults binding = true
  unlocked : ∀ layer ∈ binding.layers, layer.globalLockdown = false
  covered : ∃ model, command = some model ∧ PlainCommand model ∧ ∀ index < model.segments.length,
    index ∈ evaluator.benignCommandSegments model ∨
      ∃ o ∈ (observedBatch controls evaluator command tool packages).1.observations,
        index ∈ o.effectiveSegmentIndexes ∧ AuthenticatedConsent binding program o

variable {sha binding program controls evaluator command result tool packages}

/-- The outgoing rank, by whether consent settles the review. -/
theorem rank_applyWithTool : rank (applyWithTool controls evaluator command result tool packages).minimumAction =
    if (evaluator.digestValue (observedBatch controls evaluator command tool packages).1).isSome = true ∧
        settlesReview controls evaluator command result (observedBatch controls evaluator command tool packages).1
          (batchFloor controls (observedBatch controls evaluator command tool packages).1
            (observedBatch controls evaluator command tool packages).2).1 = true then 0
    else max (rank result.minimumAction) (rank (computedFloor controls evaluator command tool packages)) := by
  unfold applyWithTool computedFloor
  generalize observedBatch controls evaluator command tool packages = observed
  obtain ⟨batch, delegatedFloor⟩ := observed
  cases hdigest : evaluator.digestValue batch with
  | none => simp [hdigest, rank_strengthen]
  | some digest =>
    simp only [hdigest, rank_strengthen, Option.isSome_some, true_and]
    split
    · rename_i hsettles
      -- the settled floor is allow, and no evaluation error raises it again
      obtain ⟨hrest, -⟩ := Bool.and_eq_true_iff.1 hsettles
      obtain ⟨hrest, hcertain⟩ := Bool.and_eq_true_iff.1 hrest
      obtain ⟨-, hfloor⟩ := Bool.and_eq_true_iff.1 hrest
      have hnone : batch.evaluationError.isSome = false := by
        cases herror : batch.evaluationError.isSome with
        | false => rfl
        | true =>
          rw [beq_iff_eq, uncertaintyCount, herror] at hcertain
          simp at hcertain
      rw [finalFloor, if_neg (by simp [hnone]), beq_iff_eq.1 hfloor]
      rfl
    · rfl

theorem mem_explicitlyEnabledOf {health : String} {composed : String × String → Option Bool} {id : String} :
    id ∈ explicitlyEnabledOf program health composed ↔ health = "protected" ∧ ∃ entry ∈ program.permissions,
      entry.2.permissionId = id ∧ entry.2.configurable = true ∧ composed ("permission", id) = some false := by
  simp only [explicitlyEnabledOf, List.mem_toFinset, List.mem_map, List.mem_filter, Bool.and_eq_true, beq_iff_eq]
  constructor
  · rintro ⟨entry, ⟨hentry, ⟨hhealth, hconfigurable⟩, hcomposed⟩, rfl⟩
    exact ⟨hhealth, entry, hentry, rfl, hconfigurable, hcomposed⟩
  · rintro ⟨hhealth, entry, hentry, rfl, hconfigurable, hcomposed⟩
    exact ⟨entry, ⟨hentry, ⟨hhealth, hconfigurable⟩, hcomposed⟩, rfl⟩

/-- A permission the controls hold as explicitly enabled was enabled by a layer and disabled by none. -/
theorem authenticatedConsent_of_enabled (hcompiled : forProgram sha binding program = .ok controls)
    {o : NativeCommandObservationV1} (h : explicitlyEnabled controls o = true) :
    AuthenticatedConsent binding program o := by
  obtain ⟨-, -, composition, hlayers, -, -, hprogram, -, -, hexplicit, -⟩ := forProgram_eq_ok_iff.1 hcompiled
  obtain ⟨rule, hrule, hmem⟩ := (Option.any_eq_true _ _).1 h
  rw [decide_eq_true_eq, hexplicit, mem_explicitlyEnabledOf] at hmem
  obtain ⟨hhealth, entry, hentry, hid, hconfigurable, hcomposed⟩ := hmem
  have hcontrols := ((composeLayers_ok hlayers).1.enabled rfl).1 hcomposed
  rw [hprogram] at hrule
  exact ⟨hhealth, rule, entry, hrule, hentry, hid, hconfigurable, hcontrols.1, hcontrols.2⟩

/-- **The one way controls lower a decision is full coverage; otherwise they give the maximum.** -/
theorem lowering_is_full_coverage (sha : Lib.Hash) (binding : NativeCommandControlBindingV1)
    (program : NativeCommandProgram) (controls : CompiledNativeCommandControls)
    (hcompiled : forProgram sha binding program = .ok controls) (evaluator : Evaluator)
    (command : Option CanonicalCommandV1) (result : PreToolResultV1) (tool : Option String) (packages : List String) :
    (rank (applyWithTool controls evaluator command result tool packages).minimumAction < rank result.minimumAction →
      FullCoverage binding program controls evaluator command result tool packages) ∧
    (¬ rank (applyWithTool controls evaluator command result tool packages).minimumAction < rank result.minimumAction →
      rank (applyWithTool controls evaluator command result tool packages).minimumAction =
        max (rank result.minimumAction) (rank (computedFloor controls evaluator command tool packages))) := by
  obtain ⟨-, -, composition, hlayers, -, -, hprogram, -, -, -, hblock⟩ := forProgram_eq_ok_iff.1 hcompiled
  rw [rank_applyWithTool]
  split
  · rename_i hsettled
    have hsettles := hsettled.2
    simp only [settlesReview, Bool.and_eq_true, beq_iff_eq, Bool.not_eq_true'] at hsettles
    obtain ⟨⟨⟨⟨⟨⟨hreason, hminimum⟩, hbounded⟩, hsensitive⟩, hfloor⟩, hcertain⟩, hcovers⟩ := hsettles
    obtain ⟨hunblocked, hobservations, hpermissions⟩ := batchFloor_allow hfloor
    obtain ⟨model, hmodel, hcover⟩ := (Option.any_eq_true _ _).1 hcovers
    obtain ⟨hplain, -, hsegments, -⟩ := explicitPermissionsCoverCommand_iff.1 hcover
    rw [hblock, (composeLayers_ok hlayers).2.1, Bool.or_eq_false_iff] at hunblocked
    constructor
    · intro _
      refine ⟨⟨hreason, hminimum⟩, ⟨hbounded, hsensitive⟩, ?_, ?_, hpermissions, ?_, ?_, model, hmodel, hplain, ?_⟩
      · rw [uncertaintyCount] at hcertain
        cases herror : (observedBatch controls evaluator command tool packages).1.evaluationError with
        | none => rfl
        | some e => simp [herror] at hcertain
      · rw [← hprogram]
        exact hobservations
      · have hhealth := hunblocked.1
        simp only [initialComposition, Bool.and_eq_false_iff, bne_eq_false_iff_eq, Bool.not_eq_false'] at hhealth
        exact hhealth
      · intro layer hlayer
        simpa using List.any_eq_false.1 hunblocked.2 layer hlayer
      · intro index hindex
        rcases hsegments index hindex with hbenign | ⟨o, ho, henabled, hmem⟩
        · exact .inl hbenign
        · exact .inr ⟨o, ho, hmem, authenticatedConsent_of_enabled hcompiled henabled⟩
    · intro hnot
      rw [hminimum] at hnot
      exact absurd (by decide : (0 : Nat) < rank "review") hnot
  · refine ⟨fun hlower => ?_, fun _ => rfl⟩
    exact absurd (le_max_left _ _) (not_le.2 hlower)

/-! ## The baseline of a device that was never enrolled -/

def neverEnrolled : NativeCommandControlBindingV1 :=
  ⟨Contracts.bindingSchema, zeros, zeros, zeros, "unenrolled", 0, 0, zeros, [], some ⟨1, 1, zeros, none⟩⟩

def baseline : CompiledNativeCommandControls where
  program := sampleProgram
  binding := neverEnrolled
  activeExtensions := {"command.git"}
  blockedExtensions := ∅
  blockedPermissions := ∅
  explicitlyEnabledPermissions := ∅
  globalBlock := false

theorem forProgram_neverEnrolled : forProgram Lib.Hash.zero neverEnrolled sampleProgram = .ok baseline := by
  refine forProgram_eq_ok_iff.2 ⟨rfl, ⟨rfl, rfl, rfl⟩, initialComposition neverEnrolled, rfl, ?_, ?_,
    rfl, rfl, by decide, by decide, by decide⟩
  all_goals exact blockedAmong_alone (by decide)

/-- Matchers that see no rule in a command and find its first segment benign. -/
def benignEvaluator : Evaluator where
  observe _ _ := .ok .empty
  benignCommandSegments _ := [0]
  digestValue _ := some zeros
  expired _ := false

def genericReview : PreToolResultV1 :=
  ⟨⟨true, false⟩, "deny", "review", "review", "native_command_review_required", "", false, none⟩

def printDirectory : CanonicalCommandV1 := ⟨[], [⟨some "pwd", []⟩], "exact", false⟩

def pushDisabled : NativeCommandControlBindingV1 :=
  ⟨Contracts.bindingSchema, zeros, zeros, zeros, "protected", 1, 0, zeros,
    [⟨"1.0.0", "local-admin", zeros, false, [⟨"permission", "command.git.permission.push", "disabled"⟩]⟩],
    some ⟨1, 1, zeros, none⟩⟩

def pushControls : CompiledNativeCommandControls where
  program := sampleProgram
  binding := pushDisabled
  activeExtensions := {"command.git"}
  blockedExtensions := ∅
  blockedPermissions := {"command.git.permission.push"}
  explicitlyEnabledPermissions := ∅
  globalBlock := false

theorem forProgram_pushDisabled : forProgram Lib.Hash.zero pushDisabled sampleProgram = .ok pushControls := by
  refine forProgram_eq_ok_iff.2 ⟨rfl, ⟨rfl, rfl, rfl⟩, composeControl "local-admin" (initialComposition pushDisabled)
    ⟨"permission", "command.git.permission.push", "disabled"⟩, rfl, ?_, ?_,
    rfl, rfl, by decide, by decide, by decide⟩
  all_goals exact (blockedAmong_alone (by decide)).trans (congrArg _ (by decide))

/-- Matchers that see a push in a safe variant, so that no segment of it is left, and find the first segment benign. -/
def safePushEvaluator : Evaluator where
  observe _ _ := .ok ⟨[⟨"command.git", "command.git.push", [], [], [], []⟩], [], none⟩
  benignCommandSegments _ := [0]
  digestValue _ := some zeros
  expired _ := false

/-- **Two more ways to settle the review.**  The baseline has no layer, no consent and no protected authority; and a
disabled permission that is observed in a safe variant only does not count. -/
theorem baseline_settles_review :
    (forProgram Lib.Hash.zero neverEnrolled sampleProgram = .ok baseline ∧ neverEnrolled.health ≠ "protected" ∧
      rank (applyWithTool baseline benignEvaluator (some printDirectory) genericReview none []).minimumAction <
        rank genericReview.minimumAction) ∧
    forProgram Lib.Hash.zero pushDisabled sampleProgram = .ok pushControls ∧
      (∃ o ∈ (observedBatch pushControls safePushEvaluator (some printDirectory) none []).1.observations,
        ∃ rule, sampleProgram.rule? o.ruleId = some rule ∧ rule.permissionId ∈ pushControls.blockedPermissions) ∧
      rank (applyWithTool pushControls safePushEvaluator (some printDirectory) genericReview none []).minimumAction <
        rank genericReview.minimumAction :=
  ⟨⟨forProgram_neverEnrolled, by decide, by decide⟩, forProgram_pushDisabled,
    ⟨⟨"command.git", "command.git.push", [], [], [], []⟩, by decide,
      ⟨"command.git.push", 0, "command.git.permission.push", "disabled", "medium", some 0⟩, by decide, by decide⟩,
    by decide⟩

theorem pwd_is_fully_covered :
    forProgram Lib.Hash.zero neverEnrolled sampleProgram = .ok baseline ∧
    FullCoverage neverEnrolled sampleProgram baseline benignEvaluator (some printDirectory) genericReview none [] :=
  ⟨forProgram_neverEnrolled, (lowering_is_full_coverage Lib.Hash.zero neverEnrolled sampleProgram baseline
    forProgram_neverEnrolled benignEvaluator (some printDirectory) genericReview none []).1 (by decide)⟩

end Lowering

end Controls
end Guard
