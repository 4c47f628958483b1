import HolGuard.Controls.Apply
/-!
# What consent covers

`explicit_permissions_cover_command` gathers the segments that explicit permissions cover in one pass, and judges an
observation without consent by what has been gathered before it.  Its verdict is the specification's exactly in the
orders in which consent comes first; in the others it is no.
-/
namespace Guard
namespace Controls

section Coverage

variable (controls : CompiledNativeCommandControls)

def explicitlyEnabled (observation : NativeCommandObservationV1) : Bool :=
  (controls.program.rule? observation.ruleId).any (fun rule =>
    decide (rule.permissionId ∈ controls.explicitlyEnabledPermissions))

def consentedSegments (observations : List NativeCommandObservationV1) : Finset Nat :=
  ((observations.filter (explicitlyEnabled controls)).flatMap
    NativeCommandObservationV1.effectiveSegmentIndexes).toFinset

/-- A segment is benign or covered by an observation with an explicitly enabled permission. -/
def Consented (benign : List Nat) (observations : List NativeCommandObservationV1) (index : Nat) : Prop :=
  index ∈ benign ∨ ∃ o ∈ observations, explicitlyEnabled controls o = true ∧ index ∈ o.effectiveSegmentIndexes

/-- What the verdict is for: every segment has consent, and so has every segment of an observation without it. -/
structure Covers (benign : List Nat) (command : CanonicalCommandV1) (observations : List NativeCommandObservationV1) :
    Prop where
  segments : ∀ index < command.segments.length, Consented controls benign observations index
  unconsented : ∀ o ∈ observations, explicitlyEnabled controls o = false → ∀ index ∈ o.effectiveSegmentIndexes,
    Consented controls benign observations index

/-- The command is exact, neither wrapped nor run under another PATH, and not empty. -/
structure PlainCommand (command : CanonicalCommandV1) : Prop where
  exact : command.confidence = "exact"
  path : command.pathOverridden = false
  unwrapped : command.wrapperChain = []
  segments : command.segments ≠ []

/-- Every observation with a segment is of a rule of the program. -/
def Identified (observations : List NativeCommandObservationV1) : Prop :=
  ∀ o ∈ observations, o.effectiveSegmentIndexes ≠ [] → (controls.program.rule? o.ruleId).isSome = true

/-- Consent comes before the observations without it: what the whole list covers of them is covered before them. -/
def ConsentFirst (benign : List Nat) (observations : List NativeCommandObservationV1) : Prop :=
  ∀ before o after, observations = before ++ o :: after → explicitlyEnabled controls o = false →
    ∀ index ∈ o.effectiveSegmentIndexes, Consented controls benign observations index →
      Consented controls benign before index

variable {controls}

variable {observations : List NativeCommandObservationV1}

theorem consented_iff {benign : List Nat} {index : Nat} :
    Consented controls benign observations index ↔
      index ∈ benign.toFinset ∪ consentedSegments controls observations := by
  simp only [Consented, consentedSegments, Finset.mem_union, List.mem_toFinset, List.mem_flatMap, List.mem_filter,
    and_assoc]

theorem consentedSegments_cons (o : NativeCommandObservationV1) (observations : List NativeCommandObservationV1) :
    consentedSegments controls (o :: observations) =
      (if explicitlyEnabled controls o then o.effectiveSegmentIndexes.toFinset else ∅) ∪
        consentedSegments controls observations := by
  unfold consentedSegments
  rw [List.filter_cons]
  split <;> simp

/-- The step of the loop, by whether the observation has a segment, a rule and consent. -/
theorem coverLoop_cons (o : NativeCommandObservationV1) (observations : List NativeCommandObservationV1)
    (covered : Finset Nat) : coverLoop controls (o :: observations) covered =
      if o.effectiveSegmentIndexes ≠ [] ∧ ((controls.program.rule? o.ruleId).isSome = false ∨
          (explicitlyEnabled controls o = false ∧ ¬ ∀ index ∈ o.effectiveSegmentIndexes, index ∈ covered)) then none
      else coverLoop controls observations
        (covered ∪ if explicitlyEnabled controls o then o.effectiveSegmentIndexes.toFinset else ∅) := by
  rw [coverLoop]
  by_cases hsegments : o.effectiveSegmentIndexes = []
  · simp [hsegments]
  cases hrule : controls.program.rule? o.ruleId with
  | none => simp [hsegments]
  | some rule =>
    by_cases henabled : rule.permissionId ∈ controls.explicitlyEnabledPermissions
    · simp [explicitlyEnabled, hrule, henabled, hsegments]
    · have hno : explicitlyEnabled controls o = false := by simp [explicitlyEnabled, hrule, henabled]
      simp only [List.isEmpty_iff, hsegments, henabled, hno, List.all_eq_true, decide_eq_true_eq]
      grind [Finset.union_empty]

/-- What holds at every place of a list holds at its first and, behind that, at every place of the rest. -/
theorem forall_splits_cons {α : Type} {P : List α → α → Prop} {a : α} {l : List α} :
    (∀ before o after, a :: l = before ++ o :: after → P before o) ↔
      P [] a ∧ ∀ before o after, l = before ++ o :: after → P (a :: before) o := by
  constructor
  · exact fun h => ⟨h [] a l rfl, fun before o after hl => h (a :: before) o after (congrArg _ hl)⟩
  · rintro ⟨hfirst, hrest⟩ (- | ⟨b, before⟩) o after h <;> cases h
    · exact hfirst
    · exact hrest before o after rfl

/-- **What the loop covers and when it ends early**, by induction on the observations: each with a segment must be of a
known rule and, without consent, have its segments covered before it. -/
theorem coverLoop_eq_some_iff {c : Finset Nat} :
    ∀ (observations : List NativeCommandObservationV1) (covered : Finset Nat),
    coverLoop controls observations covered = some c ↔
      c = covered ∪ consentedSegments controls observations ∧
      ∀ before o after, observations = before ++ o :: after → o.effectiveSegmentIndexes ≠ [] →
        (controls.program.rule? o.ruleId).isSome = true ∧
        (explicitlyEnabled controls o = false → ∀ index ∈ o.effectiveSegmentIndexes,
          index ∈ covered ∪ consentedSegments controls before)
  | [], covered => by simpa [coverLoop, consentedSegments] using eq_comm
  | o :: observations, covered => by
    have hnil : consentedSegments controls [] = ∅ := rfl
    rw [coverLoop_cons, forall_splits_cons, Option.ite_none_left_eq_some, coverLoop_eq_some_iff observations]
    simp only [consentedSegments_cons, ← Finset.union_assoc, hnil, Finset.union_empty]
    rw [and_left_comm]
    refine and_congr_right' (and_congr_left' ?_)
    rw [not_and, not_or, Bool.not_eq_false, not_and, not_not]

theorem explicitPermissionsCoverCommand_iff {benign : List Nat} {command : CanonicalCommandV1} :
    explicitPermissionsCoverCommand controls benign command observations = true ↔
      PlainCommand command ∧ Identified controls observations ∧
      (∀ index < command.segments.length, Consented controls benign observations index) ∧
      ∀ before o after, observations = before ++ o :: after → explicitlyEnabled controls o = false →
        ∀ index ∈ o.effectiveSegmentIndexes, Consented controls benign before index := by
  have hplain : PlainCommand command ↔ ¬ (command.confidence ≠ "exact" ∨ command.pathOverridden = true ∨
      command.wrapperChain ≠ [] ∨ command.segments = []) := by
    constructor
    · rintro ⟨hexact, hpath, hwrapper, hsegments⟩
      simp [hexact, hpath, hwrapper, hsegments]
    · intro h
      push Not at h
      exact ⟨h.1, by simpa using h.2.1, h.2.2.1, h.2.2.2⟩
  rw [explicitPermissionsCoverCommand, hplain]
  split
  · rename_i hguard
    simp [hguard]
  rename_i hguard
  simp only [hguard, not_false_eq_true, true_and, consented_iff]
  constructor
  · intro h
    cases hloop : coverLoop controls observations benign.toFinset with
    | none => rw [hloop] at h; cases h
    | some covered =>
      rw [hloop] at h
      obtain ⟨rfl, hsteps⟩ := (coverLoop_eq_some_iff observations _).1 hloop
      refine ⟨fun o ho hsegments => ?_, fun index hindex => ?_, fun before o after hsplit hno index hindex => ?_⟩
      · obtain ⟨before, after, hsplit⟩ := List.append_of_mem ho
        exact (hsteps before o after hsplit hsegments).1
      · simpa using List.all_eq_true.1 h index (List.mem_range.2 hindex)
      · exact (hsteps before o after hsplit (List.ne_nil_of_mem hindex)).2 hno index hindex
  · rintro ⟨hidentified, hsegments, hunconsented⟩
    have hloop : coverLoop controls observations benign.toFinset =
        some (benign.toFinset ∪ consentedSegments controls observations) := by
      refine (coverLoop_eq_some_iff observations _).2 ⟨rfl, fun before o after hsplit hne => ⟨?_, fun hno => ?_⟩⟩
      · exact hidentified o (by rw [hsplit]; simp) hne
      · exact hunconsented before o after hsplit hno
    rw [hloop]
    simpa using hsegments

theorem Consented.mono {benign : List Nat} {observations' : List NativeCommandObservationV1}
    {index : Nat} (h : Consented controls benign observations index)
    (hsubset : observations ⊆ observations') : Consented controls benign observations' index := by
  rcases h with hbenign | ⟨o, ho, henabled, hindex⟩
  · exact .inl hbenign
  · exact .inr ⟨o, hsubset ho, henabled, hindex⟩

theorem consented_of_perm {benign : List Nat} {permuted : List NativeCommandObservationV1} {index : Nat}
    (hperm : permuted.Perm observations) :
    Consented controls benign permuted index ↔ Consented controls benign observations index :=
  ⟨fun h => h.mono hperm.subset, fun h => h.mono hperm.symm.subset⟩

/-- **When the verdict is yes, in any order**: exactly when the command is plain, the observations are identified, every
segment has consent, and in this order consent comes before the observations without it.  Only the last depends on the
order. -/
theorem coverage_of_permutation (controls : CompiledNativeCommandControls) (benign : List Nat)
    (command : CanonicalCommandV1)
    (observations permuted : List NativeCommandObservationV1) (hperm : permuted.Perm observations) :
    explicitPermissionsCoverCommand controls benign command permuted = true ↔
      PlainCommand command ∧ Identified controls observations ∧ Covers controls benign command observations ∧
        ConsentFirst controls benign permuted := by
  rw [explicitPermissionsCoverCommand_iff]
  constructor
  · rintro ⟨hplain, hidentified, hsegments, hunconsented⟩
    refine ⟨hplain, fun o ho => hidentified o (hperm.mem_iff.2 ho),
      ⟨fun index hindex => ?_, fun o ho hno index hindex => ?_⟩,
      fun before o after hsplit hno index hindex _ => hunconsented before o after hsplit hno index hindex⟩
    · exact (consented_of_perm hperm).1 (hsegments index hindex)
    · obtain ⟨before, after, hsplit⟩ := List.append_of_mem (hperm.mem_iff.2 ho)
      refine (consented_of_perm hperm).1 ((hunconsented before o after hsplit hno index hindex).mono ?_)
      rw [hsplit]
      exact List.subset_append_left _ _
  · rintro ⟨hplain, hidentified, hcovers, hfirst⟩
    refine ⟨hplain, fun o ho => hidentified o (hperm.mem_iff.1 ho), fun index hindex => ?_, ?_⟩
    · exact (consented_of_perm hperm).2 (hcovers.segments index hindex)
    · intro before o after hsplit hno index hindex
      refine hfirst before o after hsplit hno index hindex ((consented_of_perm hperm).2 ?_)
      exact hcovers.unconsented o (hperm.mem_iff.1 (by rw [hsplit]; simp)) hno index hindex

/-! ## Orders that differ -/

def zeros : String := String.ofList (List.replicate 64 '0')

def sampleProgram : NativeCommandProgram where
  programDigest := zeros
  catalogDigest := zeros
  trustDigest := zeros
  extensions := [⟨"command.git", false, [], ["git"], "first-party", none, none,
    [⟨"command.git.permission.push", true, [], []⟩, ⟨"command.git.permission.reset", true, [], []⟩]⟩]
  rules := [⟨"command.git.push", 0, "command.git.permission.push", "disabled", "medium", some 0⟩,
    ⟨"command.git.reset", 0, "command.git.permission.reset", "disabled", "medium", some 1⟩]
  extensionsNodup := by decide
  permissionsNodup := by decide
  rulesNodup := by decide
  rulesOwned := by decide

def sampleControls : CompiledNativeCommandControls where
  program := sampleProgram
  binding := ⟨"", "", "", "", "protected", 1, 0, "", [], none⟩
  activeExtensions := {"command.git"}
  blockedExtensions := ∅
  blockedPermissions := ∅
  explicitlyEnabledPermissions := {"command.git.permission.reset"}
  globalBlock := false

def sampleCommand : CanonicalCommandV1 := ⟨[], [⟨some "git", ["reset"]⟩], "exact", false⟩

def observed (ruleId : String) : NativeCommandObservationV1 := ⟨"command.git", ruleId, [], [], [], [0]⟩

/-- **The order decides.**  Two rules see the one segment, and one of them has consent: the verdict is yes when its
observation comes first and no in the order of the catalog, where it comes second. -/
theorem catalog_order_refuses_consent :
    [observed "command.git.push", observed "command.git.reset"].Perm
      [observed "command.git.reset", observed "command.git.push"] ∧
    explicitPermissionsCoverCommand sampleControls [] sampleCommand
      [observed "command.git.reset", observed "command.git.push"] = true ∧
    explicitPermissionsCoverCommand sampleControls [] sampleCommand
      [observed "command.git.push", observed "command.git.reset"] = false ∧
    (∀ index < sampleCommand.segments.length, Consented sampleControls []
      [observed "command.git.push", observed "command.git.reset"] index) ∧
    ∀ o ∈ [observed "command.git.push", observed "command.git.reset"], ∀ index ∈ o.effectiveSegmentIndexes,
      Consented sampleControls [] [observed "command.git.push", observed "command.git.reset"] index := by
  have hconsent : Consented sampleControls [] [observed "command.git.push", observed "command.git.reset"] 0 :=
    .inr ⟨observed "command.git.reset", by simp, by decide, by decide⟩
  refine ⟨List.Perm.swap _ _ _, by decide, by decide, fun index hindex => ?_, fun o ho index hindex => ?_⟩
  · obtain rfl : index = 0 := by
      have hlength : sampleCommand.segments.length = 1 := rfl
      omega
    exact hconsent
  · have hsegments : o.effectiveSegmentIndexes = [0] := by
      rcases List.mem_cons.1 ho with rfl | ho
      · rfl
      · rw [List.mem_singleton.1 ho]
        rfl
    rw [hsegments] at hindex
    rw [List.mem_singleton.1 hindex]
    exact hconsent

/-- The two orders of these observations: what they cover is the same, and consent comes first in one of them only. -/
theorem consent_first_covers :
    (PlainCommand sampleCommand ∧
      Identified sampleControls [observed "command.git.push", observed "command.git.reset"] ∧
      Covers sampleControls [] sampleCommand [observed "command.git.push", observed "command.git.reset"]) ∧
    ConsentFirst sampleControls [] [observed "command.git.reset", observed "command.git.push"] ∧
    ¬ ConsentFirst sampleControls [] [observed "command.git.push", observed "command.git.reset"] := by
  have hreset := (coverage_of_permutation sampleControls [] sampleCommand
    [observed "command.git.push", observed "command.git.reset"]
    [observed "command.git.reset", observed "command.git.push"] (List.Perm.swap _ _ _)).1 (by decide)
  have hpush := coverage_of_permutation sampleControls [] sampleCommand
    [observed "command.git.push", observed "command.git.reset"]
    [observed "command.git.push", observed "command.git.reset"] (List.Perm.refl _)
  obtain ⟨hplain, hidentified, hcovers, hfirst⟩ := hreset
  refine ⟨⟨hplain, hidentified, hcovers⟩, hfirst, fun hlate => ?_⟩
  exact absurd (hpush.2 ⟨hplain, hidentified, hcovers, hlate⟩) (by decide)

end Coverage

end Controls
end Guard
