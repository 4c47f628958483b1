import HolGuard.Controls.Compiled
import HolGuard.Lib.Checks
/-!
# What compiled controls say

The layers of a binding read as one list of controls: a target is disabled when one of them disables it, and has no
state when none names it.  `forProgram_eq_ok_iff` says what compilation checks and what it returns.
-/
namespace Guard
namespace Controls

open Contracts (NativeExtensionControlV1 NativeExtensionControlLayerV1 NativeCommandControlBindingV1)

def entries (layers : List NativeExtensionControlLayerV1) : List (String × NativeExtensionControlV1) :=
  layers.flatMap (fun layer => layer.controls.map (fun control => (layer.kind, control)))

def target (entry : String × NativeExtensionControlV1) : String × String := (entry.2.targetKind, entry.2.targetId)

/-- What a loop over controls makes of a composition. -/
structure Composes (acc c : Composition) (list : List (String × NativeExtensionControlV1)) : Prop where
  disabled : ∀ key, c.composed key = some true ↔
    acc.composed key = some true ∨ ∃ e ∈ list, target e = key ∧ e.2.state = "disabled"
  unset : ∀ key, c.composed key = none ↔ acc.composed key = none ∧ ∀ e ∈ list, target e ≠ key
  locally : ∀ id, id ∈ c.locallyEnabled ↔ id ∈ acc.locallyEnabled ∨
    ∃ e ∈ list, e.1 = "local-admin" ∧ target e = ("extension", id) ∧ e.2.state ≠ "disabled"

namespace Composes

theorem nil (acc : Composition) (b : Bool) : Composes acc { acc with globalBlock := b } [] where
  disabled key := by simp
  unset key := by simp
  locally id := by simp

theorem append {a b c : Composition} {l m : List (String × NativeExtensionControlV1)} (h : Composes a b l)
    (h' : Composes b c m) : Composes a c (l ++ m) where
  disabled key := by
    rw [h'.disabled, h.disabled, or_assoc]
    simp only [List.mem_append, or_and_right, exists_or]
  unset key := by
    rw [h'.unset, h.unset, and_assoc]
    simp only [List.mem_append, or_imp, forall_and]
  locally id := by
    rw [h'.locally, h.locally, or_assoc]
    simp only [List.mem_append, or_and_right, exists_or]

theorem control (kind : String) (acc : Composition) (control : NativeExtensionControlV1) :
    Composes acc (composeControl kind acc control) [(kind, control)] where
  disabled key := by
    simp only [composeControl, List.mem_singleton, exists_eq_left, target]
    by_cases hkey : (control.targetKind, control.targetId) = key
    · subst hkey
      rw [Function.update_self]
      cases acc.composed (control.targetKind, control.targetId) <;> simp
    · rw [Function.update_of_ne (Ne.symm hkey)]
      simp [hkey]
  unset key := by
    simp only [composeControl, List.mem_singleton, forall_eq, target]
    by_cases hkey : (control.targetKind, control.targetId) = key
    · subst hkey
      simp
    · rw [Function.update_of_ne (Ne.symm hkey)]
      simp [hkey]
  locally id := by
    simp only [composeControl, List.mem_singleton, exists_eq_left, target, Prod.mk.injEq]
    split
    · rename_i h
      have hstate : control.state ≠ "disabled" := by simpa using h.2.2
      rw [Finset.mem_insert, or_comm]
      simp only [h.1, h.2.1, hstate, true_and, ne_eq, not_false_eq_true, and_true]
      exact or_congr_right eq_comm
    · rename_i h
      refine ⟨.inl, fun hid => hid.resolve_right ?_⟩
      rintro ⟨hkind, ⟨htarget, -⟩, hstate⟩
      exact h ⟨htarget, hkind, by simpa using hstate⟩

theorem enabled {acc c : Composition} {list : List (String × NativeExtensionControlV1)} (h : Composes acc c list)
    {key : String × String} (hacc : acc.composed key = none) : c.composed key = some false ↔
      (∃ e ∈ list, target e = key) ∧ ∀ e ∈ list, target e = key → e.2.state ≠ "disabled" := by
  have hdisabled := h.disabled key
  have hunset := h.unset key
  simp only [hacc, reduceCtorEq, false_or, true_and] at hdisabled hunset
  cases hc : c.composed key with
  | none =>
    have hno := hunset.1 hc
    simp only [reduceCtorEq, false_iff, not_and]
    rintro ⟨e, he, htarget⟩
    exact absurd htarget (hno e he)
  | some b =>
    have hset : ∃ e ∈ list, target e = key := by
      by_contra hno
      push Not at hno
      rw [hunset.2 hno] at hc
      cases hc
    simp only [hc, Option.some.injEq] at hdisabled
    cases b with
    | true =>
      obtain ⟨e, he, htarget, hstate⟩ := hdisabled.1 rfl
      simp only [Option.some.injEq, Bool.true_eq_false, false_iff, not_and]
      exact fun _ hall => hall e he htarget hstate
    | false =>
      simp only [true_iff]
      refine ⟨hset, fun e he htarget hstate => ?_⟩
      cases hdisabled.2 ⟨e, he, htarget, hstate⟩

end Composes

section Compile

variable {program : NativeCommandProgram}

theorem composeControls_ok {kind : String} : ∀ {controls : List NativeExtensionControlV1} {acc c : Composition},
    composeControls program kind acc controls = .ok c →
      Composes acc c (controls.map (fun control => (kind, control))) ∧ c.globalBlock = acc.globalBlock ∧
        ∀ control ∈ controls, knowsTarget program control = true
  | [], acc, c, h => by
    cases h
    exact ⟨.nil acc acc.globalBlock, rfl, fun _ h => by cases h⟩
  | control :: controls, acc, c, h => by
    rw [composeControls] at h
    obtain ⟨hknown, h⟩ := Lib.ite_error_eq_ok.1 h
    obtain ⟨hrest, hblock, hall⟩ := composeControls_ok h
    exact ⟨(Composes.control kind acc control).append hrest, hblock,
      List.forall_mem_cons.2 ⟨by simpa using hknown, hall⟩⟩

theorem composeControls_of_known {kind : String} : ∀ (controls : List NativeExtensionControlV1) (acc : Composition),
    (∀ control ∈ controls, knowsTarget program control = true) →
      ∃ c, composeControls program kind acc controls = .ok c
  | [], acc, _ => ⟨acc, rfl⟩
  | control :: controls, acc, h => by
    rw [composeControls, if_neg (by simp [h control List.mem_cons_self])]
    exact composeControls_of_known controls _ (fun c hc => h c (List.mem_cons_of_mem _ hc))

/-- **What the loop over the layers composes.** -/
theorem composeLayers_ok : ∀ {layers : List NativeExtensionControlLayerV1} {acc c : Composition},
    composeLayers program acc layers = .ok c → Composes acc c (entries layers) ∧
      c.globalBlock = (acc.globalBlock || layers.any NativeExtensionControlLayerV1.globalLockdown) ∧
      ∀ e ∈ entries layers, knowsTarget program e.2 = true
  | [], acc, c, h => by
    cases h
    exact ⟨.nil acc acc.globalBlock, by simp, fun _ h => by cases h⟩
  | layer :: layers, acc, c, h => by
    rw [composeLayers] at h
    split at h
    · cases h
    rename_i b hcontrols
    obtain ⟨hfirst, hblock, hknown⟩ := composeControls_ok hcontrols
    obtain ⟨hrest, hblock', hknown'⟩ := composeLayers_ok h
    refine ⟨((Composes.nil acc _).append hfirst).append hrest, ?_,
      List.forall_mem_append.2 ⟨List.forall_mem_map.2 hknown, hknown'⟩⟩
    rw [hblock', hblock, List.any_cons, Bool.or_assoc]

theorem composeLayers_of_known : ∀ (layers : List NativeExtensionControlLayerV1) (acc : Composition),
    (∀ e ∈ entries layers, knowsTarget program e.2 = true) → ∃ c, composeLayers program acc layers = .ok c
  | [], acc, _ => ⟨acc, rfl⟩
  | layer :: layers, acc, h => by
    obtain ⟨b, hb⟩ : ∃ b, composeControls program layer.kind
        { acc with globalBlock := acc.globalBlock || layer.globalLockdown } layer.controls = .ok b :=
      composeControls_of_known layer.controls _ (fun control hcontrol =>
        h (layer.kind, control) (List.mem_append_left _ (List.mem_map_of_mem hcontrol)))
    rw [composeLayers, hb]
    exact composeLayers_of_known layers b (fun e he => h e (List.mem_append_right _ he))

theorem blockedAmong_alone {error : String} {table : List (String × List String)} {marked : String → Bool} :
    ∀ {ids : List String}, (∀ id ∈ ids, Lib.dependenciesOf table id = some []) →
      blockedAmong error (fun id => Lib.dependsOnMarked table marked [id] ∅ false) ids =
        .ok (ids.filter marked).toFinset
  | [], _ => rfl
  | id :: ids, h => by
    rw [blockedAmong, Lib.dependsOnMarked_alone marked (h id List.mem_cons_self),
      blockedAmong_alone (fun id' hid' => h id' (List.mem_cons_of_mem _ hid')), List.filter_cons]
    simp only
    split <;> simp

theorem forProgram_eq_ok_iff {sha : Lib.Hash} {binding : NativeCommandControlBindingV1}
    {controls : CompiledNativeCommandControls} : forProgram sha binding program = .ok controls ↔
      binding.validate sha = .ok () ∧ (binding.programDigest = program.programDigest ∧
        binding.catalogDigest = program.catalogDigest ∧ binding.trustDigest = program.trustDigest) ∧
      ∃ composition, composeLayers program (initialComposition binding) binding.layers = .ok composition ∧
        blockedExtensionsOf program composition.composed = .ok controls.blockedExtensions ∧
        blockedPermissionsOf program composition.composed controls.blockedExtensions = .ok controls.blockedPermissions ∧
        controls.program = program ∧ controls.binding = binding ∧
        controls.activeExtensions = activeExtensionsOf program composition ∧
        controls.explicitlyEnabledPermissions = explicitlyEnabledOf program binding.health composition.composed ∧
        controls.globalBlock = composition.globalBlock := by
  unfold forProgram
  constructor
  · intro h
    repeat' split at h
    any_goals cases h
    rename_i hvalid hdigests _ composition hlayers _ blockedExtensions hextensions _ blockedPermissions hpermissions
    push Not at hdigests
    exact ⟨hvalid, hdigests, composition, hlayers, hextensions, hpermissions, rfl, rfl, rfl, rfl, rfl⟩
  · rintro ⟨hvalid, ⟨hprogram, hcatalog, htrust⟩, composition, hlayers, hextensions, hpermissions, hp, hb, ha, he, hg⟩
    rw [hvalid]
    simp only [hprogram, hcatalog, htrust, ne_eq, not_true, or_self, if_false, hlayers, hextensions, hpermissions]
    obtain ⟨p, b, a, be, bp, ee, g⟩ := controls
    simp only at hp hb ha he hg
    subst hp hb ha he hg
    rfl

end Compile

end Controls
end Guard
