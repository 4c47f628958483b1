import HolGuard.Controls.Lowering
/-!
# Disabling strengthens

Disabling a control, adding a disabled one or a layer of them, or setting a lockdown can only raise decisions.  An
external extension that is off takes no part in evaluation at all, so the calls apart in which one that is switched off
took part.
-/
namespace Guard
namespace Controls

open Contracts (NativeExtensionControlV1 NativeExtensionControlLayerV1 NativeCommandControlBindingV1)

/-! ## Edits -/

/-- One edit that disables something. -/
inductive Disabling (program : NativeCommandProgram) :
    List NativeExtensionControlLayerV1 → List NativeExtensionControlLayerV1 → Prop
  | state (before after : List NativeExtensionControlLayerV1) (layer : NativeExtensionControlLayerV1)
      (left right : List NativeExtensionControlV1) (control : NativeExtensionControlV1)
      (h : control.state = "enabled") :
      Disabling program (before ++ { layer with controls := left ++ control :: right } :: after)
        (before ++ { layer with controls := left ++ { control with state := "disabled" } :: right } :: after)
  | add (before after : List NativeExtensionControlLayerV1) (layer : NativeExtensionControlLayerV1)
      (left right : List NativeExtensionControlV1) (control : NativeExtensionControlV1) (h : control.state = "disabled")
      (hknown : knowsTarget program control = true) :
      Disabling program (before ++ { layer with controls := left ++ right } :: after)
        (before ++ { layer with controls := left ++ control :: right } :: after)
  | lockdown (before after : List NativeExtensionControlLayerV1) (layer : NativeExtensionControlLayerV1) :
      Disabling program (before ++ layer :: after) (before ++ { layer with globalLockdown := true } :: after)
  | layer (before after : List NativeExtensionControlLayerV1) (layer : NativeExtensionControlLayerV1)
      (h : ∀ control ∈ layer.controls, control.state = "disabled" ∧ knowsTarget program control = true) :
      Disabling program (before ++ after) (before ++ layer :: after)

/-- Entries that restrict more: a target keeps its marks, what is new disables, and known targets stay known. -/
structure Tightens (program : NativeCommandProgram) (list list' : List (String × NativeExtensionControlV1)) : Prop where
  kept : ∀ e ∈ list, ∃ e' ∈ list', e'.1 = e.1 ∧ target e' = target e ∧
    (e.2.state = "disabled" → e'.2.state = "disabled")
  added : ∀ e' ∈ list', e'.2.state = "disabled" ∨ e' ∈ list
  known : (∀ e ∈ list, knowsTarget program e.2 = true) → ∀ e' ∈ list', knowsTarget program e'.2 = true

namespace Tightens

variable {program : NativeCommandProgram} {a b c d : List (String × NativeExtensionControlV1)}

theorem refl (a : List (String × NativeExtensionControlV1)) : Tightens program a a where
  kept e he := ⟨e, he, rfl, rfl, fun h => h⟩
  added _ he := .inr he
  known h := h

theorem trans (h : Tightens program a b) (h' : Tightens program b c) : Tightens program a c where
  kept e he := by
    obtain ⟨e', he', hkind, htarget, hstate⟩ := h.kept e he
    obtain ⟨e'', he'', hkind', htarget', hstate'⟩ := h'.kept e' he'
    exact ⟨e'', he'', hkind'.trans hkind, htarget'.trans htarget, fun hs => hstate' (hstate hs)⟩
  added e he := by
    rcases h'.added e he with hs | he'
    · exact .inl hs
    · exact h.added e he'
  known hknown := h'.known (h.known hknown)

theorem append (h : Tightens program a b) (h' : Tightens program c d) : Tightens program (a ++ c) (b ++ d) where
  kept e he := by
    rcases List.mem_append.1 he with he | he
    · obtain ⟨e', he', hkept⟩ := h.kept e he
      exact ⟨e', List.mem_append_left _ he', hkept⟩
    · obtain ⟨e', he', hkept⟩ := h'.kept e he
      exact ⟨e', List.mem_append_right _ he', hkept⟩
  added e he := by
    rcases List.mem_append.1 he with he | he
    · exact (h.added e he).imp_right (List.mem_append_left _)
    · exact (h'.added e he).imp_right (List.mem_append_right _)
  known hknown e he := by
    rcases List.mem_append.1 he with he | he
    · exact h.known (fun e he => hknown e (List.mem_append_left _ he)) e he
    · exact h'.known (fun e he => hknown e (List.mem_append_right _ he)) e he

theorem of_new (h : ∀ e ∈ a, e.2.state = "disabled" ∧ knowsTarget program e.2 = true) : Tightens program [] a where
  kept e he := by cases he
  added e he := .inl (h e he).1
  known _ e he := (h e he).2

theorem of_state (kind : String) (control : NativeExtensionControlV1) :
    Tightens program [(kind, control)] [(kind, { control with state := "disabled" })] where
  kept e he := by
    rw [List.mem_singleton.1 he]
    exact ⟨_, List.mem_singleton_self _, rfl, rfl, fun _ => rfl⟩
  added e he := by
    rw [List.mem_singleton.1 he]
    exact .inl rfl
  known hknown e he := by
    rw [List.mem_singleton.1 he]
    exact hknown (kind, control) (List.mem_singleton_self _)

end Tightens

/-- What edits that disable leave in place. -/
structure Stricter (program : NativeCommandProgram) (layers layers' : List NativeExtensionControlLayerV1) : Prop where
  layered : layers'.isEmpty = true → layers.isEmpty = true
  locked : layers.any NativeExtensionControlLayerV1.globalLockdown = true →
    layers'.any NativeExtensionControlLayerV1.globalLockdown = true
  tightens : Tightens program (entries layers) (entries layers')

namespace Stricter

variable {program : NativeCommandProgram} {layers layers' : List NativeExtensionControlLayerV1}

theorem of_disabling (h : Disabling program layers layers') : Stricter program layers layers' := by
  refine ⟨fun hempty => ?_, fun hlocked => ?_, ?_⟩
  · cases h <;> simp at hempty
  · cases h with
    | lockdown before after layer => simp
    | layer before after layer hcontrols =>
      simp only [List.any_append, List.any_cons, Bool.or_eq_true] at hlocked ⊢
      exact hlocked.imp_right .inr
    | _ => simpa using hlocked
  cases h with
  | state before after layer left right control hstate =>
    simp only [entries, List.flatMap_append, List.flatMap_cons, List.map_append, List.map_cons]
    exact (Tightens.refl _).append (.append (.append (.refl _) (.append (.of_state _ control) (.refl _))) (.refl _))
  | add before after layer left right control hstate hknown =>
    simp only [entries, List.flatMap_append, List.flatMap_cons, List.map_append, List.map_cons]
    refine (Tightens.refl _).append (.append (.append (.refl _) (.append (.of_new (a := [_]) ?_) (.refl _))) (.refl _))
    intro e he
    rw [List.mem_singleton.1 he]
    exact ⟨hstate, hknown⟩
  | lockdown before after layer =>
    simp only [entries, List.flatMap_append, List.flatMap_cons]
    exact .refl _
  | layer before after layer hcontrols =>
    simp only [entries, List.flatMap_append, List.flatMap_cons]
    refine (Tightens.refl _).append (.append (.of_new fun e he => ?_) (.refl _))
    obtain ⟨control, hcontrol, rfl⟩ := List.mem_map.1 he
    exact hcontrols control hcontrol

theorem of_edits (h : Relation.ReflTransGen (Disabling program) layers layers') : Stricter program layers layers' := by
  induction h with
  | refl => exact ⟨fun h => h, fun h => h, .refl _⟩
  | tail _ hedit ih =>
    have hlast := of_disabling hedit
    exact ⟨fun hempty => ih.layered (hlast.layered hempty), fun hlocked => hlast.locked (ih.locked hlocked),
      ih.tightens.trans hlast.tightens⟩

end Stricter

/-! ## Compiled controls -/

/-- Controls that restrict more, over the same program and none but its active extensions. -/
structure Restricts (controls controls' : CompiledNativeCommandControls) : Prop where
  program : controls'.program = controls.program
  active : controls'.activeExtensions ⊆ controls.activeExtensions
  listed : ∀ id ∈ controls.activeExtensions, ∃ x ∈ controls.program.extensions, x.extensionId = id
  extensions : controls.blockedExtensions ⊆ controls'.blockedExtensions
  permissions : controls.blockedPermissions ⊆ controls'.blockedPermissions
  enabled : controls'.explicitlyEnabledPermissions ⊆ controls.explicitlyEnabledPermissions
  global : controls.globalBlock = true → controls'.globalBlock = true

section Compile

variable {program : NativeCommandProgram} {binding : NativeCommandControlBindingV1}
  {layers' : List NativeExtensionControlLayerV1}

theorem blockedAmong_mono {error : String} {blocked blocked' : String → Option Bool}
    (h : ∀ id b, blocked id = some b → ∃ b', blocked' id = some b' ∧ (b = true → b' = true)) :
    ∀ {ids : List String} {s : Finset String}, blockedAmong error blocked ids = .ok s →
      ∃ s', blockedAmong error blocked' ids = .ok s' ∧ s ⊆ s'
  | [], s, hs => by
    cases hs
    exact ⟨∅, rfl, subset_rfl⟩
  | id :: ids, s, hs => by
    rw [blockedAmong] at hs ⊢
    split at hs
    · cases hs
    rename_i found hfound
    split at hs
    · cases hs
    rename_i rest hrest
    cases hs
    obtain ⟨found', hfound', himp⟩ := h id found hfound
    obtain ⟨rest', hrest', hsubset⟩ := blockedAmong_mono h hrest
    rw [hfound', hrest']
    refine ⟨_, rfl, ?_⟩
    cases found with
    | false =>
      refine hsubset.trans ?_
      cases found' with
      | false => exact subset_rfl
      | true => exact Finset.subset_insert _ _
    | true =>
      rw [himp rfl]
      exact Finset.insert_subset_insert _ hsubset

/-- The loops over dependencies see more marks. -/
theorem blockedExtensionsOf_mono {composed composed' : String × String → Option Bool}
    (h : ∀ key, composed key = some true → composed' key = some true) {s : Finset String}
    (hs : blockedExtensionsOf program composed = .ok s) :
    ∃ s', blockedExtensionsOf program composed' = .ok s' ∧ s ⊆ s' := by
  refine blockedAmong_mono (fun id b hb => ?_) hs
  refine Lib.dependsOnMarked_mono _ (fun dependency hmarked => ?_) [id] ∅ false false (fun h => h) b hb
  rw [beq_iff_eq] at hmarked ⊢
  exact h _ hmarked

theorem blockedPermissionsOf_mono {composed composed' : String × String → Option Bool}
    (h : ∀ key, composed key = some true → composed' key = some true) {extensions extensions' s : Finset String}
    (hextensions : extensions ⊆ extensions') (hs : blockedPermissionsOf program composed extensions = .ok s) :
    ∃ s', blockedPermissionsOf program composed' extensions' = .ok s' ∧ s ⊆ s' := by
  refine blockedAmong_mono (fun id b hb => ?_) hs
  refine Lib.dependsOnMarked_mono _ (fun current hmarked => ?_) [id] ∅ false false (fun h => h) b hb
  rw [Bool.or_eq_true, beq_iff_eq] at hmarked ⊢
  refine hmarked.imp (h _) (fun howner => ?_)
  obtain ⟨entry, hentry, hmem⟩ := (Option.any_eq_true _ _).1 howner
  refine (Option.any_eq_true _ _).2 ⟨entry, hentry, ?_⟩
  rw [decide_eq_true_eq] at hmem ⊢
  exact hextensions hmem

section Composed

variable {list list' : List (String × NativeExtensionControlV1)} {start start' c c' : Composition}

theorem composed_mono (hstart : ∀ key, start.composed key = none) (hstart' : ∀ key, start'.composed key = none)
    (hcomposes : Composes start c list) (hcomposes' : Composes start' c' list') (h : Tightens program list list')
    (key : String × String) :
    (c.composed key = some true → c'.composed key = some true) ∧
      (c'.composed key = some false → c.composed key = some false) := by
  constructor
  · intro hmarked
    rcases (hcomposes.disabled key).1 hmarked with hacc | ⟨e, he, htarget, hstate⟩
    · rw [hstart key] at hacc
      cases hacc
    · obtain ⟨e', he', -, htarget', hstate'⟩ := h.kept e he
      exact (hcomposes'.disabled key).2 (.inr ⟨e', he', htarget'.trans htarget, hstate' hstate⟩)
  · intro hmarked
    obtain ⟨⟨e', he', htarget⟩, hnone⟩ := (hcomposes'.enabled (hstart' key)).1 hmarked
    refine (hcomposes.enabled (hstart key)).2 ⟨⟨e', ?_, htarget⟩, fun e he htargete hstate => ?_⟩
    · exact (h.added e' he').resolve_left (hnone e' he' htarget)
    · obtain ⟨e'', he'', -, htarget'', hstate''⟩ := h.kept e he
      exact hnone e'' he'' (htarget''.trans htargete) (hstate'' hstate)

theorem mem_activeExtensionsOf {c : Composition} {id : String} : id ∈ activeExtensionsOf program c ↔
    ∃ x ∈ program.extensions, x.extensionId = id ∧ (x.required = true ∨ x.trustClass ≠ "external" ∨
      id ∈ c.locallyEnabled ∧ c.composed ("extension", id) ≠ some true) := by
  simp only [activeExtensionsOf, List.mem_toFinset, List.mem_map, List.mem_filter, Bool.or_eq_true, Bool.and_eq_true,
    bne_iff_ne, decide_eq_true_eq, and_assoc, or_assoc]
  refine exists_congr fun x => and_congr_right fun _ => ?_
  constructor
  · rintro ⟨hcase, rfl⟩
    exact ⟨rfl, hcase⟩
  · rintro ⟨rfl, hcase⟩
    exact ⟨hcase, rfl⟩

theorem activeExtensionsOf_subset (hstart' : start'.locallyEnabled = ∅)
    (hcomposes : Composes start c list) (hcomposes' : Composes start' c' list')
    (hdisabled : ∀ key, c.composed key = some true → c'.composed key = some true) (h : Tightens program list list') :
    activeExtensionsOf program c' ⊆ activeExtensionsOf program c := by
  intro id hid
  obtain ⟨x, hx, hname, hcase⟩ := mem_activeExtensionsOf.1 hid
  refine mem_activeExtensionsOf.2 ⟨x, hx, hname, hcase.imp_right fun hcase => hcase.imp_right ?_⟩
  rintro ⟨hlocal, hstate⟩
  obtain ⟨e', he', hkind, htarget, hs⟩ := ((hcomposes'.locally _).1 hlocal).resolve_left (by simp [hstart'])
  refine ⟨(hcomposes.locally _).2 (.inr ⟨e', (h.added e' he').resolve_left hs, hkind, htarget, hs⟩), fun hmarked => ?_⟩
  exact hstate (hdisabled _ hmarked)

/-- An extension that is switched off is an external one that a control disables. -/
theorem external_of_switched_off (hstart : start.locallyEnabled = ∅) (hnone' : ∀ key, start'.composed key = none)
    (hcomposes : Composes start c list) (hcomposes' : Composes start' c' list') (h : Tightens program list list')
    {x : ProgramExtension} (hx : x ∈ program.extensions) (hon : x.extensionId ∈ activeExtensionsOf program c)
    (hoff : x.extensionId ∉ activeExtensionsOf program c') :
    x.required = false ∧ x.trustClass = "external" ∧
      ∃ e ∈ list', target e = ("extension", x.extensionId) ∧ e.2.state = "disabled" := by
  have hlapsed : ¬ (x.required = true ∨ x.trustClass ≠ "external" ∨
      x.extensionId ∈ c'.locallyEnabled ∧ c'.composed ("extension", x.extensionId) ≠ some true) :=
    fun hcase => hoff (mem_activeExtensionsOf.2 ⟨x, hx, rfl, hcase⟩)
  push Not at hlapsed
  obtain ⟨hrequired, hexternal, hmarked⟩ := hlapsed
  obtain ⟨y, hy, hname, hcase⟩ := mem_activeExtensionsOf.1 hon
  have hlocal : x.extensionId ∈ c.locallyEnabled := by
    rcases hcase with hcase | hcase | hcase
    · exact absurd (mem_activeExtensionsOf.2 ⟨y, hy, hname, .inl hcase⟩) hoff
    · exact absurd (mem_activeExtensionsOf.2 ⟨y, hy, hname, .inr (.inl hcase)⟩) hoff
    · exact hcase.1
  obtain ⟨e, he, hkind, htarget, -⟩ := ((hcomposes.locally _).1 hlocal).resolve_left (by simp [hstart])
  obtain ⟨e', he', hkind', htarget', -⟩ := h.kept e he
  refine ⟨by simpa using hrequired, hexternal, ?_⟩
  by_cases hstate : e'.2.state = "disabled"
  · exact ⟨e', he', htarget'.trans htarget, hstate⟩
  · have hlocal' := (hcomposes'.locally x.extensionId).2
      (.inr ⟨e', he', hkind'.trans hkind, htarget'.trans htarget, hstate⟩)
    exact ((hcomposes'.disabled _).1 (hmarked hlocal')).resolve_left (by simp [hnone'])

end Composed

def withLayers (binding : NativeCommandControlBindingV1) (layers : List NativeExtensionControlLayerV1)
    (digest : String) : NativeCommandControlBindingV1 := { binding with layers := layers, effectiveDigest := digest }

/-- An extension that is on under the first controls only. -/
def SwitchedOff (controls controls' : CompiledNativeCommandControls) (x : ProgramExtension) : Prop :=
  x ∈ controls.program.extensions ∧ x.extensionId ∈ controls.activeExtensions ∧
    x.extensionId ∉ controls'.activeExtensions

theorem initialDefaults_withLayers {digest : String} (h : layers'.isEmpty = true → binding.layers.isEmpty = true)
    (hdefaults : initialDefaults (withLayers binding layers' digest) = true) : initialDefaults binding = true := by
  simp only [initialDefaults, withLayers, Bool.and_eq_true] at hdefaults ⊢
  obtain ⟨⟨hrevisions, hempty⟩, hauthority⟩ := hdefaults
  exact ⟨⟨hrevisions, h hempty⟩, hauthority⟩

/-- **A binding edited so compiles, to controls that restrict more.** -/
theorem restricts_of_stricter {sha : Lib.Hash} {controls : CompiledNativeCommandControls} {digest : String}
    (hcompiled : forProgram sha binding program = .ok controls) (hstricter : Stricter program binding.layers layers')
    (hvalid : (withLayers binding layers' digest).validate sha = .ok ()) :
    ∃ controls', forProgram sha (withLayers binding layers' digest) program = .ok controls' ∧
      Restricts controls controls' ∧ ∀ x, SwitchedOff controls controls' x → x.required = false ∧
        x.trustClass = "external" ∧ ∃ e ∈ entries layers', target e = ("extension", x.extensionId) ∧
          e.2.state = "disabled" := by
  obtain ⟨-, hdigests, c, hlayers, hextensions, hpermissions, hprogram, hbinding, hactive, hexplicit, hglobal⟩ :=
    forProgram_eq_ok_iff.1 hcompiled
  have htight := hstricter.tightens
  obtain ⟨hcomposes, hblock, hknown⟩ := composeLayers_ok hlayers
  obtain ⟨c', hlayers'⟩ := composeLayers_of_known layers' (initialComposition (withLayers binding layers' digest))
    (htight.known hknown)
  obtain ⟨hcomposes', hblock', -⟩ := composeLayers_ok hlayers'
  have hcomposed := composed_mono (fun _ => rfl) (fun _ => rfl) hcomposes hcomposes' htight
  obtain ⟨extensions', hextensions', hsubset⟩ := blockedExtensionsOf_mono (fun key => (hcomposed key).1) hextensions
  obtain ⟨permissions', hpermissions', hsubset'⟩ := blockedPermissionsOf_mono (fun key => (hcomposed key).1) hsubset
    hpermissions
  refine ⟨⟨program, withLayers binding layers' digest, activeExtensionsOf program c', extensions', permissions',
    explicitlyEnabledOf program binding.health c'.composed, c'.globalBlock⟩,
    forProgram_eq_ok_iff.2 ⟨hvalid, hdigests, c', hlayers', hextensions', hpermissions', rfl, rfl, rfl, rfl, rfl⟩,
    ⟨hprogram.symm, ?_, ?_, hsubset, hsubset', ?_, ?_⟩, ?_⟩
  · rw [hactive]
    exact activeExtensionsOf_subset rfl hcomposes hcomposes' (fun key => (hcomposed key).1) htight
  · intro id hid
    rw [hactive] at hid
    obtain ⟨x, hx, hname, -⟩ := mem_activeExtensionsOf.1 hid
    exact ⟨x, hprogram ▸ hx, hname⟩
  · intro id hid
    rw [hexplicit, mem_explicitlyEnabledOf]
    obtain ⟨hhealth, entry, hentry, heq, hconfigurable, hstate⟩ := mem_explicitlyEnabledOf.1 hid
    exact ⟨hhealth, entry, hentry, heq, hconfigurable, (hcomposed _).2 hstate⟩
  · intro h
    rw [hglobal, hblock, Bool.or_eq_true] at h
    simp only
    rw [hblock', Bool.or_eq_true]
    refine h.imp (fun hinitial => ?_) hstricter.locked
    -- the first layer ends the baseline of a device that was never enrolled, and blocks
    simp only [initialComposition, Bool.and_eq_true, Bool.not_eq_true', Bool.eq_false_iff] at hinitial ⊢
    exact ⟨hinitial.1, fun hdefaults => hinitial.2 (initialDefaults_withLayers hstricter.layered hdefaults)⟩
  · rintro x ⟨hx, hon, hoff⟩
    rw [hprogram] at hx
    rw [hactive] at hon
    exact external_of_switched_off rfl (fun _ => rfl) hcomposes hcomposes' htight hx hon hoff

end Compile

/-! ## Decisions -/

section Apply

variable {controls controls' : CompiledNativeCommandControls}

theorem observationFloor_mono (h : Restricts controls controls') {acc acc' : String × String}
    (hacc : rank acc.1 ≤ rank acc'.1) (o : NativeCommandObservationV1) :
    rank (observationFloor controls acc o).1 ≤ rank (observationFloor controls' acc' o).1 := by
  have hbase : baseRank controls acc o ≤ baseRank controls' acc' o := by
    unfold baseRank
    split_ifs with hpass _ hpass'
    · exact hacc
    · exact rank_le_block _
    · exact absurd ⟨hpass'.1, fun hb => hpass'.2 (h.extensions hb)⟩ hpass
    · exact le_rfl
  have htop : baseRank controls acc o ≤ rank "block" := by
    unfold baseRank
    split <;> exact rank_le_block _
  rw [rank_observationFloor_eq, rank_observationFloor_eq, h.program]
  split
  · exact hbase
  cases controls.program.rule? o.ruleId with
  | none => exact le_rfl
  | some rule =>
    simp only
    by_cases hblocked : rule.permissionId ∈ controls'.blockedPermissions
    · rw [if_pos hblocked]
      split_ifs
      · exact le_rfl
      · exact htop
      · exact max_le htop (rank_le_block _)
    · rw [if_neg hblocked, if_neg (fun hb => hblocked (h.permissions hb))]
      by_cases henabled : rule.permissionId ∈ controls'.explicitlyEnabledPermissions
      · rw [if_pos henabled, if_pos (h.enabled henabled)]
        exact hbase
      · rw [if_neg henabled]
        split
        · exact hbase.trans (le_max_left _ _)
        · exact max_le_max hbase le_rfl

theorem permissionFloor_mono (h : Restricts controls controls') {acc acc' : String × String}
    (hacc : rank acc.1 ≤ rank acc'.1) (o : NativeCommandPermissionObservationV1) :
    rank (permissionFloor controls acc o).1 ≤ rank (permissionFloor controls' acc' o).1 := by
  unfold permissionFloor
  simp only
  by_cases hblocked : o.extensionId ∈ controls'.blockedExtensions ∨ o.permissionId ∈ controls'.blockedPermissions
  · rw [if_pos hblocked]
    exact rank_le_block _
  · rw [if_neg hblocked, if_neg (fun hb => hblocked (hb.imp (@h.extensions _) (@h.permissions _)))]
    split
    · exact hacc
    · exact le_rfl

theorem foldl_floor_mono {α : Type} {step step' : String × String → α → String × String}
    (hstep : ∀ acc acc' a, rank acc.1 ≤ rank acc'.1 → rank (step acc a).1 ≤ rank (step' acc' a).1) :
    ∀ (l : List α) {acc acc' : String × String}, rank acc.1 ≤ rank acc'.1 →
      rank (l.foldl step acc).1 ≤ rank (l.foldl step' acc').1
  | [], _, _, hacc => hacc
  | a :: l, _, _, hacc => foldl_floor_mono hstep l (hstep _ _ a hacc)

theorem batchFloor_mono (h : Restricts controls controls') (batch : NativeCommandObservationBatchV1)
    (delegatedFloor : String) :
    rank (batchFloor controls batch delegatedFloor).1 ≤ rank (batchFloor controls' batch delegatedFloor).1 := by
  refine foldl_floor_mono (fun _ _ o hacc => permissionFloor_mono h hacc o) _
    (foldl_floor_mono (fun _ _ o hacc => observationFloor_mono h hacc o) _ ?_)
  cases hglobal : controls.globalBlock with
  | true => simp [startFloor, hglobal, h.global hglobal]
  | false =>
    cases hglobal' : controls'.globalBlock with
    | true =>
      simp only [startFloor, hglobal', if_true]
      exact rank_le_block _
    | false => simp [startFloor, hglobal, hglobal']

theorem rank_finalFloor (controls : CompiledNativeCommandControls) (batch : NativeCommandObservationBatchV1)
    (acc : String × String) : rank (finalFloor controls batch acc).1 =
      if batch.evaluationError.isSome = true ∧ controls.globalBlock = false then rank "block" else rank acc.1 := by
  have hle := rank_le_block acc.1
  unfold finalFloor
  by_cases herror : batch.evaluationError.isSome = true ∧ controls.globalBlock = false
  · rw [if_pos herror]
    by_cases hlt : rank acc.1 < rank "block"
    · rw [if_pos ⟨herror.1, herror.2, hlt⟩]
    · rw [if_neg (fun h => hlt h.2.2)]
      exact le_antisymm hle (not_lt.1 hlt)
  · rw [if_neg herror, if_neg (fun h => herror ⟨h.1, h.2.1⟩)]

theorem rank_batchFloor_of_globalBlock {batch : NativeCommandObservationBatchV1} {delegatedFloor : String}
    (h : controls.globalBlock = true) : rank (batchFloor controls batch delegatedFloor).1 = rank "block" := by
  have hraise : ∀ {α : Type} {step : String × String → α → String × String},
      (∀ acc a, rank acc.1 ≤ rank (step acc a).1) → ∀ (l : List α) (acc : String × String),
        rank acc.1 ≤ rank (l.foldl step acc).1 := by
    intro α step hstep l
    induction l with
    | nil => exact fun _ => le_rfl
    | cons a l ih => exact fun acc => (hstep acc a).trans (ih (step acc a))
  refine le_antisymm (rank_le_block _) ?_
  have hstart : rank (startFloor controls batch delegatedFloor).1 = rank "block" := by simp [startFloor, h]
  rw [← hstart]
  exact (hraise rank_observationFloor _ _).trans (hraise rank_permissionFloor _ _)

variable {evaluator : Evaluator} {command : Option CanonicalCommandV1} {tool : Option String} {packages : List String}

/-- An extension owns no package segment of the command and no tool of the call. -/
structure Unowned (command : Option CanonicalCommandV1) (tool : Option String) (packages : List String)
    (x : ProgramExtension) : Prop where
  segments : x.delegatedProtection = some "package-firewall" → ∀ model, command = some model →
    packageEvidence x model = []
  tools : ∀ mcp name, x.mcp = some mcp → tool = some name → selectedTool x mcp name packages = none

/-- What is switched off takes no part in a call: without it the matchers observe the same, and it owns nothing. -/
structure Uninvolved (controls controls' : CompiledNativeCommandControls) (evaluator : Evaluator)
    (command : Option CanonicalCommandV1) (tool : Option String) (packages : List String) : Prop where
  observed : (∃ x, SwitchedOff controls controls' x) → ∀ model, command = some model →
    evaluator.observe model controls'.activeExtensions = evaluator.observe model controls.activeExtensions
  unowned : ∀ x, SwitchedOff controls controls' x → Unowned command tool packages x

/-- The loop passes over an extension that owns nothing, active or not. -/
theorem delegatedLoop_unowned (active : Finset String) (expired : String → Bool) {x : ProgramExtension}
    (h : Unowned command tool packages x) (extensions : List ProgramExtension) (floor : String)
    (batch : NativeCommandObservationBatchV1) :
    delegatedLoop active expired command tool packages (x :: extensions) floor batch =
      if expired x.extensionId then .error "native_command_deadline_exceeded"
      else delegatedLoop active expired command tool packages extensions floor batch := by
  have hpackages : observePackages command x batch = .ok none ∨ observePackages command x batch = .ok (some batch) := by
    unfold observePackages
    by_cases hfirewall : x.delegatedProtection = some "package-firewall"
    · rw [if_pos hfirewall]
      cases command with
      | none => exact .inl rfl
      | some model => exact .inl (by simp [h.segments hfirewall model rfl])
    · exact .inr (if_neg hfirewall)
  have htool : observeTool tool packages x floor batch = .ok (floor, batch) := by
    unfold observeTool
    split
    · rename_i mcp name hmcp
      rw [h.tools mcp name hmcp rfl]
    · rfl
  rw [delegatedLoop]
  split
  · rfl
  split
  · rfl
  rcases hpackages with hpackages | hpackages
  · rw [hpackages]
  · rw [hpackages]
    simp only [htool]

theorem delegatedLoop_congr {active active' : Finset String} (expired : String → Bool) :
    ∀ (extensions : List ProgramExtension) (floor : String) (batch : NativeCommandObservationBatchV1),
      (∀ x ∈ extensions, (x.extensionId ∈ active' ↔ x.extensionId ∈ active) ∨ Unowned command tool packages x) →
        delegatedLoop active' expired command tool packages extensions floor batch =
          delegatedLoop active expired command tool packages extensions floor batch
  | [], _, _, _ => rfl
  | x :: extensions, floor, batch, h => by
    have ih := fun floor batch => delegatedLoop_congr expired extensions floor batch
      (fun y hy => h y (List.mem_cons_of_mem _ hy))
    rcases h x List.mem_cons_self with hsame | hunowned
    · simp only [delegatedLoop, hsame, ih]
    · rw [delegatedLoop_unowned active' expired hunowned, delegatedLoop_unowned active expired hunowned, ih]

theorem observedBatch_congr (h : Restricts controls controls')
    (huninvolved : Uninvolved controls controls' evaluator command tool packages) :
    observedBatch controls' evaluator command tool packages =
      observedBatch controls evaluator command tool packages := by
  have hobserved : ∀ model, command = some model →
      evaluator.observe model controls'.activeExtensions = evaluator.observe model controls.activeExtensions := by
    by_cases hoff : ∃ x, SwitchedOff controls controls' x
    · exact huninvolved.observed hoff
    · intro model _
      rw [h.active.antisymm fun id hid => ?_]
      by_contra hnot
      obtain ⟨x, hx, rfl⟩ := h.listed id hid
      exact hoff ⟨x, hx, hid, hnot⟩
  have hloop : ∀ floor batch,
      delegatedLoop controls'.activeExtensions evaluator.expired command tool packages
          controls.program.extensions floor batch =
        delegatedLoop controls.activeExtensions evaluator.expired command tool packages
          controls.program.extensions floor batch := by
    intro floor batch
    refine delegatedLoop_congr _ _ floor batch fun x hx => ?_
    by_cases hoff : SwitchedOff controls controls' x
    · exact .inr (huninvolved.unowned x hoff)
    · exact .inl ⟨fun hid => h.active hid, fun hid => by_contra fun hnot => hoff ⟨hx, hid, hnot⟩⟩
  cases command with
  | none => simp only [observedBatch, delegatedObservations, h.program, hloop]
  | some model => simp only [observedBatch, delegatedObservations, h.program, hloop, hobserved model rfl]

theorem computedFloor_mono (h : Restricts controls controls')
    (huninvolved : Uninvolved controls controls' evaluator command tool packages) :
    rank (computedFloor controls evaluator command tool packages) ≤
      rank (computedFloor controls' evaluator command tool packages) := by
  simp only [computedFloor, observedBatch_congr h huninvolved]
  generalize observedBatch controls evaluator command tool packages = observed
  split
  · exact le_rfl
  rw [rank_finalFloor, rank_finalFloor]
  by_cases herror : observed.1.evaluationError.isSome = true ∧ controls'.globalBlock = false
  · rw [if_pos herror]
    split
    · exact le_rfl
    · exact rank_le_block _
  · rw [if_neg herror]
    split
    · -- an error that only the weaker controls count: the stronger ones block globally
      rename_i herror'
      have hglobal : controls'.globalBlock = true := by
        cases hg : controls'.globalBlock with
        | true => rfl
        | false => exact absurd ⟨herror'.1, hg⟩ herror
      rw [rank_batchFloor_of_globalBlock hglobal]
    · exact batchFloor_mono h _ _

theorem explicitPermissionsCoverCommand_mono (h : Restricts controls controls') {benign : List Nat}
    {command : CanonicalCommandV1} {observations : List NativeCommandObservationV1}
    (hcovers : explicitPermissionsCoverCommand controls' benign command observations = true) :
    explicitPermissionsCoverCommand controls benign command observations = true := by
  have henabled : ∀ o, explicitlyEnabled controls' o = true → explicitlyEnabled controls o = true := by
    intro o ho
    obtain ⟨rule, hrule, hmem⟩ := (Option.any_eq_true _ _).1 ho
    rw [h.program] at hrule
    refine (Option.any_eq_true _ _).2 ⟨rule, hrule, ?_⟩
    rw [decide_eq_true_eq] at hmem ⊢
    exact h.enabled hmem
  have hconsented : ∀ {l : List NativeCommandObservationV1} {index : Nat}, Consented controls' benign l index →
      Consented controls benign l index := by
    rintro l index (hbenign | ⟨o, ho, hyes, hindex⟩)
    · exact .inl hbenign
    · exact .inr ⟨o, ho, henabled o hyes, hindex⟩
  obtain ⟨hplain, hidentified, hsegments, hunconsented⟩ := explicitPermissionsCoverCommand_iff.1 hcovers
  rw [Identified, h.program] at hidentified
  refine explicitPermissionsCoverCommand_iff.2
    ⟨hplain, hidentified, fun index hindex => hconsented (hsegments index hindex),
    fun before o after hsplit hno index hindex => hconsented (hunconsented before o after hsplit ?_ index hindex)⟩
  cases hyes : explicitlyEnabled controls' o with
  | false => rfl
  | true =>
    rw [henabled o hyes] at hno
    cases hno

theorem settlesReview_mono (h : Restricts controls controls') {result : PreToolResultV1}
    {batch : NativeCommandObservationBatchV1} {delegatedFloor : String}
    (hsettles : settlesReview controls' evaluator command result batch (batchFloor controls' batch delegatedFloor).1 =
      true) :
    settlesReview controls evaluator command result batch (batchFloor controls batch delegatedFloor).1 = true := by
  simp only [settlesReview, Bool.and_eq_true, beq_iff_eq] at hsettles ⊢
  obtain ⟨⟨⟨hresult, hfloor⟩, hcertain⟩, hcovers⟩ := hsettles
  refine ⟨⟨⟨hresult, ?_⟩, hcertain⟩, ?_⟩
  · have hle := batchFloor_mono h batch delegatedFloor
    rw [hfloor] at hle
    exact rank_eq_zero.1 (Nat.le_zero.1 hle)
  · obtain ⟨model, hmodel, hcover⟩ := (Option.any_eq_true _ _).1 hcovers
    exact (Option.any_eq_true _ _).2 ⟨model, hmodel, explicitPermissionsCoverCommand_mono h hcover⟩

/-- **Controls that restrict more decide no lower.** -/
theorem applyWithTool_mono (h : Restricts controls controls')
    (huninvolved : Uninvolved controls controls' evaluator command tool packages) (result : PreToolResultV1) :
    rank (applyWithTool controls evaluator command result tool packages).minimumAction ≤
      rank (applyWithTool controls' evaluator command result tool packages).minimumAction := by
  have hfloor := computedFloor_mono h huninvolved
  rw [rank_applyWithTool, rank_applyWithTool, observedBatch_congr h huninvolved]
  split
  · exact Nat.zero_le _
  rename_i hunsettled
  rw [if_neg (fun hsettled => hunsettled ⟨hsettled.1, settlesReview_mono h hsettled.2⟩)]
  exact max_le_max le_rfl hfloor

/-- **Disabling is never weakening**: after any number of edits that disable a control, add a disabled one or a layer of
them, or set a lockdown, the binding compiles.  Only external extensions that a control disables are switched off, and
no call in which they take no part is decided lower; where none is switched off, no call is. -/
theorem disabling_never_weakens (sha : Lib.Hash) (program : NativeCommandProgram)
    (binding : NativeCommandControlBindingV1) (controls : CompiledNativeCommandControls)
    (hcompiled : forProgram sha binding program = .ok controls) (layers' : List NativeExtensionControlLayerV1)
    (hedits : Relation.ReflTransGen (Disabling program) binding.layers layers') (digest : String)
    (hvalid : (withLayers binding layers' digest).validate sha = .ok ()) :
    ∃ controls', forProgram sha (withLayers binding layers' digest) program = .ok controls' ∧
      (∀ x, SwitchedOff controls controls' x → x.required = false ∧ x.trustClass = "external" ∧
        ∃ e ∈ entries layers', target e = ("extension", x.extensionId) ∧ e.2.state = "disabled") ∧
      ∀ evaluator command result tool packages, Uninvolved controls controls' evaluator command tool packages →
        rank (applyWithTool controls evaluator command result tool packages).minimumAction ≤
          rank (applyWithTool controls' evaluator command result tool packages).minimumAction := by
  obtain ⟨controls', hcompiled', hrestricts, hexternal⟩ :=
    restricts_of_stricter hcompiled (Stricter.of_edits hedits) hvalid
  exact ⟨controls', hcompiled', hexternal, fun _ _ result _ _ huninvolved =>
    applyWithTool_mono hrestricts huninvolved result⟩

end Apply

/-! ## Samples -/

def unrestricted : NativeCommandControlBindingV1 := withLayers pushDisabled [] zeros

def unrestrictedControls : CompiledNativeCommandControls :=
  { pushControls with binding := unrestricted, blockedPermissions := ∅ }

theorem forProgram_unrestricted : forProgram Lib.Hash.zero unrestricted sampleProgram = .ok unrestrictedControls := by
  refine forProgram_eq_ok_iff.2 ⟨rfl, ⟨rfl, rfl, rfl⟩, initialComposition unrestricted, rfl, ?_, ?_,
    rfl, rfl, by decide, by decide, by decide⟩
  all_goals exact blockedAmong_alone (by decide)

/-- The packaged extension for the filesystem server, which is external. -/
def filesystemProgram : NativeCommandProgram where
  programDigest := zeros
  catalogDigest := zeros
  trustDigest := zeros
  extensions := [⟨"command.mcp-filesystem", false, [], ["npx"], "external", none,
    some ⟨⟨"package-launcher", some "@modelcontextprotocol/server-filesystem", []⟩,
      [⟨"read_file", "inherit"⟩, ⟨"write_file", "block"⟩, ⟨"other", "inherit"⟩]⟩,
    [⟨"command.mcp-filesystem.permission.mcp-filesystem-tool", false, [], []⟩]⟩]
  rules := []
  extensionsNodup := by decide
  permissionsNodup := by decide
  rulesNodup := by decide
  rulesOwned := by decide

/-- The local administrator's control of the filesystem server. -/
def filesystemBinding (state : String) : NativeCommandControlBindingV1 :=
  withLayers pushDisabled
    [⟨"1.0.0", "local-admin", zeros, false, [⟨"extension", "command.mcp-filesystem", state⟩]⟩] zeros

def filesystemControls (state : String) (active blocked permissions : Finset String) :
    CompiledNativeCommandControls where
  program := filesystemProgram
  binding := filesystemBinding state
  activeExtensions := active
  blockedExtensions := blocked
  blockedPermissions := permissions
  explicitlyEnabledPermissions := ∅
  globalBlock := false

theorem forProgram_filesystem_enabled : forProgram Lib.Hash.zero (filesystemBinding "enabled") filesystemProgram =
    .ok (filesystemControls "enabled" {"command.mcp-filesystem"} ∅ ∅) := by
  refine forProgram_eq_ok_iff.2 ⟨rfl, ⟨rfl, rfl, rfl⟩, composeControl "local-admin"
    (initialComposition (filesystemBinding "enabled")) ⟨"extension", "command.mcp-filesystem", "enabled"⟩, rfl,
    ?_, ?_, rfl,
    rfl, by decide, by decide, by decide⟩
  all_goals exact (blockedAmong_alone (by decide)).trans (congrArg _ (by decide))

theorem forProgram_filesystem_disabled : forProgram Lib.Hash.zero (filesystemBinding "disabled") filesystemProgram =
    .ok (filesystemControls "disabled" ∅ {"command.mcp-filesystem"}
      {"command.mcp-filesystem.permission.mcp-filesystem-tool"}) := by
  refine forProgram_eq_ok_iff.2 ⟨rfl, ⟨rfl, rfl, rfl⟩, composeControl "local-admin"
    (initialComposition (filesystemBinding "disabled")) ⟨"extension", "command.mcp-filesystem", "disabled"⟩,
    rfl, ?_, ?_,
    rfl, rfl, by decide, by decide, by decide⟩
  all_goals exact (blockedAmong_alone (by decide)).trans (congrArg _ (by decide))

/-- A first layer that disables a permission weakens no call, and switching the filesystem server off weakens no call of
another server. -/
theorem disabling_push_never_weakens :
    (∃ controls', forProgram Lib.Hash.zero (withLayers unrestricted pushDisabled.layers zeros) sampleProgram =
        .ok controls' ∧ ∀ evaluator command result tool packages,
      rank (applyWithTool unrestrictedControls evaluator command result tool packages).minimumAction ≤
        rank (applyWithTool controls' evaluator command result tool packages).minimumAction) ∧
    ∃ controls', forProgram Lib.Hash.zero
        (withLayers (filesystemBinding "enabled") (filesystemBinding "disabled").layers zeros) filesystemProgram =
        .ok controls' ∧ ∀ command result,
      rank (applyWithTool (filesystemControls "enabled" {"command.mcp-filesystem"} ∅ ∅) benignEvaluator command result
          (some "mcp__search__write_file") []).minimumAction ≤
        rank (applyWithTool controls' benignEvaluator command result
          (some "mcp__search__write_file") []).minimumAction := by
  constructor
  · have hedit : Disabling sampleProgram unrestricted.layers pushDisabled.layers := by
      refine .layer [] []
        ⟨"1.0.0", "local-admin", zeros, false, [⟨"permission", "command.git.permission.push", "disabled"⟩]⟩
        fun control hcontrol => ?_
      rw [List.mem_singleton.1 hcontrol]
      exact ⟨rfl, by decide⟩
    obtain ⟨controls', hcompiled, hexternal, hmono⟩ := disabling_never_weakens Lib.Hash.zero sampleProgram unrestricted
      unrestrictedControls forProgram_unrestricted pushDisabled.layers (.single hedit) zeros rfl
    -- the program has no external extension
    have hnone : ∀ x, ¬ SwitchedOff unrestrictedControls controls' x := by
      intro x hx
      have hclass := (hexternal x hx).2.1
      rw [List.mem_singleton.1 hx.1] at hclass
      exact absurd hclass (by decide)
    exact ⟨controls', hcompiled, fun _ _ result _ _ => hmono _ _ result _ _
      ⟨fun ⟨x, hx⟩ => absurd hx (hnone x), fun x hx => absurd hx (hnone x)⟩⟩
  · obtain ⟨controls', hcompiled, -, hmono⟩ := disabling_never_weakens Lib.Hash.zero filesystemProgram
      (filesystemBinding "enabled") _ forProgram_filesystem_enabled (filesystemBinding "disabled").layers
      (.single (.state [] [] ⟨"1.0.0", "local-admin", zeros, false, []⟩ [] []
        ⟨"extension", "command.mcp-filesystem", "enabled"⟩ rfl)) zeros rfl
    refine ⟨controls', hcompiled, fun command result => hmono _ command result _ _ ⟨fun _ _ _ => rfl, fun x hx => ?_⟩⟩
    rw [List.mem_singleton.1 hx.1]
    refine ⟨fun hfirewall => (by cases hfirewall), fun mcp name hmcp hname => ?_⟩
    cases hmcp
    cases hname
    decide +kernel

def allowedCall : PreToolResultV1 := ⟨⟨true, false⟩, "allow", "allow", "allow", "", "", true, none⟩

/-- **Switching an external extension off weakens**: a write through the filesystem server is blocked while the
extension is on and allowed once its control is disabled. -/
theorem disabled_external_extension_weakens :
    forProgram Lib.Hash.zero (filesystemBinding "enabled") filesystemProgram =
      .ok (filesystemControls "enabled" {"command.mcp-filesystem"} ∅ ∅) ∧
    Disabling filesystemProgram (filesystemBinding "enabled").layers (filesystemBinding "disabled").layers ∧
    forProgram Lib.Hash.zero (filesystemBinding "disabled") filesystemProgram =
      .ok (filesystemControls "disabled" ∅ {"command.mcp-filesystem"}
        {"command.mcp-filesystem.permission.mcp-filesystem-tool"}) ∧
    rank (applyWithTool (filesystemControls "disabled" ∅ {"command.mcp-filesystem"}
        {"command.mcp-filesystem.permission.mcp-filesystem-tool"}) benignEvaluator none allowedCall
        (some "mcp__filesystem__write_file") []).minimumAction <
      rank (applyWithTool (filesystemControls "enabled" {"command.mcp-filesystem"} ∅ ∅) benignEvaluator none allowedCall
        (some "mcp__filesystem__write_file") []).minimumAction :=
  ⟨forProgram_filesystem_enabled, .state [] [] ⟨"1.0.0", "local-admin", zeros, false, []⟩ [] []
    ⟨"extension", "command.mcp-filesystem", "enabled"⟩ rfl, forProgram_filesystem_disabled, by decide +kernel⟩

end Controls
end Guard
