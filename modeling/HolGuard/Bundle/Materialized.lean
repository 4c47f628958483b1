import HolGuard.Bundle.Decisions
import HolGuard.Lib.Checks
/-!
# Materialised decisions never broaden their rule

`Fits` states what a decision must satisfy of its rule in the rule's own terms: the values under its keys, not the
functions that read them.  The lemmas before it say what each check of the materialisation guarantees of those values;
`ruleDecisions_fit` puts them together for the exact and the family decisions.
-/
namespace Guard.PolicyBundle

open Lib

/-! ## Mappings and texts -/

theorem mem_of_has {d : PyDict} {key : String} (h : PyDict.has d key = true) : (key, PyDict.get d key) ∈ d := by
  obtain ⟨v, hv⟩ := Option.isSome_iff_exists.1 h
  obtain ⟨before, after, hsplit, -⟩ := List.lookup_eq_some_iff.1 hv
  have hget : PyDict.get d key = v := by
    unfold PyDict.get
    rw [hv]
    rfl
  rw [hget, hsplit]
  exact List.mem_append_right before List.mem_cons_self

theorem has_of_get {d : PyDict} {key : String} (h : PyDict.get d key ≠ .none) : PyDict.has d key = true := by
  unfold PyDict.has PyDict.get at *
  cases hl : d.lookup key with
  | none =>
    rw [hl] at h
    exact absurd rfl h
  | some v => rfl

theorem nonEmptyString_eq {v : PyObject} {s : String} (h : nonEmptyString v = some s) : v = .str s ∧ NonBlank s := by
  cases v with
  | str t =>
    change (if (pythonStrip t).isEmpty then none else some t) = some s at h
    split at h
    · cases h
    · rename_i hblank
      obtain rfl := Option.some.inj h
      exact ⟨rfl, Bool.eq_false_iff.2 hblank⟩
  | _ => cases h

theorem hasConstraint_of_nonEmptyString {v : PyObject} {s : String} (h : nonEmptyString v = some s) :
    hasConstraint v = true := by
  obtain ⟨rfl, hblank⟩ := nonEmptyString_eq h
  show (!(pythonStrip s).isEmpty) = true
  rw [hblank]
  rfl

theorem texts_ne_nil {v : PyObject} (h : v.texts ≠ []) : ∃ item items, v = .list (item :: items) := by
  cases v with
  | list items =>
    cases items with
    | nil => exact absurd rfl h
    | cons item items => exact ⟨item, items, rfl⟩
  | _ => exact absurd rfl h

theorem distinct_texts {vs : List PyObject} {texts : List String}
    (h : (vs.mapM nonEmptyString).map List.eraseDups = some texts) :
    (∀ v ∈ vs, ∃ s ∈ texts, v = .str s) ∧ ∀ s ∈ texts, .str s ∈ vs ∧ NonBlank s := by
  obtain ⟨all, hall, rfl⟩ := Option.map_eq_some_iff.1 h
  obtain ⟨hfrom, hto⟩ := mapM_eq_some hall
  refine ⟨fun v hv => ?_, fun s hs => ?_⟩
  · obtain ⟨s, hs, hvs⟩ := hfrom v hv
    exact ⟨s, List.mem_eraseDups.2 hs, (nonEmptyString_eq hvs).1⟩
  · obtain ⟨v, hv, hvs⟩ := hto s (List.mem_eraseDups.1 hs)
    obtain ⟨rfl, hblank⟩ := nonEmptyString_eq hvs
    exact ⟨hv, hblank⟩

/-! ## Declared identities -/

def commandSources (rule : PyDict) : List PyDict :=
  [PyDict.get rule "matcher", PyDict.get rule "scope"].filterMap PyObject.dict?

def commandValues (rule : PyDict) : List PyObject :=
  ((commandSources rule).filter (fun source => PyDict.has source "command")).map (fun source =>
    PyDict.get source "command")

def artifactValues (rule : PyDict) : List PyObject :=
  ((PyDict.get rule "matcher").dict?.toList ++ [rule]).flatMap (fun source =>
    (["artifactId", "artifact_id"].filter (PyDict.has source)).map (PyDict.get source))

/-- There is a value, and every value is the text. -/
def Only (values : List PyObject) (text : String) : Prop := .str text ∈ values ∧ ∀ v ∈ values, v = .str text

theorem declaredCommands_eq (rule : PyDict) :
    policyBundleRuleDeclaredCommands rule = ((commandValues rule).mapM nonEmptyString).map List.eraseDups := by
  unfold policyBundleRuleDeclaredCommands commandValues commandSources
  rw [List.mapM_map]
  rfl

theorem only_of_singleton {values : List PyObject} {text : String}
    (h : (values.mapM nonEmptyString).map List.eraseDups = some [text]) : Only values text := by
  obtain ⟨hfrom, hto⟩ := distinct_texts h
  refine ⟨(hto text (List.mem_singleton.2 rfl)).1, fun v hv => ?_⟩
  obtain ⟨s, hs, rfl⟩ := hfrom v hv
  rw [List.mem_singleton.1 hs]

theorem nil_of_none {values : List PyObject} (h : (values.mapM nonEmptyString).map List.eraseDups = some []) :
    values = [] := by
  obtain ⟨hfrom, -⟩ := distinct_texts h
  refine List.eq_nil_iff_forall_not_mem.2 (fun v hv => ?_)
  obtain ⟨s, hs, -⟩ := hfrom v hv
  exact absurd hs List.not_mem_nil

variable {rule : PyDict}

theorem exactCommand_mem {command : String} (h : policyBundleRuleExactCommand rule = some command) :
    .str command ∈ commandValues rule := by
  have hone : ∀ v : PyObject, v.dict?.bind (fun d => nonEmptyString (PyDict.get d "command")) = some command →
      v ∈ [PyDict.get rule "matcher", PyDict.get rule "scope"] → .str command ∈ commandValues rule := by
    intro v hv hmem
    obtain ⟨d, hd, hc⟩ := Option.bind_eq_some_iff.1 hv
    obtain ⟨hget, -⟩ := nonEmptyString_eq hc
    refine List.mem_map.2 ⟨d, List.mem_filter.2 ⟨List.mem_filterMap.2 ⟨v, hmem, hd⟩, ?_⟩, hget⟩
    exact has_of_get (by rw [hget]; exact fun h => nomatch h)
  unfold policyBundleRuleExactCommand at h
  simp only at h
  cases hm : (PyDict.get rule "matcher").dict?.bind (fun d => nonEmptyString (PyDict.get d "command")) with
  | some c =>
    rw [hm] at h
    exact hone _ (hm.trans h) List.mem_cons_self
  | none =>
    rw [hm] at h
    exact hone _ h (List.mem_cons_of_mem _ List.mem_cons_self)

theorem exactCommand_ne_none {command : String} (h : .str command ∈ commandValues rule)
    (hblank : NonBlank command) : policyBundleRuleExactCommand rule ≠ none := by
  obtain ⟨d, hd, hget⟩ := List.mem_map.1 h
  obtain ⟨hd, -⟩ := List.mem_filter.1 hd
  obtain ⟨v, hv, hvd⟩ := List.mem_filterMap.1 hd
  have hsome : v.dict?.bind (fun d => nonEmptyString (PyDict.get d "command")) = some command := by
    rw [hvd, Option.bind_some, hget]
    exact Bundle.nonEmptyString_of_nonBlank hblank
  unfold policyBundleRuleExactCommand
  simp only
  rcases List.mem_cons.1 hv with rfl | hv
  · rw [hsome]
    exact fun hnone => nomatch hnone
  · rw [List.mem_singleton.1 hv] at hsome
    cases (PyDict.get rule "matcher").dict?.bind (fun d => nonEmptyString (PyDict.get d "command")) with
    | some c => exact fun hnone => nomatch hnone
    | none =>
      rw [hsome]
      exact fun hnone => nomatch hnone

/-- The declared identity of an exact rule: its only command, or its only artifact id when it has no command. -/
theorem exactArtifactIds_spec {e : Env} (h : exactRuleIsExactlyRepresentable rule = true)
    {artifactId : String} (hid : artifactId ∈ policyBundleRuleExactArtifactIds e rule) :
    (∃ command, Only (commandValues rule) command ∧ artifactId = exactShellCommandArtifactId e command) ∨
      commandValues rule = [] ∧ Only (artifactValues rule) artifactId := by
  unfold exactRuleIsExactlyRepresentable at h
  split at h
  · rename_i commands artifactIds hcommands hids
    simp only [Bool.and_eq_true, Bool.or_eq_true, decide_eq_true_eq] at h
    obtain ⟨⟨⟨⟨hlen, hone⟩, -⟩, -⟩, -⟩ := h
    rw [declaredCommands_eq] at hcommands
    unfold policyBundleRuleExactArtifactIds at hid
    cases hc : policyBundleRuleExactCommand rule with
    | some command =>
      rw [hc] at hid
      refine Or.inl ⟨command, ?_, List.mem_singleton.1 hid⟩
      obtain ⟨s, hs, heq⟩ := (distinct_texts hcommands).1 _ (exactCommand_mem hc)
      obtain rfl := PyObject.str.inj heq
      obtain ⟨t, rfl⟩ := List.length_eq_one_iff.1 (le_antisymm hlen (List.length_pos_of_mem hs))
      rw [List.mem_singleton.1 hs]
      exact only_of_singleton hcommands
    | none =>
      rw [hc, hids] at hid
      have hnil : commands = [] := by
        refine List.eq_nil_iff_forall_not_mem.2 (fun s hs => ?_)
        obtain ⟨hmem, hblank⟩ := (distinct_texts hcommands).2 s hs
        exact exactCommand_ne_none hmem hblank hc
      subst hnil
      refine Or.inr ⟨nil_of_none hcommands, ?_⟩
      have hlen1 : artifactIds.length = 1 := by simpa using hone
      obtain ⟨a, rfl⟩ := List.length_eq_one_iff.1 hlen1
      have hida : artifactId = a := List.mem_singleton.1 hid
      rw [hida]
      exact only_of_singleton hids
  · cases h

/-! ## What a decision must satisfy -/

def selector (scope : PyDict) (key : String) : List String := (PyDict.get scope key).texts

/-- The families a rule allows: the listed ones, and the one of its artifact type. -/
structure FamilyAllowed (rule : PyDict) (family : String) : Prop where
  listed : PyDict.has rule "matcherFamilies" = true → family ∈ selector rule "matcherFamilies"
  typed : ∀ t, nonEmptyString (PyDict.get rule "artifactType") = some t → artifactTypeFamily t = some family
  named : PyDict.has rule "matcherFamilies" = true ∨ (nonEmptyString (PyDict.get rule "artifactType")).isSome = true

def IdentifiedBy (e : Env) (rule : PyDict) (artifactId : String) : Prop :=
  (∃ command, Only (commandValues rule) command ∧ artifactId = exactShellCommandArtifactId e command) ∨
  commandValues rule = [] ∧ Only (artifactValues rule) artifactId ∨
  commandValues rule = [] ∧ artifactValues rule = [] ∧
    ∃ family, FamilyAllowed rule family ∧ artifactId = "family:" ++ family

def MatcherEntryFits (rule : PyDict) (key : String) (value : PyObject) : Prop :=
  key = "command" ∨
  key = "tool" ∧ (value = .str "bash" ∨ value = .str "shell") ∧ (∃ command, Only (commandValues rule) command) ∨
  (key = "artifactId" ∨ key = "artifact_id") ∧ commandValues rule = [] ∨
  hasConstraint value = false

/-- The rule has no selector that a decision cannot represent. -/
structure NoOtherSelector (rule scope : PyDict) : Prop where
  atTop : ∀ key value, (key, value) ∈ rule → key ∉ nonSelectorRuleKeys → hasConstraint value = false
  inScope : ∀ key value, (key, value) ∈ scope → key ∉ familyRepresentableScopeKeys → key ≠ "command" →
    hasConstraint value = false
  inMatcher : PyDict.get rule "matcher" = .none ∨ ∃ matcher, PyDict.get rule "matcher" = .dict matcher ∧
    ∀ key value, (key, value) ∈ matcher → MatcherEntryFits rule key value
  browser : ∀ source, source = rule ∨ source = scope → ∀ key ∈ policyBundleBrowserScopeKeys,
    PyDict.has source key = true → PyDict.get source key = .list []

/-- A decision satisfies all of its rule. -/
structure Fits (e : Env) (bundle : PyDict) (deviceId deviceName : String) (rule scope : PyDict) (d : PolicyDecision) :
    Prop where
  action : PyDict.get rule "action" = .str d.action
  device : selector scope "devices" ≠ [] →
    deviceId ∈ selector scope "devices" ∨ deviceName ∈ selector scope "devices"
  environment : selector scope "environments" ≠ [] → "development" ∈ selector scope "environments"
  harness : ∀ key, key = "harnesses" ∨ key = "agents" → selector scope key ≠ [] →
    d.harness ∈ (selector scope key).map (fun text => e.lower (pythonStrip text))
  workspace : (∃ location ∈ selector scope "locations", d.workspace = some (pythonStrip location)) ∨
    selector scope "locations" = [] ∧ d.workspace = none
  identity : IdentifiedBy e rule d.artifactId
  selectors : NoOtherSelector rule scope
  ruleExpiry : ∀ t, PyDict.get rule "expiresAt" = .str t → d.expiresAt = some t
  bundleExpiry : PyDict.get rule "expiresAt" = .none → ∀ t, PyDict.get bundle "expiresAt" = .str t →
    d.expiresAt = some t
  noExpiry : PyDict.get rule "expiresAt" = .none → PyDict.get bundle "expiresAt" = .none → d.expiresAt = none

/-! ## What the checks guarantee -/

variable {scope : PyDict}

theorem representable_entry {keys : List String} (hscope : ruleScope rule = some scope)
    (h : ruleScopeIsExactlyRepresentable rule keys = true) {key : String} {value : PyObject}
    (hmem : (key, value) ∈ scope) (hkey : key ∉ keys) :
    (key ∈ familyRepresentableScopeKeys ∧ ∃ items, value = .list items ∧ ∀ item ∈ items, (nonEmptyString item).isSome) ∨
      key ∉ familyRepresentableScopeKeys ∧ hasConstraint value = false := by
  unfold ruleScopeIsExactlyRepresentable at h
  rw [hscope] at h
  have hentry := List.all_eq_true.1 h _ hmem
  simp only [List.contains_eq_mem, hkey, decide_false, Bool.false_eq_true, if_false] at hentry
  by_cases hfam : key ∈ familyRepresentableScopeKeys
  · simp only [hfam, decide_true, if_true] at hentry
    cases value with
    | list items => exact Or.inl ⟨hfam, items, rfl, List.all_eq_true.1 hentry⟩
    | _ => cases hentry
  · simp only [hfam, decide_false, Bool.false_eq_true, if_false, Bool.not_eq_true'] at hentry
    exact Or.inr ⟨hfam, hentry⟩

theorem locations_spec {keys : List String} (hscope : ruleScope rule = some scope)
    (h : ruleScopeIsExactlyRepresentable rule keys = true) (hkeys : "locations" ∉ keys) :
    policyBundleRuleLocations rule = (selector scope "locations").map pythonStrip := by
  unfold policyBundleRuleLocations selector
  rw [hscope]
  simp only
  congr 1
  refine List.filter_eq_self.2 (fun text htext => ?_)
  obtain ⟨_, _, hv⟩ := texts_ne_nil (List.ne_nil_of_mem htext)
  have hmem := mem_of_has (has_of_get (by rw [hv]; exact fun h => nomatch h))
  rcases representable_entry hscope h hmem hkeys with ⟨-, items, heq, hall⟩ | ⟨hno, -⟩
  · rw [heq] at htext
    obtain ⟨item, hitem, ht⟩ := List.mem_filterMap.1 htext
    obtain ⟨s, hs⟩ := Option.isSome_iff_exists.1 (hall item hitem)
    obtain ⟨rfl, hblank⟩ := nonEmptyString_eq hs
    obtain rfl := Option.some.inj ht
    rw [hblank]
    rfl
  · exact absurd (by decide) hno

variable {deviceId deviceName : String}

theorem localScope_spec (hscope : ruleScope rule = some scope)
    (h : policyBundleRuleMatchesLocalScope rule deviceId deviceName = true) :
    (selector scope "devices" ≠ [] → deviceId ∈ selector scope "devices" ∨ deviceName ∈ selector scope "devices") ∧
      (selector scope "environments" ≠ [] → "development" ∈ selector scope "environments") := by
  -- a value that lists texts is a list that is not empty
  have hlist : ∀ v : PyObject, v.texts ≠ [] → v.list?.any (fun l => !l.isEmpty) = true := by
    intro v hv
    obtain ⟨_, _, rfl⟩ := texts_ne_nil hv
    rfl
  unfold policyBundleRuleMatchesLocalScope at h
  rw [hscope] at h
  simp only at h
  split at h
  · cases h
  rename_i hdevices
  simp only [Bool.and_eq_true, not_and_or, Bool.not_eq_true', List.contains_eq_mem, decide_eq_false_iff_not,
    not_not] at hdevices
  refine ⟨fun hne => ?_, fun hne => ?_⟩
  · rcases hdevices with (hd | hd) | hd
    · exact absurd (hlist _ hne) hd
    · exact Or.inl hd
    · exact Or.inr hd
  · rw [if_pos (hlist _ hne)] at h
    simpa [policyBundleDefaultEnvironments, selector] using h

theorem harnesses_spec {e : Env} (hscope : ruleScope rule = some scope) {name key : String}
    (h : name ∈ policyBundleRuleHarnesses e rule) (hkey : key = "harnesses" ∨ key = "agents")
    (hne : selector scope key ≠ []) :
    name ∈ (selector scope key).map (fun text => e.lower (pythonStrip text)) := by
  have hselector : ∃ names, harnessSelector e scope key = some names ∧
      ∀ n ∈ names, n ∈ (selector scope key).map (fun text => e.lower (pythonStrip text)) := by
    unfold harnessSelector selector at *
    obtain ⟨_, _, hv⟩ := texts_ne_nil hne
    rw [hv]
    refine ⟨_, rfl, fun n hn => ?_⟩
    obtain ⟨text, htext, rfl⟩ := List.mem_map.1 hn
    exact List.mem_map_of_mem (List.mem_filter.1 htext).1
  obtain ⟨names, hnames, hsub⟩ := hselector
  have hin : names ∈ ["harnesses", "agents"].filterMap (harnessSelector e scope) :=
    List.mem_filterMap.2 ⟨key, by simpa using hkey, hnames⟩
  unfold policyBundleRuleHarnesses at h
  rw [hscope] at h
  simp only at h
  split at h
  · exact absurd h List.not_mem_nil
  · split at h
    · rename_i hnil
      rw [hnil] at hin
      exact absurd hin List.not_mem_nil
    · rename_i first rest hcons
      rw [List.mem_mergeSort, List.mem_dedup, List.mem_filter] at h
      rw [hcons] at hin
      refine hsub name ?_
      rcases List.mem_cons.1 hin with rfl | hin
      · exact h.1
      · simpa using List.all_eq_true.1 h.2 names hin

theorem browser_spec (hscope : ruleScope rule = some scope)
    (h : policyBundleRuleHasBrowserScope rule = false) (source : PyDict)
    (hsource : source = rule ∨ source = scope) (key : String)
    (hkey : key ∈ policyBundleBrowserScopeKeys) (hhas : PyDict.has source key = true) :
    PyDict.get source key = .list [] := by
  unfold policyBundleRuleHasBrowserScope at h
  rw [hscope, List.any_eq_false] at h
  have hmem : source ∈ rule :: (some scope).toList := by
    rcases hsource with rfl | rfl
    · exact List.mem_cons_self
    · exact List.mem_cons_of_mem _ (List.mem_singleton.2 rfl)
  have hany := h source hmem
  rw [Bool.not_eq_true, List.any_eq_false] at hany
  have hvalue := hany key hkey
  rw [hhas, Bool.true_and] at hvalue
  split at hvalue
  · assumption
  · exact absurd rfl hvalue

theorem atTop_of_known (h : ruleHasUnknownConstraints rule = false) (key : String)
    (value : PyObject) (hmem : (key, value) ∈ rule) (hkey : key ∉ nonSelectorRuleKeys) :
    hasConstraint value = false := by
  unfold ruleHasUnknownConstraints at h
  have hentry := List.any_eq_false.1 h _ hmem
  simpa [hkey] using hentry

theorem noOtherSelector_of_exact (hscope : ruleScope rule = some scope)
    (h : exactRuleIsExactlyRepresentable rule = true) (hbrowser : policyBundleRuleHasBrowserScope rule = false) :
    NoOtherSelector rule scope ∧ ∃ keys, ruleScopeIsExactlyRepresentable rule keys = true ∧ "locations" ∉ keys := by
  unfold exactRuleIsExactlyRepresentable at h
  split at h
  · rename_i commands artifactIds hcommands hids
    simp only [Bool.and_eq_true, decide_eq_true_eq, Bool.not_eq_true'] at h
    obtain ⟨⟨⟨⟨hlen, -⟩, hrep⟩, hknown⟩, hmatcher⟩ := h
    rw [declaredCommands_eq] at hcommands
    have hkeys : ∀ key, key ≠ "command" → key ∉ (if commands.isEmpty = false then ["command"] else []) := by
      intro key hne
      split
      · simpa using hne
      · exact List.not_mem_nil
    refine ⟨⟨atTop_of_known hknown, fun key value hmem hfam hne => ?_, ?_, browser_spec hscope hbrowser⟩,
      _, hrep, hkeys "locations" (by decide)⟩
    · rcases representable_entry hscope hrep hmem (hkeys key hne) with ⟨hin, -⟩ | ⟨-, hno⟩
      · exact absurd hin hfam
      · exact hno
    · cases hm : PyDict.get rule "matcher" with
      | none => exact Or.inl rfl
      | dict matcher =>
        rw [hm] at hmatcher
        refine Or.inr ⟨matcher, rfl, fun key value hmem => ?_⟩
        have hentry := List.all_eq_true.1 hmatcher _ hmem
        simp only [Bool.and_eq_true, Bool.or_eq_true, List.contains_eq_mem, decide_eq_true_eq, Bool.not_eq_true',
          bne_iff_ne, ne_eq, beq_iff_eq] at hentry
        obtain ⟨hidentity, htool⟩ := hentry
        cases commands with
        | nil =>
          rcases hidentity with hin | hno
          · exact Or.inr (Or.inr (Or.inl ⟨by simpa [identityMatcherKeys] using hin, nil_of_none hcommands⟩))
          · exact Or.inr (Or.inr (Or.inr hno))
        | cons command more =>
          have hmore : more = [] := List.length_eq_zero_iff.1 (by simpa using hlen)
          subst hmore
          rcases hidentity with hin | hno
          · have hcases : key = "command" ∨ key = "tool" := by simpa [identityMatcherKeys] using hin
            rcases hcases with hkey | hkey
            · exact Or.inl hkey
            · refine Or.inr (Or.inl ⟨hkey, ?_, command, only_of_singleton hcommands⟩)
              rcases htool with (hne | hbash) | hshell
              · exact absurd hkey hne
              · exact Or.inl (nonEmptyString_eq hbash).1
              · exact Or.inr (nonEmptyString_eq hshell).1
          · exact Or.inr (Or.inr (Or.inr hno))
      | _ =>
        rw [hm] at hmatcher
        cases hmatcher
  · cases h

/-- A scope key that a decision cannot represent has no text in a representable scope. -/
theorem nonEmptyString_of_representable (hscope : ruleScope rule = some scope)
    (h : ruleScopeIsExactlyRepresentable rule [] = true) (key : String)
    (hkey : key ∉ familyRepresentableScopeKeys) : nonEmptyString (PyDict.get scope key) = none := by
  cases hv : nonEmptyString (PyDict.get scope key) with
  | none => rfl
  | some s =>
    have hhas : PyDict.has scope key = true := has_of_get (by rw [(nonEmptyString_eq hv).1]; exact fun h => nomatch h)
    rcases representable_entry hscope h (mem_of_has hhas) List.not_mem_nil with ⟨hin, -⟩ | ⟨-, hno⟩
    · exact absurd hin hkey
    · rw [hasConstraint_of_nonEmptyString hv] at hno
      cases hno

variable {family : String}

theorem families_of_representable (hscope : ruleScope rule = some scope)
    (h : ruleScopeIsExactlyRepresentable rule [] = true) (hhas : PyDict.has rule "matcherFamilies" = false)
    (hmem : family ∈ policyBundleRuleMatcherFamilies rule) :
    ∃ t, nonEmptyString (PyDict.get rule "artifactType") = some t := by
  have hecosystems : (PyDict.get scope "ecosystems").list?.any (fun l => !l.isEmpty) = false := by
    cases hv : PyDict.get scope "ecosystems" with
    | list items =>
      have hhas : PyDict.has scope "ecosystems" = true := has_of_get (by rw [hv]; exact fun h => nomatch h)
      rcases representable_entry hscope h (mem_of_has hhas) List.not_mem_nil with ⟨hin, -⟩ | ⟨-, hno⟩
      · exact absurd hin (by decide)
      · rw [hv] at hno
        exact hno
    | _ => rfl
  unfold policyBundleRuleMatcherFamilies at hmem
  simp only [hhas, hscope, hecosystems, Bool.false_eq_true, if_false, List.nil_append,
    nonEmptyString_of_representable hscope h "mcp" (by decide),
    nonEmptyString_of_representable hscope h "tool" (by decide),
    nonEmptyString_of_representable hscope h "command" (by decide),
    nonEmptyString_of_representable hscope h "path" (by decide),
    nonEmptyString_of_representable hscope h "secretType" (by decide),
    Option.isSome_none, Bool.or_self] at hmem
  have htyped := (List.mem_filter.1 (List.mem_eraseDups.1 hmem)).1
  rw [Option.mem_toList, Option.bind_eq_some_iff] at htyped
  obtain ⟨t, ht, -⟩ := htyped
  exact ⟨t, ht⟩

theorem savedFamilies_spec (h : family ∈ policyBundleRuleSavedDecisionFamilies rule) :
    policyBundleRuleDeclaredCommands rule = some [] ∧ policyBundleRuleDeclaredArtifactIds rule = some [] ∧
      ruleScopeIsExactlyRepresentable rule [] = true ∧ familyRuleMetadataIsExactlyRepresentable rule = true ∧
      family ∈ policyBundleRuleMatcherFamilies rule ∧
      ∀ t, nonEmptyString (PyDict.get rule "artifactType") = some t → artifactTypeFamily t = some family := by
  unfold policyBundleRuleSavedDecisionFamilies at h
  extract_lets families artifactType typed at h
  split at h
  · exact absurd h List.not_mem_nil
  rename_i hdeclared
  push Not at hdeclared
  split at h
  · exact absurd h List.not_mem_nil
  rename_i hrep
  split at h
  · exact absurd h List.not_mem_nil
  rename_i hmeta
  -- the last filter only drops families
  have htyped : family ∈ typed := by
    split at h
    · exact h
    · exact (List.mem_filter.1 h).1
  simp only [typed, artifactType] at htyped
  refine ⟨hdeclared.2.1, hdeclared.2.2, by simpa using hrep, by simpa using hmeta, ?_, fun t ht => ?_⟩
  · split at htyped
    · exact htyped
    · exact (List.mem_filter.1 htyped).1
  · rw [ht] at htyped
    simpa using (List.mem_filter.1 htyped).2

theorem familyAllowed_of_saved (hscope : ruleScope rule = some scope)
    (h : family ∈ policyBundleRuleSavedDecisionFamilies rule) : FamilyAllowed rule family := by
  obtain ⟨-, -, hrep, -, hmem, htyped⟩ := savedFamilies_spec h
  refine ⟨fun hhas => ?_, htyped, ?_⟩
  · unfold policyBundleRuleMatcherFamilies at hmem
    rw [if_pos hhas] at hmem
    unfold selector
    split at hmem
    · rename_i explicit hlist
      rw [hlist]
      split at hmem
      · exact List.mem_eraseDups.1 hmem
      · exact absurd hmem List.not_mem_nil
    · exact absurd hmem List.not_mem_nil
  · cases hhas : PyDict.has rule "matcherFamilies" with
    | true => exact Or.inl rfl
    | false =>
      obtain ⟨t, ht⟩ := families_of_representable hscope hrep hhas hmem
      exact Or.inr (by rw [ht]; rfl)

theorem noOtherSelector_of_family (hscope : ruleScope rule = some scope)
    (h : family ∈ policyBundleRuleSavedDecisionFamilies rule)
    (hbrowser : policyBundleRuleHasBrowserScope rule = false) : NoOtherSelector rule scope := by
  obtain ⟨-, -, hrep, hmeta, -, -⟩ := savedFamilies_spec h
  unfold familyRuleMetadataIsExactlyRepresentable at hmeta
  simp only [Bool.and_eq_true, Bool.not_eq_true'] at hmeta
  obtain ⟨⟨hknown, hmatcher⟩, -⟩ := hmeta
  refine ⟨atTop_of_known hknown, fun key value hmem hfam _ => ?_, ?_, browser_spec hscope hbrowser⟩
  · rcases representable_entry hscope hrep hmem List.not_mem_nil with ⟨hin, -⟩ | ⟨-, hno⟩
    · exact absurd hin hfam
    · exact hno
  · cases hm : PyDict.get rule "matcher" with
    | none => exact Or.inl rfl
    | dict matcher =>
      rw [hm] at hmatcher
      refine Or.inr ⟨matcher, rfl, fun key value hmem => ?_⟩
      have hentry := List.all_eq_true.1 hmatcher _ hmem
      exact Or.inr (Or.inr (Or.inr (by simpa using hentry)))
    | _ =>
      rw [hm] at hmatcher
      cases hmatcher

/-! ## Every decision fits its rule -/

theorem mem_decisionsFor {e : Env} {bundle : PyDict} {action : String} {artifactIds : List String}
    {unlocated : DecisionScope} {d : PolicyDecision} (h : d ∈ decisionsFor e bundle rule action artifactIds unlocated) :
    d.harness ∈ policyBundleRuleHarnesses e rule ∧ d.artifactId ∈ artifactIds ∧ d.action = action ∧
      d.expiresAt = policyBundleRuleExpiresAt rule bundle ∧
      ((∃ location ∈ policyBundleRuleLocations rule, d.workspace = some location) ∨
        policyBundleRuleLocations rule = [] ∧ d.workspace = none) := by
  unfold decisionsFor at h
  obtain ⟨harness, hharness, h⟩ := List.mem_flatMap.1 h
  obtain ⟨artifactId, hid, h⟩ := List.mem_flatMap.1 h
  split at h
  · rename_i hempty
    rw [List.mem_singleton.1 h]
    exact ⟨hharness, hid, rfl, rfl, Or.inr ⟨List.isEmpty_iff.1 hempty, rfl⟩⟩
  · obtain ⟨location, hloc, rfl⟩ := List.mem_map.1 h
    exact ⟨hharness, hid, rfl, rfl, Or.inl ⟨location, hloc, rfl⟩⟩

/-- What validation says of a bundle: every rule is valid, and its expiry is absent or a text. -/
structure Validated (k : Clock) (bundle : PyDict) : Prop where
  rules : ∀ items, PyDict.get bundle "rules" = .list items → ∀ rule ∈ items, policyBundleRuleIsValid k rule = true
  expiresAt : PyDict.get bundle "expiresAt" = .none ∨ ∃ t, nonEmptyString (PyDict.get bundle "expiresAt") = some t

theorem expiry_of_valid {k : Clock} (h : policyBundleRuleIsValid k (.dict rule) = true) :
    (∃ scope, ruleScope rule = some scope) ∧ ∀ t, PyDict.get rule "expiresAt" = .str t → NonBlank t := by
  unfold policyBundleRuleIsValid at h
  simp only [Bool.and_eq_true] at h
  obtain ⟨⟨-, hexpiry⟩, hscope⟩ := h
  refine ⟨?_, fun t ht => ?_⟩
  · unfold ruleScope
    split at hscope
    · rename_i scope hs
      exact ⟨scope, by rw [hs]; rfl⟩
    · cases hscope
  · rw [ht] at hexpiry
    have hsome : ((nonEmptyString (.str t)).bind (parsePolicyBundleTimestamp k)).isSome = true := hexpiry
    cases hn : nonEmptyString (.str t) with
    | none =>
      rw [hn] at hsome
      cases hsome
    | some s =>
      obtain ⟨heq, hblank⟩ := nonEmptyString_eq hn
      obtain rfl := PyObject.str.inj heq
      exact hblank

theorem fits_of_decisionsFor {e : Env} {bundle : PyDict} {action : String}
    {artifactIds keys : List String} {unlocated : DecisionScope} {d : PolicyDecision}
    (hbundle : Validated e.clock bundle) (hvalid : policyBundleRuleIsValid e.clock (.dict rule) = true)
    (hscope : ruleScope rule = some scope) (haction : PyDict.get rule "action" = .str action)
    (hlocal : policyBundleRuleMatchesLocalScope rule deviceId deviceName = true)
    (hrep : ruleScopeIsExactlyRepresentable rule keys = true) (hkeys : "locations" ∉ keys)
    (hselectors : NoOtherSelector rule scope) (hidentity : ∀ a ∈ artifactIds, IdentifiedBy e rule a)
    (h : d ∈ decisionsFor e bundle rule action artifactIds unlocated) :
    Fits e bundle deviceId deviceName rule scope d := by
  obtain ⟨hharness, hid, hact, hexpires, hworkspace⟩ := mem_decisionsFor h
  obtain ⟨hdevice, henvironment⟩ := localScope_spec hscope hlocal
  refine ⟨by rw [hact]; exact haction, hdevice, henvironment,
    fun key hkey hne => harnesses_spec hscope hharness hkey hne,
    ?_, hidentity _ hid, hselectors, fun t ht => ?_, fun hnone t ht => ?_, fun hnone hbundleNone => ?_⟩
  · rw [locations_spec hscope hrep hkeys] at hworkspace
    rcases hworkspace with ⟨location, hloc, hw⟩ | ⟨hnil, hw⟩
    · obtain ⟨text, htext, rfl⟩ := List.mem_map.1 hloc
      exact Or.inl ⟨text, htext, hw⟩
    · exact Or.inr ⟨List.map_eq_nil_iff.1 hnil, hw⟩
  · rw [hexpires, policyBundleRuleExpiresAt, ht,
      Bundle.nonEmptyString_of_nonBlank ((expiry_of_valid hvalid).2 t ht)]
    rfl
  · rw [hexpires, policyBundleRuleExpiresAt, hnone]
    rcases hbundle.expiresAt with hno | ⟨s, hs⟩
    · rw [ht] at hno
      cases hno
    · obtain ⟨heq, -⟩ := nonEmptyString_eq hs
      rw [ht] at heq
      obtain rfl := PyObject.str.inj heq
      rw [hs]
      rfl
  · rw [hexpires, policyBundleRuleExpiresAt, hnone, hbundleNone]
    rfl

theorem ruleDecisions_fit {e : Env} {bundle : PyDict} (hbundle : Validated e.clock bundle)
    {rule : PyObject} (hvalid : policyBundleRuleIsValid e.clock rule = true) {d : PolicyDecision}
    (h : d ∈ ruleDecisions e bundle deviceId deviceName rule) :
    ∃ mapping scope, rule = .dict mapping ∧ PyDict.get mapping "scope" = .dict scope ∧
      Fits e bundle deviceId deviceName mapping scope d := by
  unfold ruleDecisions at h
  split at h
  · rename_i mapping
    obtain ⟨⟨scope, hscope⟩, -⟩ := expiry_of_valid hvalid
    refine ⟨mapping, scope, rfl, PyObject.dict?_eq_some.1 hscope, ?_⟩
    split at h
    · exact absurd h List.not_mem_nil
    rename_i action hact
    have haction := PyObject.text?_eq_some.1 hact
    split at h
    · exact absurd h List.not_mem_nil
    rename_i hlocal
    split at h
    · exact absurd h List.not_mem_nil
    split at h
    · exact absurd h List.not_mem_nil
    rename_i hbrowser
    have hlocal : policyBundleRuleMatchesLocalScope mapping deviceId deviceName = true := by simpa using hlocal
    have hbrowser : policyBundleRuleHasBrowserScope mapping = false := by simpa using hbrowser
    rcases List.mem_append.1 h with hexact | hfamily
    · -- an exact identity
      split at hexact
      · rename_i hrepresentable
        rw [Bool.and_eq_true] at hrepresentable
        obtain ⟨hselectors, keys, hrep, hkeys⟩ := noOtherSelector_of_exact hscope hrepresentable.2 hbrowser
        refine fits_of_decisionsFor hbundle hvalid hscope haction hlocal hrep hkeys hselectors (fun a ha => ?_) hexact
        rcases exactArtifactIds_spec hrepresentable.2 ha with hcommand | hartifact
        · exact Or.inl hcommand
        · exact Or.inr (Or.inl hartifact)
      · exact absurd hexact List.not_mem_nil
    · -- a family
      obtain ⟨-, hid, -⟩ := mem_decisionsFor hfamily
      obtain ⟨family, hmem, -⟩ := List.mem_map.1 hid
      obtain ⟨-, -, hrep, -⟩ := savedFamilies_spec hmem
      refine fits_of_decisionsFor hbundle hvalid hscope haction hlocal hrep List.not_mem_nil
        (noOtherSelector_of_family hscope hmem hbrowser) (fun a ha => ?_) hfamily
      obtain ⟨f, hf, rfl⟩ := List.mem_map.1 ha
      obtain ⟨hcommands, hids, -⟩ := savedFamilies_spec hf
      rw [declaredCommands_eq] at hcommands
      exact Or.inr (Or.inr ⟨nil_of_none hcommands, nil_of_none hids, f, familyAllowed_of_saved hscope hf, rfl⟩)
  · exact absurd h List.not_mem_nil

/-- **Materialising a validated bundle never broadens a rule**: the decisions are those of its rules, and each decision
of a rule satisfies all of it. -/
theorem materialized_fits (e : Env) (bundle : PyDict) (hbundle : Validated e.clock bundle) (rules : List PyObject)
    (hrules : PyDict.get bundle "rules" = .list rules) (deviceId deviceName : String) :
    buildPolicyBundleDecisions e bundle deviceId deviceName =
      rules.flatMap (ruleDecisions e bundle deviceId deviceName) ∧
    ∀ rule ∈ rules, ∀ d ∈ ruleDecisions e bundle deviceId deviceName rule,
      ∃ mapping scope, rule = .dict mapping ∧ PyDict.get mapping "scope" = .dict scope ∧
        Fits e bundle deviceId deviceName mapping scope d := by
  refine ⟨?_, fun rule hrule d hd => ruleDecisions_fit hbundle (hbundle.rules rules hrules rule hrule) hd⟩
  unfold buildPolicyBundleDecisions
  rw [hrules]

/-! ## A bundle whose rules outlive it -/

def sampleEnv : Env := ⟨sampleClock, String.toLower, id⟩

def wildcardRule : PyDict :=
  [("ruleId", .str "wildcard"), ("action", .str "allow"), ("reason", .str "approved"), ("artifactId", .str "tool:a"),
    ("expiresAt", .str "2027-01-01T00:00:00Z"),
    ("scope", .dict [("harnesses", .list [.str "*"]), ("environments", .list [.str "development"])])]

def shellRule : PyDict :=
  [("ruleId", .str "shell"), ("action", .str "allow"), ("reason", .str "approved"),
    ("matcher", .dict [("command", .str "ls"), ("tool", .str "bash")]),
    ("scope", .dict [("locations", .list [.str " /srv "])])]

def sampleBundle : PyDict :=
  [("expiresAt", .str "2026-08-01T00:00:00Z"), ("rules", .list [.dict wildcardRule, .dict shellRule])]

theorem validated_sampleBundle : Validated sampleEnv.clock sampleBundle := by
  refine ⟨fun items h rule hrule => ?_, Or.inr ⟨"2026-08-01T00:00:00Z", by decide +kernel⟩⟩
  have hitems : items = [.dict wildcardRule, .dict shellRule] := (PyObject.list.inj h).symm
  subst hitems
  rcases List.mem_cons.1 hrule with rfl | hrule
  · decide +kernel
  · rw [List.mem_singleton.1 hrule]
    decide +kernel

/-- The first decision names the wildcard harness although its rule has a harness selector, keeps to a rule with an
environment selector, and expires with its rule, months after the bundle; the second leaves out the tool and the blanks
around the location. -/
theorem decision_outlives_bundle :
    policyBundleRuleIsValid sampleClock (.dict wildcardRule) = true ∧
    policyBundleRuleIsValid sampleClock (.dict shellRule) = true ∧
    buildPolicyBundleDecisions sampleEnv sampleBundle "device" "laptop" =
      [⟨"*", .artifact, "allow", "tool:a", none, "approved", "wildcard", some "2027-01-01T00:00:00Z"⟩,
        ⟨"*", .workspace, "allow", "memory:exact-shell-command:ls", some "/srv", "approved", "shell",
          some "2026-08-01T00:00:00Z"⟩] ∧
    parsePolicyBundleTimestamp sampleClock "2026-08-01T00:00:00Z" = some 1785542400 ∧
    parsePolicyBundleTimestamp sampleClock "2027-01-01T00:00:00Z" = some 1798761600 := by
  decide +kernel

theorem sampleBundle_fits :
    buildPolicyBundleDecisions sampleEnv sampleBundle "device" "laptop" =
      [.dict wildcardRule, .dict shellRule].flatMap (ruleDecisions sampleEnv sampleBundle "device" "laptop") ∧
    ∀ rule ∈ [PyObject.dict wildcardRule, .dict shellRule],
      ∀ d ∈ ruleDecisions sampleEnv sampleBundle "device" "laptop" rule,
      ∃ mapping scope, rule = .dict mapping ∧ PyDict.get mapping "scope" = .dict scope ∧
        Fits sampleEnv sampleBundle "device" "laptop" mapping scope d :=
  materialized_fits sampleEnv sampleBundle validated_sampleBundle [.dict wildcardRule, .dict shellRule] rfl "device"
    "laptop"

end Guard.PolicyBundle
