import HolGuard.Bundle.Versions
/-!
# Decisions of a signed policy bundle

`build_policy_bundle_decisions` turns the rules of a validated v1 bundle into local decisions, and skips each rule it
cannot represent.  A rule is an arbitrary mapping: identity aliases in three places, malformed values and unknown keys
are part of the model.  `materialized_fits` says that a decision satisfies all of its rule.
-/
namespace Guard.PolicyBundle

open Lib

/-- The parser of timestamps, `str.lower` and the hexadecimal SHA-256 of a text. -/
structure Env where
  clock : Clock
  lower : String → String
  sha256 : String → String

/-! ## Validation of a rule -/

def policyBundleRuleActions : List String := ["allow", "block", "review", "ignore"]

/-- `_POLICY_BUNDLE_RULE_MATCHER_FAMILIES` -/
def ruleMatcherFamilyNames : List String :=
  ["file-read", "mcp", "mcp-tool", "package-request", "prompt", "prompt-env-read", "tool-action"]

def policyBundleBrowserScopeKeys : List String :=
  ["browserIntent", "browserOperation", "browserProfile", "origin", "pathPrefix", "sensitiveSurface"]

def policyBundleScopeKeys : List String :=
  policyBundleBrowserScopeKeys ++ ["agents", "devices", "ecosystems", "environments", "harnesses", "locations"]

def validBrowserIntents : List String :=
  ["browser.navigation", "browser.inspect", "browser.interact", "browser.transfer", "browser.privileged"]

def validBrowserProfiles : List String := ["isolated", "dedicated", "shared", "remote-debugging", "unknown"]

/-- `_policy_bundle_string_list` -/
def isStringList : PyObject → Bool
  | .list items => items.all (fun item => item.text?.isSome)
  | _ => false

/-- `_non_empty_string(family) is not None and family in POLICY_BUNDLE_RULE_MATCHER_FAMILIES` -/
def isMatcherFamily (family : PyObject) : Bool :=
  match nonEmptyString family with
  | none => false
  | some family => ruleMatcherFamilyNames.contains family

def optionally (check : PyObject → Bool) (value : PyObject) : Bool := value.isNone || check value

def isEnumList (values : List String) : PyObject → Bool
  | .list items => items.all (fun item => item.text?.any values.contains)
  | _ => false

def policyBundleRuleIsValid (k : Clock) (rule : PyObject) : Bool :=
  match rule with
  | .dict rule =>
    (nonEmptyString (PyDict.get rule "ruleId")).isSome &&
    (PyDict.get rule "action").text?.any policyBundleRuleActions.contains &&
    (PyDict.get rule "reason").text?.isSome &&
    optionally (fun v => (nonEmptyString v).isSome) (PyDict.get rule "sourceReceiptId") &&
    optionally (fun v => (nonEmptyString v).isSome) (PyDict.get rule "sourceLocalRequestId") &&
    optionally isStringList (PyDict.get rule "sourceReceiptIds") &&
    optionally isStringList (PyDict.get rule "auditEventIds") &&
    (!PyDict.has rule "matcherFamilies" || (PyDict.get rule "matcherFamilies").list?.any
      (fun l => l.all isMatcherFamily)) &&
    optionally (fun v => ((nonEmptyString v).bind (parsePolicyBundleTimestamp k)).isSome)
      (PyDict.get rule "expiresAt") &&
    match PyDict.get rule "scope" with
    | .dict scope =>
      policyBundleScopeKeys.all (fun key => !PyDict.has scope key || isStringList (PyDict.get scope key)) &&
      optionally (isEnumList validBrowserIntents) (PyDict.get scope "browserIntent") &&
      optionally (isEnumList validBrowserProfiles) (PyDict.get scope "browserProfile")
    | _ => false
  | _ => false

/-! ## Identities of a rule -/

def policyBundleDefaultEnvironments : List String := ["development"]

def familyRepresentableScopeKeys : List String := ["agents", "devices", "environments", "harnesses", "locations"]

def nonSelectorRuleKeys : List String :=
  ["action", "artifactId", "artifactType", "artifact_id", "auditEventIds", "expiresAt", "matcher", "matcherFamilies",
    "reason", "ruleId", "scope", "sourceDecisionId", "sourceLocalRequestId", "sourceReceiptId", "sourceReceiptIds",
    "sourceSuggestionId"] ++ policyBundleBrowserScopeKeys

def artifactTypeFamily : String → Option String
  | "file_read_request" => some "file-read"
  | "package_request" => some "package-request"
  | "prompt_request" => some "prompt"
  | "tool_action_request" => some "tool-action"
  | _ => none

def ruleScope (rule : PyDict) : Option PyDict := (PyDict.get rule "scope").dict?

def policyBundleRuleMatcherFamilies (rule : PyDict) : List String :=
  if PyDict.has rule "matcherFamilies" then
    match PyDict.get rule "matcherFamilies" with
    | .list explicit => if explicit.all isMatcherFamily then (explicit.filterMap PyObject.text?).eraseDups else []
    | _ => []
  else
    let given := fun (scope : PyDict) key => (nonEmptyString (PyDict.get scope key)).isSome
    let derived := match ruleScope rule with
      | none => []
      | some scope =>
        (if (PyDict.get scope "ecosystems").list?.any (fun l => !l.isEmpty) then ["package-request"] else []) ++
        (if given scope "mcp" || given scope "tool" then ["mcp"] else []) ++
        (if given scope "command" then ["tool-action"] else []) ++
        (if given scope "path" || given scope "secretType" then ["file-read"] else [])
    let typed := ((nonEmptyString (PyDict.get rule "artifactType")).bind artifactTypeFamily).toList
    ((derived ++ typed).filter ruleMatcherFamilyNames.contains).eraseDups

/-- The commands a rule declares in its matcher and its scope; `none` when one is malformed. -/
def policyBundleRuleDeclaredCommands (rule : PyDict) : Option (List String) :=
  let sources := [PyDict.get rule "matcher", PyDict.get rule "scope"].filterMap PyObject.dict?
  let present := sources.filter (fun source => PyDict.has source "command")
  (present.mapM (fun source => nonEmptyString (PyDict.get source "command"))).map List.eraseDups

def policyBundleRuleExactCommand (rule : PyDict) : Option String :=
  let command := fun (source : PyObject) => source.dict?.bind (fun d => nonEmptyString (PyDict.get d "command"))
  (command (PyDict.get rule "matcher")) <|> command (PyDict.get rule "scope")

/-- The artifact ids a rule declares in its matcher and at its top; `none` when one is malformed. -/
def policyBundleRuleDeclaredArtifactIds (rule : PyDict) : Option (List String) :=
  let sources := (PyDict.get rule "matcher").dict?.toList ++ [rule]
  let present := sources.flatMap (fun source =>
    (["artifactId", "artifact_id"].filter (PyDict.has source)).map (PyDict.get source))
  (present.mapM nonEmptyString).map List.eraseDups

/-- `build_exact_shell_command_memory_artifact_id` of a text that is not blank. -/
def exactShellCommandArtifactId (e : Env) (command : String) : String :=
  "memory:exact-shell-command:" ++ e.sha256 command

def policyBundleRuleExactArtifactIds (e : Env) (rule : PyDict) : List String :=
  match policyBundleRuleExactCommand rule with
  | some command => [exactShellCommandArtifactId e command]
  | none => (policyBundleRuleDeclaredArtifactIds rule).getD []

/-! ## What a decision can represent -/

/-- `_has_constraint`: a malformed value is a constraint. -/
def hasConstraint : PyObject → Bool
  | .none => false
  | .str s => !(pythonStrip s).isEmpty
  | .list items => !items.isEmpty
  | .dict entries => !entries.isEmpty
  | _ => true

def ruleScopeIsExactlyRepresentable (rule : PyDict) (identityScopeKeys : List String) : Bool :=
  match ruleScope rule with
  | none => false
  | some scope => scope.all (fun (key, value) =>
    if identityScopeKeys.contains key then (nonEmptyString value).isSome
    else if familyRepresentableScopeKeys.contains key then
      match value with
      | .list items => items.all (fun item => (nonEmptyString item).isSome)
      | _ => false
    else !hasConstraint value)

def ruleHasUnknownConstraints (rule : PyDict) : Bool :=
  rule.any (fun (key, value) => !nonSelectorRuleKeys.contains key && hasConstraint value)

def familyRuleMetadataIsExactlyRepresentable (rule : PyDict) : Bool :=
  !ruleHasUnknownConstraints rule &&
  (match PyDict.get rule "matcher" with
    | .none => true
    | .dict matcher => matcher.all (fun (_, value) => !hasConstraint value)
    | _ => false) &&
  (nonEmptyString (PyDict.get rule "artifactType")).all (fun t => (artifactTypeFamily t).isSome)

def identityMatcherKeys (hasCommand : Bool) : List String :=
  if hasCommand then ["command", "tool"] else ["artifactId", "artifact_id"]

def exactRuleIsExactlyRepresentable (rule : PyDict) : Bool :=
  match policyBundleRuleDeclaredCommands rule, policyBundleRuleDeclaredArtifactIds rule with
  | some commands, some artifactIds =>
    let hasCommand := !commands.isEmpty
    decide (commands.length ≤ 1) && (hasCommand || decide (artifactIds.length = 1)) &&
    ruleScopeIsExactlyRepresentable rule (if hasCommand then ["command"] else []) &&
    !ruleHasUnknownConstraints rule &&
    match PyDict.get rule "matcher" with
    | .none => true
    | .dict matcher => matcher.all (fun (key, value) =>
      ((identityMatcherKeys hasCommand).contains key || !hasConstraint value) &&
      (key != "tool" || nonEmptyString value == some "bash" || nonEmptyString value == some "shell"))
    | _ => false
  | _, _ => false

def policyBundleRuleSavedDecisionFamilies (rule : PyDict) : List String :=
  let families := policyBundleRuleMatcherFamilies rule
  let artifactType := nonEmptyString (PyDict.get rule "artifactType")
  if families.isEmpty ∨ policyBundleRuleDeclaredCommands rule ≠ some [] ∨
      policyBundleRuleDeclaredArtifactIds rule ≠ some [] then []
  else if ruleScopeIsExactlyRepresentable rule [] = false then []
  else if familyRuleMetadataIsExactlyRepresentable rule = false then []
  else
    let typed := match artifactType with
      | none => families
      | some t => families.filter (fun family => artifactTypeFamily t == some family)
    if artifactType = some "package_request" then typed else typed.filter (fun family => family != "package-request")

/-! ## Decisions -/

def policyBundleRuleMatchesLocalScope (rule : PyDict) (deviceId deviceName : String) : Bool :=
  match ruleScope rule with
  | none => false
  | some scope =>
    let names := fun (value : PyObject) name => value.texts.contains name
    let devices := PyDict.get scope "devices"
    let environments := PyDict.get scope "environments"
    if devices.list?.any (fun l => !l.isEmpty) && !names devices deviceId && !names devices deviceName then false
    else if environments.list?.any (fun l => !l.isEmpty) then
      policyBundleDefaultEnvironments.any (names environments)
    else true

def policyBundleRuleLocations (rule : PyDict) : List String :=
  match ruleScope rule with
  | none => []
  | some scope =>
    ((PyDict.get scope "locations").texts.filter (fun item => !(pythonStrip item).isEmpty)).map pythonStrip

def policyBundleRuleExpiresAt (rule bundle : PyDict) : Option String :=
  nonEmptyString (PyDict.get rule "expiresAt") <|> nonEmptyString (PyDict.get bundle "expiresAt")

/-- `_policy_bundle_rule_reason` with the diagnostic ids of `_policy_bundle_rule_source_metadata`. -/
def policyBundleRuleReason (rule : PyDict) (ruleId : String) : String :=
  let reason := (nonEmptyString (PyDict.get rule "reason")).getD ("Matched Guard Cloud rule " ++ ruleId ++ ".")
  let diagnosticIds := ["sourceDecisionId", "sourceSuggestionId"].filterMap (fun key =>
    (nonEmptyString (PyDict.get rule key)).map (fun value => key ++ "=" ++ value))
  if diagnosticIds.isEmpty then reason else reason ++ " (" ++ String.intercalate "; " diagnosticIds ++ ")"

/-- The normalised selector of a scope key, when it is a list that is not empty. -/
def harnessSelector (e : Env) (scope : PyDict) (key : String) : Option (List String) :=
  match PyDict.get scope key with
  | .list (item :: items) =>
    some (((PyObject.list (item :: items)).texts.filter (fun text => !(pythonStrip text).isEmpty)).map
      (fun text => e.lower (pythonStrip text)))
  | _ => none

def policyBundleRuleHarnesses (e : Env) (rule : PyDict) : List String :=
  match ruleScope rule with
  | none => ["*"]
  | some scope =>
    let selectorSets := ["harnesses", "agents"].filterMap (harnessSelector e scope)
    if selectorSets.any (fun names => names.contains "custom") then []
    else
      match selectorSets with
      | [] => ["*"]
      | first :: rest =>
        (first.filter (fun name => rest.all (fun names => names.contains name))).dedup.mergeSort
          (fun a b => decide (a ≤ b))

/-- `_policy_bundle_rule_has_browser_scope`: only an empty list is no constraint. -/
def policyBundleRuleHasBrowserScope (rule : PyDict) : Bool :=
  (rule :: (ruleScope rule).toList).any (fun source => policyBundleBrowserScopeKeys.any (fun key =>
    PyDict.has source key &&
      match PyDict.get source key with
      | .list [] => false
      | _ => true))

inductive DecisionScope where
  | artifact
  | workspace
  | harness
deriving DecidableEq

/-- `PolicyDecision` with the fields the materialisation sets; its source is `policy-bundle`. -/
structure PolicyDecision where
  harness : String
  scope : DecisionScope
  action : String
  artifactId : String
  workspace : Option String
  reason : String
  owner : String
  expiresAt : Option String
deriving DecidableEq

def ruleDecision (bundle rule : PyDict) (action harness artifactId : String) (scope : DecisionScope)
    (workspace : Option String) : PolicyDecision :=
  let ruleId := (nonEmptyString (PyDict.get rule "ruleId")).getD "bundle-rule"
  ⟨harness, scope, action, artifactId, workspace, policyBundleRuleReason rule ruleId, ruleId,
    policyBundleRuleExpiresAt rule bundle⟩

/-- The decisions of a rule for some artifact ids: one for each harness, id and location, or one of the unlocated
scope. -/
def decisionsFor (e : Env) (bundle rule : PyDict) (action : String) (artifactIds : List String)
    (unlocated : DecisionScope) : List PolicyDecision :=
  let locations := policyBundleRuleLocations rule
  (policyBundleRuleHarnesses e rule).flatMap (fun harness => artifactIds.flatMap (fun artifactId =>
    if locations.isEmpty then [ruleDecision bundle rule action harness artifactId unlocated none]
    else locations.map (fun location =>
      ruleDecision bundle rule action harness artifactId .workspace (some location))))

/-- What `build_policy_bundle_decisions` emits for one rule. -/
def ruleDecisions (e : Env) (bundle : PyDict) (deviceId deviceName : String) (rule : PyObject) : List PolicyDecision :=
  match rule with
  | .dict rule =>
    match (PyDict.get rule "action").text? with
    | none => []
    | some action =>
      if policyBundleRuleMatchesLocalScope rule deviceId deviceName = false then []
      else if action = "ignore" ∨ action ∉ policyBundleRuleActions then []
      else if policyBundleRuleHasBrowserScope rule then []
      else
        let exact := policyBundleRuleExactArtifactIds e rule
        (if !exact.isEmpty && exactRuleIsExactlyRepresentable rule then
          decisionsFor e bundle rule action exact .artifact else []) ++
        decisionsFor e bundle rule action
          ((policyBundleRuleSavedDecisionFamilies rule).map (fun family => "family:" ++ family)) .harness
  | _ => []

def buildPolicyBundleDecisions (e : Env) (bundle : PyDict) (deviceId deviceName : String) : List PolicyDecision :=
  match PyDict.get bundle "rules" with
  | .list rules => rules.flatMap (ruleDecisions e bundle deviceId deviceName)
  | _ => []

end Guard.PolicyBundle
