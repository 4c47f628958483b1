import HolGuard.Lib.Codec
import HolGuard.Lib.Text
/-!
# The effective policy of a snapshot

`EffectiveNativePolicyV3` of the policy-snapshot crate with its JSON form, and the checks `validate_effective_policy`
makes of it: known actions and levels, bounded maps, harness selectors that agree after normalisation, and well-formed
MCP selectors (`observed_mcp.rs`).
-/
namespace Guard
namespace Policy

open Lib (Json Codec SortedMap byteLength)

def maxStringBytes : Nat := 4 * 1024

def maxMapEntries : Nat := 256

def maxMcpToolActions : Nat := 1024

def maxHarnessEntries : Nat := 64

def validActions : List String := ["allow", "warn", "review", "require-reapproval", "sandbox-required", "block"]

def validProtectionPostures : List String := ["protected", "extra_careful", "watch"]

def validSecurityLevels : List String := ["relaxed", "gentle", "balanced", "strict", "paranoid", "custom"]

def validSandboxAnalysis : List String := ["off", "suspicious", "strict"]

def validReceiptRedactionLevels : List String := ["full", "partial", "none"]

def validRiskActionKeys : List String :=
  ["local_secret_read", "credential_exfiltration", "data_flow_exfiltration", "destructive_shell", "encoded_execution",
    "network_egress", "prompt_injection", "mcp_dangerous_tool", "malicious_skill", "package_script", "persistence",
    "guard_bypass", "cloud_advisory", "encoded_exfiltration", "execution", "supply_chain", "policy_bypass"]

structure EffectiveNativePolicyV3 where
  protectionPosture : String
  securityLevel : String
  defaultAction : String
  unknownPublisherAction : String
  changedHashAction : String
  newNetworkDomainAction : String
  subprocessAction : String
  riskActions : SortedMap String
  harnessRiskActions : SortedMap (SortedMap String)
  harnessActions : SortedMap String
  publisherActions : SortedMap String
  artifactActions : SortedMap String
  mcpToolActions : SortedMap String
  mcpProviderActions : SortedMap String
  mcpProviderCatalogHash : Option String
  sandboxAnalysis : String
  receiptRedactionLevel : String
  deriving DecidableEq

/-! ## Validation -/

/-- `valid_bounded_string(value, false)`; no caller allows an empty string. -/
def validBoundedString (value : String) : Bool := !Lib.isBlankText value && value.utf8ByteSize ≤ maxStringBytes

def validateAction (value : String) : Bool := validActions.contains value

def validateActionMap (map : SortedMap String) (maximum : Nat) : Bool :=
  map.pairs.length ≤ maximum && map.pairs.all (fun q => validBoundedString q.1 && validateAction q.2)

def validSelectorKey (value : String) : Bool :=
  validBoundedString value &&
    value.toList.all (fun c => Lib.isAsciiAlphanumeric c || c == '_' || c == '-' || c == '.')

/-- The product a harness name stands for. -/
def canonicalHarness (normalized : String) : String :=
  if normalized = "claude" then "claude-code"
  else if normalized ∈ ["cline-cli", "cline-vscode"] then "cline"
  else if normalized ∈ ["kimi-code", "kimi-cli"] then "kimi"
  else if normalized ∈ ["grok-build", "grok-build-cli", "xai-grok"] then "grok"
  else if normalized ∈ ["pi-agent", "pi-coding-agent"] then "pi"
  else if normalized = "oh-my-pi" then "omp"
  else if normalized ∈ ["zai", "z-code", "zai-zcode"] then "zcode"
  else if normalized ∈ ["devin-cli", "cognition-devin"] then "devin"
  else normalized

/-- A valid selector has no white space to trim. -/
def normalizedHarnessSelector (value : String) : Option String :=
  if !validSelectorKey value then none
  else some (canonicalHarness (String.ofList (value.toList.map (fun c =>
    if Lib.asciiLower c = '_' then '-' else Lib.asciiLower c))))

/-- Every key normalises, and keys that normalise alike have one value. -/
def selectorsAgree {α : Type} [DecidableEq α] : List (String × α) → List (String × α) → Bool
  | _, [] => true
  | canonical, (key, value) :: rest =>
    match normalizedHarnessSelector key with
    | none => false
    | some name => match canonical.lookup name with
      | some previous => previous == value && selectorsAgree ((name, value) :: canonical) rest
      | none => selectorsAgree ((name, value) :: canonical) rest

def validateHarnessActionMap (map : SortedMap String) (maximum : Nat) : Bool :=
  validateActionMap map maximum && selectorsAgree [] map.pairs

def validateRiskActionMap (map : SortedMap String) (maximum : Nat) : Bool :=
  validateActionMap map maximum && map.pairs.all (fun q => validRiskActionKeys.contains q.1)

/-! ### MCP selectors -/

def mcpToken (value : List Char) : Bool :=
  !value.isEmpty && byteLength value ≤ 120 &&
    value.all (fun c => Lib.isAsciiAlphanumeric c || c == '_' || c == '.' || c == '-')

/-- The namespace of an MCP tool name, its separator included: the server, and the connector below `codex_apps`. -/
def mcpToolNamespace (tool : List Char) : Option (List Char) :=
  if 160 < byteLength tool then none
  else match tool with
    | 'm' :: 'c' :: 'p' :: '_' :: '_' :: rest =>
      match Lib.splitOnce ['_', '_'] rest with
      | none => none
      | some (server, tail) =>
        if !(Lib.splitText ['_', '_'] rest.length rest).all mcpToken then none
        else
          let connector := if server = "codex_apps".toList then Lib.splitOnce ['_', '_'] tail else none
          let boundary := 5 + server.length + 2 + (connector.elim 0 (fun q => q.1.length + 2))
          let name := connector.elim tail Prod.snd
          if 120 < byteLength name || 155 < boundary then none else some (tool.take boundary)
    | _ => none

def validateMcpToolActions (actions : SortedMap String) : Bool :=
  actions.pairs.length ≤ maxMcpToolActions && actions.pairs.all (fun q =>
    match Lib.splitOnce [':'] q.1.toList with
    | none => false
    | some (harness, tool) =>
      if !mcpToken harness || normalizedHarnessSelector (String.ofList harness) ≠ some (String.ofList harness) then
        false
      else if tool.getLast? = some '*' then
        q.2 == "block" && mcpToolNamespace (tool.dropLast ++ "probe".toList) == some tool.dropLast
      else ["allow", "review", "block"].contains q.2 && (mcpToolNamespace tool).isSome)

def validateMcpProviderActions (actions : SortedMap String) : Bool :=
  actions.pairs.length ≤ maxMcpToolActions && actions.pairs.all (fun q =>
    match q.1.toList.splitOnP (· == ':') with
    | [harness, ns, provider, accounts, slug] =>
      provider == "composio".toList && accounts == "all-accounts".toList && ["review", "block"].contains q.2 &&
        normalizedHarnessSelector (String.ofList harness) == some (String.ofList harness) &&
        !slug.isEmpty && byteLength slug ≤ 128 &&
        slug.all (fun c => Lib.isAsciiAlphanumeric c || c == '_' || c == '.' || c == '-') &&
        slug.head?.all Lib.isAsciiAlphanumeric && mcpToolNamespace (ns ++ "probe".toList) == some ns
    | _ => false)

/-- `validate_effective_policy`; every failure is the one policy error. -/
def EffectiveNativePolicyV3.validate (p : EffectiveNativePolicyV3) : Bool :=
  [p.defaultAction, p.unknownPublisherAction, p.changedHashAction, p.newNetworkDomainAction, p.subprocessAction].all
      validateAction &&
    validProtectionPostures.contains p.protectionPosture && validSecurityLevels.contains p.securityLevel &&
    validSandboxAnalysis.contains p.sandboxAnalysis && validReceiptRedactionLevels.contains p.receiptRedactionLevel &&
    [p.protectionPosture, p.securityLevel, p.sandboxAnalysis, p.receiptRedactionLevel].all validBoundedString &&
    validateRiskActionMap p.riskActions maxMapEntries && validateHarnessActionMap p.harnessActions maxMapEntries &&
    validateActionMap p.publisherActions maxMapEntries && validateActionMap p.artifactActions maxMapEntries &&
    validateMcpToolActions p.mcpToolActions && validateMcpProviderActions p.mcpProviderActions &&
    p.mcpProviderCatalogHash.all Lib.isHexDigest && p.harnessRiskActions.pairs.length ≤ maxHarnessEntries &&
    p.harnessRiskActions.pairs.all (fun q => validSelectorKey q.1 && validateRiskActionMap q.2 maxMapEntries) &&
    selectorsAgree [] p.harnessRiskActions.pairs

/-! ## The JSON form -/

def actionMap : Codec (SortedMap String) := SortedMap.codec .string

def riskMap : Codec (SortedMap (SortedMap String)) := SortedMap.codec actionMap

def hashOption : Codec (Option String) := Codec.string.nullable (fun _ h => by cases h)

/-- The members of the written record, in key order. -/
def EffectiveNativePolicyV3.members (p : EffectiveNativePolicyV3) : List (String × Json) :=
  [("artifact_actions", actionMap.encode p.artifactActions), ("changed_hash_action", .str p.changedHashAction),
    ("default_action", .str p.defaultAction), ("harness_actions", actionMap.encode p.harnessActions),
    ("harness_risk_actions", riskMap.encode p.harnessRiskActions)] ++
  Json.mapMember .string "mcp_provider_actions" p.mcpProviderActions ++
  Json.someMember hashOption "mcp_provider_catalog_hash" p.mcpProviderCatalogHash ++
  Json.mapMember .string "mcp_tool_actions" p.mcpToolActions ++
  [("new_network_domain_action", .str p.newNetworkDomainAction), ("protection_posture", .str p.protectionPosture),
    ("publisher_actions", actionMap.encode p.publisherActions),
    ("receipt_redaction_level", .str p.receiptRedactionLevel), ("risk_actions", actionMap.encode p.riskActions),
    ("sandbox_analysis", .str p.sandboxAnalysis), ("security_level", .str p.securityLevel),
    ("subprocess_action", .str p.subprocessAction), ("unknown_publisher_action", .str p.unknownPublisherAction)]

def effectivePolicyMembers : List String :=
  ["protection_posture", "security_level", "default_action", "unknown_publisher_action", "changed_hash_action",
    "new_network_domain_action", "subprocess_action", "risk_actions", "harness_risk_actions", "harness_actions",
    "publisher_actions", "artifact_actions", "mcp_tool_actions", "mcp_provider_actions", "mcp_provider_catalog_hash",
    "sandbox_analysis", "receipt_redaction_level"]

def EffectiveNativePolicyV3.codec : Codec EffectiveNativePolicyV3 where
  encode p := .obj p.members
  decode
    | .obj ms => if !Json.onlyMembers ms effectivePolicyMembers then none else do
        let protectionPosture ← Json.required .string ms "protection_posture"
        let securityLevel ← Json.required .string ms "security_level"
        let defaultAction ← Json.required .string ms "default_action"
        let unknownPublisherAction ← Json.required .string ms "unknown_publisher_action"
        let changedHashAction ← Json.required .string ms "changed_hash_action"
        let newNetworkDomainAction ← Json.required .string ms "new_network_domain_action"
        let subprocessAction ← Json.required .string ms "subprocess_action"
        let riskActions ← Json.required actionMap ms "risk_actions"
        let harnessRiskActions ← Json.required riskMap ms "harness_risk_actions"
        let harnessActions ← Json.required actionMap ms "harness_actions"
        let publisherActions ← Json.required actionMap ms "publisher_actions"
        let artifactActions ← Json.required actionMap ms "artifact_actions"
        let mcpToolActions ← Json.defaulted actionMap .empty ms "mcp_tool_actions"
        let mcpProviderActions ← Json.defaulted actionMap .empty ms "mcp_provider_actions"
        let mcpProviderCatalogHash ← Json.optional hashOption ms "mcp_provider_catalog_hash"
        let sandboxAnalysis ← Json.required .string ms "sandbox_analysis"
        let receiptRedactionLevel ← Json.required .string ms "receipt_redaction_level"
        some ⟨protectionPosture, securityLevel, defaultAction, unknownPublisherAction, changedHashAction,
          newNetworkDomainAction, subprocessAction, riskActions, harnessRiskActions, harnessActions, publisherActions,
          artifactActions, mcpToolActions, mcpProviderActions, mcpProviderCatalogHash, sandboxAnalysis,
          receiptRedactionLevel⟩
    | _ => none
  decode_encode p := by
    have honly : Json.onlyMembers p.members effectivePolicyMembers = true := by
      simp only [EffectiveNativePolicyV3.members, Json.onlyMembers_append, Bool.and_eq_true]
      refine ⟨⟨⟨⟨?_, ?_⟩, ?_⟩, ?_⟩, ?_⟩
      · simp [Json.onlyMembers, effectivePolicyMembers]
      · exact Json.onlyMembers_mapMember _ _ (by decide)
      · exact Json.onlyMembers_someMember _ _ (by decide)
      · exact Json.onlyMembers_mapMember _ _ (by decide)
      · simp [Json.onlyMembers, effectivePolicyMembers]
    have htool : Json.defaulted actionMap .empty p.members "mcp_tool_actions" = some p.mcpToolActions :=
      Json.defaulted_of_lookup (by
        simp [EffectiveNativePolicyV3.members, List.lookup_append, Json.lookup_member, Json.lookup_mapMember,
          Json.lookup_someMember])
    have hprovider : Json.defaulted actionMap .empty p.members "mcp_provider_actions" = some p.mcpProviderActions :=
      Json.defaulted_of_lookup (by
        simp [EffectiveNativePolicyV3.members, List.lookup_append, Json.lookup_member, Json.lookup_mapMember,
          Json.lookup_someMember])
    have hhash : Json.optional hashOption p.members "mcp_provider_catalog_hash" = some p.mcpProviderCatalogHash :=
      Json.optional_of_lookup (by
        simp [EffectiveNativePolicyV3.members, List.lookup_append, Json.lookup_member, Json.lookup_mapMember,
          Json.lookup_someMember])
    simp only [honly, htool, hprovider, hhash]
    simp [EffectiveNativePolicyV3.members, Json.required, List.lookup_append, Json.lookup_member, Json.lookup_mapMember,
      Json.lookup_someMember, Codec.string, actionMap, riskMap, Codec.decode_encode]

end Policy
end Guard
