import HolGuard.Policy.EffectivePolicy
import HolGuard.Lib.AsciiText
import HolGuard.Lib.JsonEquality
import HolGuard.Lib.SortedRange
/-!
# Denied provider actions and batches

`denied_provider_execution`: a router tool that executes provider actions is refused as a whole while its namespace has
a denied action, unless it is the batch tool with arguments that can be read in one way only and whose members are all
well formed and none of them denied.
-/
namespace Guard
namespace Provider

open Lib (JsonTree SortedMap asciiLower eqIgnoreAsciiCase lastPiece afterLast byteLength)
open Policy (mcpToolNamespace)

/-! ## Choices -/

/-- What the keys of a namespace start with. -/
def providerKeyStart (harness ns : List Char) : List Char := harness ++ ':' :: ns ++ ":composio:all-accounts:".toList

def providerKey (harness ns slug : List Char) : String := String.ofList (providerKeyStart harness ns ++ slug)

def mcpProviderActionChoice (actions : SortedMap String) (harness tool slug : List Char) : Option String :=
  (mcpToolNamespace tool).bind (fun ns => actions.get? (providerKey harness ns slug))

def mcpProviderNamespaceHasDeny (actions : SortedMap String) (harness tool : List Char) : Bool :=
  match mcpToolNamespace tool with
  | none => false
  | some ns => (actions.startingWith (String.ofList (providerKeyStart harness ns))).any (fun q => q.2 == "block")

/-! ## Arguments -/

section Arguments

variable {N : Type} [DecidableEq N]

abbrev Value (N : Type) := JsonTree String N

def field (value : Value N) (key : String) : Option (Value N) :=
  match value with
  | .obj members => (members.find? (fun m => m.1 = key)).map Prod.snd
  | _ => none

def asStr : Value N → Option String
  | .str s => some s
  | _ => none

def asObject : Value N → Option (Value N)
  | .obj members => some (.obj members)
  | _ => none

def asArray : Value N → Option (List (Value N))
  | .arr items => some items
  | _ => none

def envelopeKeys : List String := ["tool_call", "toolCall", "preToolUse", "pre_tool_use"]

def argumentKeys : List String := ["tool_input", "toolInput", "arguments"]

/-- The payload and the objects under its envelope keys. -/
def envelopes (payload : Value N) : List (Value N) :=
  payload :: envelopeKeys.filterMap (fun key => (field payload key).bind asObject)

/-- Every value that stands for the arguments. -/
def candidates (payload : Value N) : List (Value N) :=
  (envelopes payload).flatMap (fun envelope => argumentKeys.filterMap (field envelope))

/-- The loop over the candidates: a second one must be the same. -/
def selectArguments : Option (Value N) → List (Value N) → Option (Value N)
  | selected, [] => selected
  | selected, candidate :: rest =>
    if selected.any (fun previous => decide (previous ≠ candidate)) then none else selectArguments (some candidate) rest

def unambiguousArguments (payload : Value N) : Option (Value N) :=
  (asObject payload).bind (fun record => selectArguments none (candidates record))

/-! ## Members -/

def slugChar (c : Char) : Bool := Lib.isAsciiAlphanumeric c || c == '_' || c == '.' || c == '-'

def wellFormedSlug (slug : List Char) : Bool :=
  !slug.isEmpty && byteLength slug ≤ 128 && slug.head?.all Lib.isAsciiAlphanumeric && slug.all slugChar

def accountValid (account : Option (Value N)) : Bool :=
  match account with
  | none => true
  | some .null => true
  | some (.str s) => !s.toList.isEmpty && byteLength s.toList ≤ 256 && Lib.trim s.toList == s.toList
  | some _ => false

/-- A member of the batch: an object with a slug, an object of arguments, perhaps an account, and nothing else. -/
def memberValid (member : Value N) : Bool :=
  match member with
  | .obj members =>
    match (field member "tool_slug").bind asStr with
    | none => false
    | some slug =>
      wellFormedSlug slug.toList && ((field member "arguments").bind asObject).isSome &&
        accountValid (field member "account") &&
        members.all (fun m => m.1 == "tool_slug" || m.1 == "arguments" || m.1 == "account")
  | _ => false

/-- A member slug that the policy denies, up to the case of ASCII letters. -/
def deniedMember (choices : SortedMap String) (harness tool slug : List Char) : Bool :=
  mcpProviderActionChoice choices harness tool slug == some "block" ||
    choices.pairs.any (fun q => q.2 == "block" && eqIgnoreAsciiCase (afterLast ':' q.1.toList) slug &&
      mcpProviderActionChoice choices harness tool (afterLast ':' q.1.toList) == some "block")

def opaqueExecution : String := "native_composio_opaque_execution_with_deny"

def deniedBatchMember : String := "native_composio_denied_batch_member"

/-- The name of a tool below its namespaces. -/
def toolName (tool : List Char) : List Char := (lastPiece tool).map asciiLower

/-- A tool of the router that may execute provider actions. -/
def isExecutionTool (tool : List Char) : Bool :=
  "composio_".toList.isPrefixOf (toolName tool) &&
    !(["composio_search_tools", "composio_get_tool_schemas", "composio_manage_connections"].map String.toList).contains
      (toolName tool)

/-- The part of the check that looks at the members. -/
def deniedMembers (choices : SortedMap String) (harness tool : List Char) (members : List (Value N)) : Option String :=
  if members.isEmpty || 50 < members.length then some opaqueExecution
  else if (members.filterMap (fun member => (field member "tool_slug").bind asStr)).any
      (fun slug => deniedMember choices harness tool slug.toList) then some deniedBatchMember
  else if members.all memberValid then none
  else some opaqueExecution

def deniedProviderExecution (choices : SortedMap String) (harness tool : List Char) (payload : Value N) :
    Option String :=
  if !isExecutionTool tool || !mcpProviderNamespaceHasDeny choices harness tool then none
  else if toolName tool ≠ "composio_multi_execute_tool".toList then some opaqueExecution
  else match (unambiguousArguments payload).bind asObject with
    | none => some opaqueExecution
    | some arguments => match (field arguments "tools").bind asArray with
      | none => some opaqueExecution
      | some members => deniedMembers choices harness tool members

/-! ## What escapes a deny -/

/-- The arguments of a payload can be read in one way: every place that may hold them holds the same value. -/
def ReadOneWay (payload arguments : Value N) : Prop :=
  (∃ members, payload = .obj members) ∧ arguments ∈ candidates payload ∧ ∀ c ∈ candidates payload, c = arguments

theorem selectArguments_some {selected a : Value N} : ∀ {list : List (Value N)},
    selectArguments (some selected) list = some a → a = selected ∧ ∀ c ∈ list, c = a
  | [], h => by
    cases h
    exact ⟨rfl, fun _ h => by cases h⟩
  | c :: list, h => by
    rw [selectArguments] at h
    split at h
    · cases h
    rename_i hsame
    have hc : selected = c := by simpa using hsame
    obtain ⟨ha, hall⟩ := selectArguments_some h
    exact ⟨ha.trans hc.symm, List.forall_mem_cons.2 ⟨ha.symm, hall⟩⟩

theorem readOneWay_of_unambiguousArguments {payload arguments : Value N}
    (h : unambiguousArguments payload = some arguments) : ReadOneWay payload arguments := by
  obtain ⟨record, hrecord, hselect⟩ := Option.bind_eq_some_iff.1 h
  have hobject : ∃ members, payload = .obj members ∧ record = payload := by
    cases payload with
    | obj members =>
      cases hrecord
      exact ⟨members, rfl, rfl⟩
    | null | bool | num | str | arr => cases hrecord
  obtain ⟨members, hpayload, rfl⟩ := hobject
  refine ⟨⟨members, hpayload⟩, ?_⟩
  cases hlist : candidates record with
  | nil =>
    rw [hlist] at hselect
    cases hselect
  | cons c list =>
    rw [hlist, selectArguments] at hselect
    obtain ⟨rfl, hall⟩ := selectArguments_some hselect
    exact ⟨List.mem_cons_self, List.forall_mem_cons.2 ⟨rfl, hall⟩⟩

omit [DecidableEq N] in
theorem asObject_eq {value object : Value N} (h : asObject value = some object) : object = value := by
  cases value <;> simp_all [asObject]

omit [DecidableEq N] in
theorem asArray_eq {value : Value N} {items : List (Value N)} (h : asArray value = some items) :
    value = .arr items := by
  cases value <;> simp_all [asArray]

omit [DecidableEq N] in
theorem asStr_eq {value : Value N} {s : String} (h : asStr value = some s) : value = .str s := by
  cases value <;> simp_all [asStr]

omit [DecidableEq N] in
theorem slug_of_memberValid {member : Value N} (h : memberValid member = true) :
    ∃ slug, field member "tool_slug" = some (.str slug) ∧ wellFormedSlug slug.toList = true := by
  cases member with
  | obj members =>
    rw [memberValid] at h
    split at h
    · cases h
    rename_i slug hslug
    obtain ⟨value, hvalue, hstr⟩ := Option.bind_eq_some_iff.1 hslug
    simp only [Bool.and_eq_true] at h
    exact ⟨slug, by rw [hvalue, asStr_eq hstr], h.1.1.1⟩
  | null | bool | num | str | arr => cases h

/-- Lower case keeps a colon, and makes none. -/
theorem asciiLower_eq_colon {c : Char} : asciiLower c = ':' ↔ c = ':' := by
  unfold Lib.asciiLower
  split
  · rename_i hupper
    simp only [Bool.and_eq_true, decide_eq_true_eq] at hupper
    constructor
    · intro h
      have hA : 65 ≤ c.toNat := hupper.1
      have hZ : c.toNat ≤ 90 := hupper.2
      have hval := congrArg Char.toNat h
      rw [Char.toNat_ofNat, if_pos (by left; omega)] at hval
      have hcolon : (':' : Char).toNat = 58 := by decide
      omega
    · rintro rfl
      exact absurd hupper (by decide)
  · rfl

theorem colon_notMem_of_eqIgnoreAsciiCase {denied slug : List Char} (h : eqIgnoreAsciiCase denied slug = true)
    (hslug : slug.all slugChar = true) : ':' ∉ denied := by
  intro hmem
  have hlower : ':' ∈ slug.map asciiLower := by
    rw [← beq_iff_eq.1 h]
    exact List.mem_map.2 ⟨':', hmem, by decide⟩
  obtain ⟨c, hc, hcolon⟩ := List.mem_map.1 hlower
  rw [asciiLower_eq_colon.1 hcolon] at hc
  exact absurd (List.all_eq_true.1 hslug ':' hc) (by decide)

/-- **A slug that equals a denied one up to case is denied.**  The last part of the key of a denied slug is the slug, as
a well-formed slug has no colon. -/
theorem deniedMember_of_eqIgnoreAsciiCase {choices : SortedMap String} {harness tool ns denied slug : List Char}
    (hns : mcpToolNamespace tool = some ns) (hdenied : choices.get? (providerKey harness ns denied) = some "block")
    (hslug : slug.all slugChar = true) (h : eqIgnoreAsciiCase denied slug = true) :
    deniedMember choices harness tool slug = true := by
  have hlast : afterLast ':' (providerKey harness ns denied).toList = denied := by
    have hcut : (providerKey harness ns denied).toList =
        (harness ++ ':' :: ns ++ ":composio:all-accounts".toList) ++ ':' :: denied := by
      simp [providerKey, providerKeyStart]
    rw [hcut]
    exact Lib.afterLast_append (colon_notMem_of_eqIgnoreAsciiCase h hslug)
  have hchoice : mcpProviderActionChoice choices harness tool denied = some "block" := by
    rw [mcpProviderActionChoice, hns]
    exact hdenied
  refine Bool.or_eq_true_iff.2 (.inr (List.any_eq_true.2 ⟨_, SortedMap.mem_of_get? hdenied, ?_⟩))
  rw [hlast, h, hchoice]
  rfl

theorem namespaceHasDeny {choices : SortedMap String} {harness tool ns denied : List Char}
    (hns : mcpToolNamespace tool = some ns) (hdenied : choices.get? (providerKey harness ns denied) = some "block") :
    mcpProviderNamespaceHasDeny choices harness tool = true := by
  rw [mcpProviderNamespaceHasDeny, hns]
  refine List.any_eq_true.2 ⟨_, SortedMap.mem_startingWith (SortedMap.mem_of_get? hdenied) ?_, rfl⟩
  simp [providerKey]

/-- **A batch does not bypass a deny.**  While a namespace has a denied action, an execution tool of it passes only as
the batch tool, with arguments that read one way and one to fifty members with well-formed slugs, none of which is a
denied slug of the harness and namespace in whatever case. -/
theorem batch_cannot_bypass_deny {N : Type} [DecidableEq N] (choices : SortedMap String) (harness tool ns : List Char)
    (payload : Value N) (hns : mcpToolNamespace tool = some ns)
    (hdeny : ∃ denied, choices.get? (providerKey harness ns denied) = some "block")
    (hexecution : isExecutionTool tool = true) (hpasses : deniedProviderExecution choices harness tool payload = none) :
    toolName tool = "composio_multi_execute_tool".toList ∧
    ∃ arguments members, ReadOneWay payload arguments ∧ field arguments "tools" = some (.arr members) ∧
      1 ≤ members.length ∧ members.length ≤ 50 ∧
      ∀ member ∈ members, ∃ slug, field member "tool_slug" = some (.str slug) ∧ wellFormedSlug slug.toList = true ∧
        ∀ denied, choices.get? (providerKey harness ns denied) = some "block" →
          eqIgnoreAsciiCase denied slug.toList = false := by
  obtain ⟨denied, hdenied⟩ := hdeny
  rw [deniedProviderExecution, hexecution, namespaceHasDeny hns hdenied] at hpasses
  simp only [Bool.not_true, Bool.or_self, Bool.false_eq_true, if_false] at hpasses
  split at hpasses
  · cases hpasses
  rename_i hname
  push Not at hname
  refine ⟨hname, ?_⟩
  split at hpasses
  · cases hpasses
  rename_i object harguments
  obtain ⟨arguments, hread, hobject⟩ := Option.bind_eq_some_iff.1 harguments
  cases asObject_eq hobject
  split at hpasses
  · cases hpasses
  rename_i members hmembers
  obtain ⟨array, htools, harray⟩ := Option.bind_eq_some_iff.1 hmembers
  rw [asArray_eq harray] at htools
  refine ⟨_, members, readOneWay_of_unambiguousArguments hread, htools, ?_⟩
  rw [deniedMembers] at hpasses
  split at hpasses
  · cases hpasses
  rename_i hcount
  simp only [Bool.or_eq_true, List.isEmpty_iff, decide_eq_true_eq, not_or, not_lt] at hcount
  refine ⟨List.length_pos_iff.2 hcount.1, hcount.2, fun member hmember => ?_⟩
  split at hpasses
  · cases hpasses
  rename_i hfree
  split at hpasses
  · rename_i hvalid
    obtain ⟨slug, hslug, hwell⟩ := slug_of_memberValid (List.all_eq_true.1 hvalid member hmember)
    refine ⟨slug, hslug, hwell, fun denied' hdenied' => ?_⟩
    by_contra hequal
    -- the first loop has looked at every slug that is a text
    refine hfree (List.any_eq_true.2 ⟨slug, List.mem_filterMap.2 ⟨member, hmember, by rw [hslug]; rfl⟩, ?_⟩)
    simp only [wellFormedSlug, Bool.and_eq_true] at hwell
    exact deniedMember_of_eqIgnoreAsciiCase hns hdenied' hwell.2 (by simpa using hequal)
  · cases hpasses

end Arguments

/-! ## A batch that passes -/

def slackDeny : SortedMap String :=
  ⟨[("codex:mcp__codex_apps__composio__:composio:all-accounts:SLACK_SEND_MESSAGE", "block")], by simp⟩

def batchTool : List Char := "mcp__codex_apps__composio__composio_multi_execute_tool".toList

/-- A call of the batch tool with the slugs. -/
def batchOf (slugs : List String) : Value Nat :=
  .obj [("tool_input", .obj [("tools", .arr (slugs.map fun slug =>
    .obj [("arguments", .obj []), ("tool_slug", .str slug)]))])]

/-- Three members pass, each with another slug than the denied one in whatever case; a batch with the denied slug in
another case does not. -/
theorem search_batch_passes :
    deniedProviderExecution slackDeny "codex".toList batchTool
      (batchOf ["SLACK_SEARCH_MESSAGES", "Slack_List_Channels", "GITHUB_GET_ISSUE"]) = none ∧
    (toolName batchTool = "composio_multi_execute_tool".toList ∧ ∃ arguments members,
      ReadOneWay (batchOf ["SLACK_SEARCH_MESSAGES", "Slack_List_Channels", "GITHUB_GET_ISSUE"]) arguments ∧
      field arguments "tools" = some (.arr members) ∧ 1 ≤ members.length ∧ members.length ≤ 50 ∧
      ∀ member ∈ members, ∃ slug, field member "tool_slug" = some (.str slug) ∧ wellFormedSlug slug.toList = true ∧
        eqIgnoreAsciiCase "SLACK_SEND_MESSAGE".toList slug.toList = false) ∧
    deniedProviderExecution slackDeny "codex".toList batchTool
      (batchOf ["SLACK_SEARCH_MESSAGES", "Slack_Send_Message"]) ≠ none := by
  have hns : mcpToolNamespace batchTool = some "mcp__codex_apps__composio__".toList := by decide +kernel
  have hdeny : slackDeny.get? (providerKey "codex".toList "mcp__codex_apps__composio__".toList
      "SLACK_SEND_MESSAGE".toList) = some "block" := by decide +kernel
  have hexecution : isExecutionTool batchTool = true := by decide +kernel
  have hbypass := fun payload : Value Nat => batch_cannot_bypass_deny slackDeny "codex".toList batchTool
    "mcp__codex_apps__composio__".toList payload hns ⟨_, hdeny⟩ hexecution
  have hpasses : deniedProviderExecution slackDeny "codex".toList batchTool
      (batchOf ["SLACK_SEARCH_MESSAGES", "Slack_List_Channels", "GITHUB_GET_ISSUE"]) = none := by decide +kernel
  refine ⟨hpasses, ?_, fun hbad => ?_⟩
  · obtain ⟨hname, arguments, members, hread, htools, hpos, hle, hmembers⟩ := hbypass _ hpasses
    refine ⟨hname, arguments, members, hread, htools, hpos, hle, fun member hmember => ?_⟩
    obtain ⟨slug, hslug, hwell, hfree⟩ := hmembers member hmember
    exact ⟨slug, hslug, hwell, hfree _ hdeny⟩
  · obtain ⟨-, arguments, members, hread, htools, -, -, hmembers⟩ := hbypass _ hbad
    cases List.mem_singleton.1 hread.2.1
    cases htools
    obtain ⟨slug, hslug, -, hfree⟩ := hmembers _ (List.mem_cons_of_mem _ List.mem_cons_self)
    cases hslug
    exact absurd (hfree _ hdeny) (by decide +kernel)

end Provider
end Guard
