import HolGuard.Lib.Checks
/-!
# How long a network decision lasts

`evaluate_policy` answers a flow request with the most restrictive action of the rules that match it, and says until
when the answer may be kept.  Rules and DNS bindings lapse on their own clocks, and a lapsed deny only widens the
answer, so the expiry has to cover exactly the rules with the answer's own action and the binding a host was verified
by.

The text forms behind the digests and the address arithmetic of `ipaddress` are parameters.  The checks of the contract
types hold of every value that reaches the evaluator; those no modelled function reads are left out.
-/
namespace Guard
namespace Network

/-! ## Contract -/

inductive NetworkAction where
  | deny
  | approve
  | allow
  deriving DecidableEq

/-- `_ACTION_ORDER`. -/
def NetworkAction.order : NetworkAction → Nat
  | .deny => 0
  | .approve => 1
  | .allow => 2

inductive NetworkProtocol where
  | tcp
  | udp
  | dns
  | unknown
  deriving DecidableEq

inductive DestinationKind where
  | host
  | ip
  | cidr
  | privateClass
  deriving DecidableEq

inductive PrivateNetworkClass where
  | loopback
  | linkLocal
  | private_
  | multicast
  | unspecified
  deriving DecidableEq

def PrivateNetworkClass.value : PrivateNetworkClass → String
  | .loopback => "loopback"
  | .linkLocal => "link-local"
  | .private_ => "private"
  | .multicast => "multicast"
  | .unspecified => "unspecified"

structure Destination where
  kind : DestinationKind
  value : String
  deriving DecidableEq

structure PortRange where
  start : Nat
  stop : Nat
  ordered : 1 ≤ start ∧ start ≤ stop ∧ stop ≤ 65535

structure ProcessTreeIdentity where
  installationId : String
  sessionId : String
  rootPid : Nat
  rootStartTimeNs : Nat
  executableDigest : String

inductive ProcessScopeKind where
  | installation
  | session
  deriving DecidableEq

structure ProcessScope where
  kind : ProcessScopeKind
  value : String

structure NetworkRule where
  ruleId : String
  action : NetworkAction
  destinations : List Destination
  protocols : List NetworkProtocol
  ports : List PortRange
  processScopes : List ProcessScope
  expiresAtEpochSeconds : Option Int

structure NetworkPolicy where
  policyId : String
  generation : Nat
  rules : List NetworkRule

structure NetworkFlowRequest where
  requestId : String
  processTree : ProcessTreeIdentity
  destination : Destination
  protocol : NetworkProtocol
  port : Nat
  observedAtEpochMs : Int
  connectedAddress : Option String
  dnsBindingDigest : Option String

structure DnsResolutionBinding where
  bindingId : String
  processTreeDigest : String
  queryName : String
  canonicalName : String
  addresses : List String
  observedAtEpochMs : Int
  expiresAtEpochMs : Int
  resolverDigest : String
  follows : observedAtEpochMs < expiresAtEpochMs

structure ConnectionObservation where
  flowId : String
  processTree : ProcessTreeIdentity
  remoteAddress : String
  remotePort : Nat
  protocol : NetworkProtocol
  observedAtEpochMs : Int

/-- What the evaluator asks of `ipaddress` and of `canonical_digest`. -/
structure Platform where
  compressed : String → String
  inNetwork : String → String → Bool
  isLoopback : String → Bool
  isLinkLocal : String → Bool
  isMulticast : String → Bool
  isUnspecified : String → Bool
  isPrivate : String → Bool
  treeDigest : ProcessTreeIdentity → String
  bindingDigest : DnsResolutionBinding → String
  requestDigest : NetworkFlowRequest → String
  policyDigest : NetworkPolicy → String

structure NetworkDecision where
  requestDigest : String
  policyDigest : String
  generation : Nat
  action : NetworkAction
  ruleIds : List String
  expiresAtEpochMs : Int
  deriving DecidableEq

structure PolicyEvaluation where
  decision : NetworkDecision
  matchedRuleIds : List String
  deriving DecidableEq

/-! ## Matching -/

variable (π : Platform)

def classifyPrivateAddress (value : String) : Option PrivateNetworkClass :=
  if π.isLoopback value then some .loopback
  else if π.isLinkLocal value then some .linkLocal
  else if π.isMulticast value then some .multicast
  else if π.isUnspecified value then some .unspecified
  else if π.isPrivate value then some .private_
  else none

def destinationMatches (rule requested : Destination) : Bool :=
  if rule = requested then true
  else if rule.kind = .cidr ∧ requested.kind = .ip then π.inNetwork requested.value rule.value
  else if rule.kind = .privateClass ∧ requested.kind = .ip then
    (classifyPrivateAddress π requested.value).map PrivateNetworkClass.value == some rule.value
  else false

def scopeMatches (scope : ProcessScope) (processTree : ProcessTreeIdentity) : Bool :=
  match scope.kind with
  | .installation => scope.value == processTree.installationId
  | .session => scope.value == processTree.sessionId

def requestedDestinations (request : NetworkFlowRequest) : List Destination :=
  match request.destination.kind, request.connectedAddress with
  | .host, some address => [request.destination, ⟨.ip, π.compressed address⟩]
  | _, _ => [request.destination]

/-- The checks of `_rule_matches` after the one that reads the clock. -/
def ruleApplies (rule : NetworkRule) (request : NetworkFlowRequest) : Bool :=
  if request.protocol ∉ rule.protocols then false
  else if !rule.ports.isEmpty && !rule.ports.any (fun p => p.start ≤ request.port && request.port ≤ p.stop) then false
  else if !rule.processScopes.isEmpty && !rule.processScopes.any (scopeMatches · request.processTree) then false
  else rule.destinations.any (fun d => (requestedDestinations π request).any (destinationMatches π d))

def ruleMatches (rule : NetworkRule) (request : NetworkFlowRequest) (now : Int) : Bool :=
  if rule.expiresAtEpochSeconds.any (fun s => s * 1000 ≤ now) then false
  else ruleApplies π rule request

inductive CorrelationStatus where
  | matched
  | expired
  | beforeResolution
  | processMismatch
  | addressMismatch
  | missing
  deriving DecidableEq

def correlateDnsConnection (observation : ConnectionObservation) : Option DnsResolutionBinding → CorrelationStatus
  | none => .missing
  | some binding =>
    if binding.processTreeDigest ≠ π.treeDigest observation.processTree then .processMismatch
    else if observation.observedAtEpochMs < binding.observedAtEpochMs then .beforeResolution
    else if observation.observedAtEpochMs ≥ binding.expiresAtEpochMs then .expired
    else if observation.remoteAddress ∉ binding.addresses then .addressMismatch
    else .matched

/-- `ConnectionObservation(…)` of a request: its own checks are among those the request passed. -/
def NetworkFlowRequest.observation (request : NetworkFlowRequest) (address : String) : ConnectionObservation where
  flowId := request.requestId
  processTree := request.processTree
  remoteAddress := π.compressed address
  remotePort := request.port
  protocol := request.protocol
  observedAtEpochMs := request.observedAtEpochMs

/-- One turn of the loop of `_verified_dns_binding`: whether it returns the binding. -/
def bindingVerified (request : NetworkFlowRequest) (digest address : String) (now : Int)
    (binding : DnsResolutionBinding) : Bool :=
  if request.destination.value ∉ [binding.queryName, binding.canonicalName] then false
  else if address ∉ binding.addresses then false
  else if π.bindingDigest binding ≠ digest then false
  else if now ≥ binding.expiresAtEpochMs then false
  else correlateDnsConnection π (request.observation π address) (some binding) = .matched

def protocolRequiresDnsBinding (protocol : NetworkProtocol) (destination : Destination) : Bool :=
  destination.kind = .host && (protocol = .tcp || protocol = .udp)

def verifiedDnsBinding (request : NetworkFlowRequest) (bindings : List DnsResolutionBinding) (now : Int) :
    Option DnsResolutionBinding :=
  if !protocolRequiresDnsBinding request.protocol request.destination then none
  else match request.dnsBindingDigest, request.connectedAddress with
    | some digest, some address => bindings.find? (bindingVerified π request digest address now)
    | _, _ => none

/-! ## Evaluation -/

/-- The action of an evaluation and the rules it names. -/
def choose (request : NetworkFlowRequest) (matching : List NetworkRule) (binding : Option DnsResolutionBinding) :
    NetworkAction × List String :=
  if request.protocol = .unknown then (.deny, ["builtin.unsupported-protocol"])
  else if protocolRequiresDnsBinding request.protocol request.destination && binding.isNone then
    (.deny, ["builtin.dns-binding-required"])
  else match (matching.map NetworkRule.action).argmin NetworkAction.order with
    | some action => (action, (matching.filter (·.action = action)).map NetworkRule.ruleId)
    | none => (.deny, ["builtin.default-deny"])

def expiryCandidates (action : NetworkAction) (matching : List NetworkRule) (binding : Option DnsResolutionBinding) :
    List Int :=
  if action = .allow ∨ action = .approve then
    (matching.filter (·.action = action)).filterMap (fun rule => rule.expiresAtEpochSeconds.map (· * 1000)) ++
      (binding.map DnsResolutionBinding.expiresAtEpochMs).toList
  else []

/-- The evaluation after the checks of the two clock arguments. -/
def evaluated (policy : NetworkPolicy) (request : NetworkFlowRequest) (now ttl : Int)
    (bindings : List DnsResolutionBinding) : PolicyEvaluation :=
  let matching := policy.rules.filter (ruleMatches π · request now)
  let binding := verifiedDnsBinding π request bindings now
  let chosen := choose request matching binding
  { decision :=
      { requestDigest := π.requestDigest request
        policyDigest := π.policyDigest policy
        generation := policy.generation
        action := chosen.1
        ruleIds := chosen.2.dedup.insertionSort (· ≤ ·)
        expiresAtEpochMs := (expiryCandidates chosen.1 matching binding).foldl min (now + ttl) }
    matchedRuleIds := matching.map NetworkRule.ruleId }

def evaluatePolicy (policy : NetworkPolicy) (request : NetworkFlowRequest) (now ttl : Int)
    (bindings : List DnsResolutionBinding) : Except String PolicyEvaluation :=
  if now ≤ 0 then .error "now_epoch_ms must be positive"
  else if ¬ (1 ≤ ttl ∧ ttl ≤ 300000) then .error "decision_ttl_ms must be within 1..300000"
  else .ok (evaluated π policy request now ttl bindings)

/-! ## What time changes -/

variable {π} {rule : NetworkRule} {request : NetworkFlowRequest} {policy : NetworkPolicy} {now t : Int}
  {bindings : List DnsResolutionBinding} {binding : DnsResolutionBinding}

theorem ruleMatches_iff : ruleMatches π rule request now = true ↔
    (∀ s, rule.expiresAtEpochSeconds = some s → now < s * 1000) ∧ ruleApplies π rule request = true := by
  unfold ruleMatches
  cases rule.expiresAtEpochSeconds with
  | none => simp
  | some s => simp

/-- A rule that matches later has matched all along. -/
theorem ruleMatches_of_later (hle : now ≤ t) (h : ruleMatches π rule request t = true) :
    ruleMatches π rule request now = true := by
  rw [ruleMatches_iff] at h ⊢
  exact ⟨fun s hs => lt_of_le_of_lt hle (h.1 s hs), h.2⟩

theorem bindingVerified_iff {digest address : String} : bindingVerified π request digest address now binding = true ↔
    (request.destination.value = binding.queryName ∨ request.destination.value = binding.canonicalName) ∧
      address ∈ binding.addresses ∧ π.bindingDigest binding = digest ∧ now < binding.expiresAtEpochMs ∧
      correlateDnsConnection π (request.observation π address) (some binding) = .matched := by
  simp [bindingVerified]

theorem processTree_of_matched {observation : ConnectionObservation}
    (h : correlateDnsConnection π observation (some binding) = .matched) :
    binding.processTreeDigest = π.treeDigest observation.processTree := by
  by_contra hne
  simp [correlateDnsConnection, hne] at h

/-- A binding is found again until it lapses: those before it in the list were refused and stay refused. -/
theorem verifiedDnsBinding_later (hle : now ≤ t)
    (hlive : ∀ b, verifiedDnsBinding π request bindings now = some b → t < b.expiresAtEpochMs) :
    verifiedDnsBinding π request bindings t = verifiedDnsBinding π request bindings now := by
  unfold verifiedDnsBinding at hlive ⊢
  split
  · rfl
  · next hneed =>
    rw [if_neg hneed] at hlive
    split
    · next digest address hdigest haddress =>
      simp only [hdigest, haddress] at hlive
      refine Lib.find?_eq_of_imp (fun b hb => ?_) (fun b hb => ?_)
      · rw [bindingVerified_iff] at hb ⊢
        exact ⟨hb.1, hb.2.1, hb.2.2.1, lt_of_le_of_lt hle hb.2.2.2.1, hb.2.2.2.2⟩
      · have hnow := bindingVerified_iff.1 (List.find?_some hb)
        exact bindingVerified_iff.2 ⟨hnow.1, hnow.2.1, hnow.2.2.1, hlive b hb, hnow.2.2.2.2⟩
    · rfl

/-- What a verified binding has to do with the request, at any time: it is the one whose digest the request names, it
names the host and lists the connected address, and the connection correlates with it. -/
structure Verifies (π : Platform) (request : NetworkFlowRequest) (binding : DnsResolutionBinding) : Prop where
  digest : request.dnsBindingDigest = some (π.bindingDigest binding)
  host : request.destination.value = binding.queryName ∨ request.destination.value = binding.canonicalName
  connection : ∃ address, request.connectedAddress = some address ∧ address ∈ binding.addresses ∧
    correlateDnsConnection π (request.observation π address) (some binding) = .matched
  processTree : binding.processTreeDigest = π.treeDigest request.processTree

theorem verifiedDnsBinding_verifies (h : verifiedDnsBinding π request bindings now = some binding) :
    binding ∈ bindings ∧ Verifies π request binding := by
  unfold verifiedDnsBinding at h
  repeat' split at h
  any_goals cases h
  rename_i digest address hdigest haddress
  obtain ⟨hhost, hlisted, hsame, -, hmatched⟩ := bindingVerified_iff.1 (List.find?_some h)
  refine ⟨List.mem_of_find?_eq_some h, ⟨?_, hhost, ⟨address, haddress, hlisted, hmatched⟩, ?_⟩⟩
  · rw [hdigest, hsame]
  · exact processTree_of_matched hmatched

/-! ## What the expiry covers -/

theorem lt_foldl_min {xs : List Int} {a : Int} : t < xs.foldl min a ↔ t < a ∧ ∀ x ∈ xs, t < x := by
  induction xs generalizing a with
  | nil => simp
  | cons x xs ih => simp [ih, and_assoc]

theorem lt_expiryCandidates {action : NetworkAction} {matching : List NetworkRule} {found : Option DnsResolutionBinding}
    (haction : action ≠ .deny) (h : ∀ x ∈ expiryCandidates action matching found, t < x) :
    (∀ rule ∈ matching, rule.action = action → ∀ s, rule.expiresAtEpochSeconds = some s → t < s * 1000) ∧
      ∀ b, found = some b → t < b.expiresAtEpochMs := by
  have hkind : action = .allow ∨ action = .approve := by
    cases action with
    | deny => exact absurd rfl haction
    | approve => exact .inr rfl
    | allow => exact .inl rfl
  simp only [expiryCandidates, if_pos hkind, List.mem_append, List.mem_filterMap, List.mem_filter] at h
  refine ⟨fun rule hrule hact s hs => h _ (.inl ⟨rule, ⟨hrule, by simpa using hact⟩, by simp [hs]⟩), ?_⟩
  rintro b rfl
  exact h _ (.inr (by simp))

/-- Where no rule with a narrower action is left out, the answer is its own action as long as a rule with it remains. -/
theorem choose_eq_of_remaining {matching remaining : List NetworkRule} {found : Option DnsResolutionBinding}
    (hsub : ∀ r ∈ remaining, r ∈ matching)
    (hkept : ∀ r ∈ matching, r.action = (choose request matching found).1 → r ∈ remaining)
    (haction : (choose request matching found).1 ≠ .deny) :
    (choose request remaining found).1 = (choose request matching found).1 := by
  unfold choose at hkept haction ⊢
  split
  · rfl
  · split
    · rfl
    · next hunknown hbound =>
      simp only [if_neg hunknown, if_neg hbound] at hkept haction
      cases hbest : (matching.map NetworkRule.action).argmin NetworkAction.order with
      | none => simp [hbest] at haction
      | some action =>
        simp only [hbest] at hkept
        obtain ⟨rule, hrule, rfl⟩ := List.mem_map.1 (List.argmin_mem hbest)
        have hmem := List.mem_map_of_mem (f := NetworkRule.action) (hkept rule hrule rfl)
        cases hleft : (remaining.map NetworkRule.action).argmin NetworkAction.order with
        | none => simp [List.argmin_eq_none.1 hleft] at hmem
        | some least =>
          -- each of the two is least in a list that holds the other
          have hle := List.le_of_mem_argmin hmem hleft
          obtain ⟨r, hr, rfl⟩ := List.mem_map.1 (List.argmin_mem hleft)
          have hge := List.le_of_mem_argmin (List.mem_map_of_mem (f := NetworkRule.action) (hsub r hr)) hbest
          simp only
          revert hle hge
          cases r.action <;> cases rule.action <;> simp [NetworkAction.order]

theorem isSome_of_choose {matching : List NetworkRule} {found : Option DnsResolutionBinding}
    (hneed : protocolRequiresDnsBinding request.protocol request.destination = true)
    (h : (choose request matching found).1 ≠ .deny) : found.isSome = true := by
  cases found with
  | some b => rfl
  | none =>
    unfold choose at h
    split at h
    · exact absurd rfl h
    · simp [hneed] at h

/-- An answer that grants something is given again until it expires. -/
theorem evaluated_action_later {ttl ttl' : Int} (hle : now ≤ t)
    (h : t < (evaluated π policy request now ttl bindings).decision.expiresAtEpochMs)
    (haction : (evaluated π policy request now ttl bindings).decision.action ≠ .deny) :
    (evaluated π policy request t ttl' bindings).decision.action =
      (evaluated π policy request now ttl bindings).decision.action := by
  obtain ⟨hrules, hbinding⟩ := lt_expiryCandidates haction (lt_foldl_min.1 h).2
  simp only [evaluated, verifiedDnsBinding_later hle hbinding] at hrules haction ⊢
  refine choose_eq_of_remaining (fun r hr => ?_) (fun r hr hact => ?_) haction
  · obtain ⟨hmem, hmatch⟩ := List.mem_filter.1 hr
    exact List.mem_filter.2 ⟨hmem, ruleMatches_of_later hle hmatch⟩
  · obtain ⟨hmem, hmatch⟩ := List.mem_filter.1 hr
    exact List.mem_filter.2 ⟨hmem, ruleMatches_iff.2 ⟨hrules r hr hact, (ruleMatches_iff.1 hmatch).2⟩⟩

/-- **A decision lasts.** -/
theorem decision_lasts_until_expiry (π : Platform) (policy : NetworkPolicy) (request : NetworkFlowRequest)
    (bindings : List DnsResolutionBinding) (now t ttl ttl' : Int) (cached : PolicyEvaluation)
    (hcached : evaluatePolicy π policy request now ttl bindings = .ok cached) (hlater : now ≤ t)
    (hlive : t < cached.decision.expiresAtEpochMs) (httl : 1 ≤ ttl' ∧ ttl' ≤ 300000) :
    (∃ fresh, evaluatePolicy π policy request t ttl' bindings = .ok fresh ∧
      cached.decision.action.order ≤ fresh.decision.action.order ∧
      (cached.decision.action = .allow ∨ cached.decision.action = .approve →
        fresh.decision.action = cached.decision.action)) ∧
    (cached.decision.action = .allow → request.destination.kind = .host →
      (request.protocol = .tcp ∨ request.protocol = .udp) →
      ∃ binding ∈ bindings, Verifies π request binding ∧ t < binding.expiresAtEpochMs) := by
  obtain ⟨hpos, hcached⟩ := Lib.ite_error_eq_ok.1 hcached
  obtain ⟨_, hcached⟩ := Lib.ite_error_eq_ok.1 hcached
  cases hcached
  refine ⟨⟨evaluated π policy request t ttl' bindings, ?_, ?_, fun hgrant => ?_⟩, fun hallow hhost hprotocol => ?_⟩
  · rw [evaluatePolicy, if_neg (by omega), if_neg (not_not.2 httl)]
  · by_cases haction : (evaluated π policy request now ttl bindings).decision.action = .deny
    · rw [haction]
      exact Nat.zero_le _
    · rw [evaluated_action_later hlater hlive haction]
  · exact evaluated_action_later hlater hlive (by rcases hgrant with h | h <;> simp [h])
  · have haction : (evaluated π policy request now ttl bindings).decision.action ≠ .deny := by simp [hallow]
    obtain ⟨binding, hfound⟩ := Option.isSome_iff_exists.1
      (isSome_of_choose (by simpa [protocolRequiresDnsBinding, hhost] using hprotocol) haction)
    obtain ⟨hmem, hverifies⟩ := verifiedDnsBinding_verifies hfound
    exact ⟨binding, hmem, hverifies, (lt_expiryCandidates haction (lt_foldl_min.1 hlive).2).2 binding hfound⟩

def samplePlatform : Platform where
  compressed := id
  inNetwork := fun _ _ => false
  isLoopback := fun _ => false
  isLinkLocal := fun _ => false
  isMulticast := fun _ => false
  isUnspecified := fun _ => false
  isPrivate := fun _ => false
  treeDigest := ProcessTreeIdentity.sessionId
  bindingDigest := DnsResolutionBinding.bindingId
  requestDigest := NetworkFlowRequest.requestId
  policyDigest := NetworkPolicy.policyId

def samplePolicy : NetworkPolicy where
  policyId := "policy"
  generation := 1
  rules := [⟨"allow", .allow, [⟨.host, "example.org"⟩], [.tcp], [⟨400, 500, by decide⟩], [], some 2⟩,
    ⟨"approve", .approve, [⟨.host, "example.org"⟩], [.tcp], [], [], some 1⟩]

def sampleFlow : NetworkFlowRequest where
  requestId := "flow"
  processTree := ⟨"installation", "session", 1, 1, "digest"⟩
  destination := ⟨.host, "example.org"⟩
  protocol := .tcp
  port := 443
  observedAtEpochMs := 900
  connectedAddress := some "192.0.2.1"
  dnsBindingDigest := some "binding"

def sampleBinding : DnsResolutionBinding :=
  ⟨"binding", "session", "example.org", "example.org", ["192.0.2.1"], 800, 1500, "resolver", by decide⟩

/-- A binding of the same host that the request does not name. -/
def otherBinding : DnsResolutionBinding :=
  { sampleBinding with bindingId := "other", expiresAtEpochMs := 9000, follows := by decide }

/-- Once the approval rule has lapsed the host is allowed until the binding the request names lapses. -/
theorem allow_lasts_with_binding :
    (∃ fresh, evaluatePolicy samplePlatform samplePolicy sampleFlow 1400 30000 [otherBinding, sampleBinding] =
      .ok fresh ∧ fresh.decision.action = .allow) ∧
    ∃ binding ∈ [otherBinding, sampleBinding], samplePlatform.bindingDigest binding = "binding" ∧
      "192.0.2.1" ∈ binding.addresses ∧ 1400 < binding.expiresAtEpochMs := by
  have hcached : evaluatePolicy samplePlatform samplePolicy sampleFlow 1000 30000 [otherBinding, sampleBinding] =
      .ok ⟨⟨"flow", "policy", 1, .allow, ["allow"], 1500⟩, ["allow"]⟩ := by decide +kernel
  obtain ⟨⟨fresh, hfresh, _, hsame⟩, hbound⟩ := decision_lasts_until_expiry samplePlatform samplePolicy sampleFlow
    [otherBinding, sampleBinding] 1000 1400 30000 30000 _ hcached (by decide) (by decide) (by decide)
  obtain ⟨binding, hmem, hverifies, hlive⟩ := hbound rfl rfl (.inl rfl)
  obtain ⟨address, haddress, hlisted, -⟩ := hverifies.connection
  cases haddress
  exact ⟨⟨fresh, hfresh, hsame (.inl rfl)⟩, binding, hmem, (Option.some.inj hverifies.digest).symm, hlisted, hlive⟩

end Network
end Guard
