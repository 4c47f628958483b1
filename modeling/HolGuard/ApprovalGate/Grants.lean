import HolGuard.ApprovalGate.State
/-!
# Grants of the approval gate

`_verify_or_raise_locked`, which asks for a factor and registers a grant, and `_validate_grant_locked`, which accepts
one.  Both work on what a guard home stores and on `_ACTIVE_GRANTS`, the table of the process that runs them; an outcome
also lists the factors the call compared and the grants it issued, accepted and consumed.
-/
namespace Guard.ApprovalGate

open Lib

variable {Home : Type} [DecidableEq Home]

inductive Purpose where
  | approvalDecision
  | policyWrite
  | policyClear
  | policyImport
  | policyExportProvenance
  | evidenceClear
  | queueClear
  | settingsWrite
  | nativePolicy
  | toolCallPolicy
  | headlessPolicySync
  | supplyChainFirewall
  | extensionControlMutation
  | localCliTrustMutation
  | protectionLifecycle
deriving DecidableEq

def Purpose.text : Purpose → String
  | .approvalDecision => "approval_decision"
  | .policyWrite => "policy_write"
  | .policyClear => "policy_clear"
  | .policyImport => "policy_import"
  | .policyExportProvenance => "policy_export_provenance"
  | .evidenceClear => "evidence_clear"
  | .queueClear => "queue_clear"
  | .settingsWrite => "settings_write"
  | .nativePolicy => "native_policy"
  | .toolCallPolicy => "tool_call_policy"
  | .headlessPolicySync => "headless_policy_sync"
  | .supplyChainFirewall => "supply_chain_firewall"
  | .extensionControlMutation => "extension_control_mutation"
  | .localCliTrustMutation => "local_cli_trust_mutation"
  | .protectionLifecycle => "protection_lifecycle"

/-- `ApprovalGateInput` without the fields only a settings payload reads. -/
structure GateInput where
  password : Option String := none
  totpCode : Option String := none
  useCooldown : Option Bool := none
  requireFreshTotp : Bool := false

/-- A member of a grant's `factor_set`. -/
inductive Proof where
  | password
  | totp
  | cooldown
deriving DecidableEq

structure Grant where
  grantId : String
  purpose : Purpose
  issuedAt : Int
  expiresAt : Int
  action : String
  scope : String
  subject : String
  sessionNonce : String
  factorSet : List Proof
  strict : Bool
  usedCooldown : Bool
  cooldownExpiresAt : Option Int
  passwordVerified : Bool
  totpVerified : Bool
deriving DecidableEq

/-- The fields of a grant that `_ACTIVE_GRANTS` repeats and `_validate_grant_locked` compares. -/
structure Terms where
  purpose : Purpose
  strict : Bool
  usedCooldown : Bool
  passwordVerified : Bool
  totpVerified : Bool
  action : String
  scope : String
  subject : String
  sessionNonce : String
  factorSet : List Proof
deriving DecidableEq

def Grant.terms (g : Grant) : Terms :=
  ⟨g.purpose, g.strict, g.usedCooldown, g.passwordVerified, g.totpVerified, g.action, g.scope, g.subject,
    g.sessionNonce, g.factorSet⟩

/-- A value of `_ACTIVE_GRANTS`. -/
structure Metadata (Home : Type) where
  guardHome : Home
  expiresEpoch : Int
  terms : Terms
  factorGeneration : Nat

/-- `_ACTIVE_GRANTS`, by grant id. -/
abbrev Active (Home : Type) := KeyMap String (Metadata Home)

/-- The random values one call may draw. -/
structure Tokens where
  grantId : String
  subject : String
  sessionNonce : String
  secretId : String
  secret : String
  salt : String

/-- Who calls: a process of some terminal session on a guard home, at some time. -/
structure Caller (Home : Type) where
  home : Home
  session : String
  clock : Clock
  tokens : Tokens

/-- A comparison of what was entered with what is stored. -/
inductive Comparison where
  | password (correct : Bool)
  | code (secret : String) (counter : Option Int)
deriving DecidableEq

inductive GrantEvent where
  | issued (grant : Grant)
  | accepted (grant : Grant)
  | consumed (grant : Grant)
deriving DecidableEq

/-- What a call answers and leaves behind; what it had stored before it raised stays. -/
structure Outcome (Home α : Type) where
  answer : Except Failure α
  gate : Gate
  active : Active Home
  compared : List Comparison := []
  grants : List GrantEvent := []

def Outcome.raise {α : Type} (f : Failure) (g : Gate) (a : Active Home) (cs : List Comparison) : Outcome Home α :=
  { answer := .error f, gate := g, active := a, compared := cs }

/-! ## Issuing -/

structure Ask where
  purpose : Purpose
  strict : Bool
  action : Option String
  scope : Option String
  subject : Option String
  sessionNonce : Option String

/-- Python's `value or fallback` on an optional text. -/
def orText (value : Option String) (fallback : String) : String := (value.filter (· ≠ "")).getD fallback

def grantTtlSeconds : Int := 30

def pruneGrants (a : Active Home) (now : Int) : Active Home := a.retain (fun _ m => decide (now < m.expiresEpoch))

structure Evidence where
  factorSet : List Proof
  strict : Bool
  usedCooldown : Bool
  cooldownExpiresAt : Option Int
  passwordVerified : Bool
  totpVerified : Bool

/-- The grant `_register_grant` builds. -/
def newGrant (c : Caller Home) (ask : Ask) (v : Evidence) : Grant where
  grantId := c.tokens.grantId
  purpose := ask.purpose
  issuedAt := c.clock.later
  expiresAt := c.clock.later + seconds grantTtlSeconds
  action := orText ask.action ask.purpose.text
  scope := orText ask.scope "local"
  subject := orText ask.subject (ask.purpose.text ++ ":transaction:" ++ c.tokens.subject)
  sessionNonce := orText ask.sessionNonce c.tokens.sessionNonce
  factorSet := v.factorSet
  strict := v.strict
  usedCooldown := v.usedCooldown
  cooldownExpiresAt := v.cooldownExpiresAt
  passwordVerified := v.passwordVerified
  totpVerified := v.totpVerified

/-- The value `_register_grant` files under the grant's id. -/
def newMetadata (c : Caller Home) (s : State) (grant : Grant) : Metadata Home :=
  ⟨c.home, grant.expiresAt, grant.terms, s.factorGeneration⟩

/-- `_register_grant`, after `s` was stored. -/
def registerGrant (c : Caller Home) (ask : Ask) (v : Evidence) (g : Gate) (a : Active Home) (cs : List Comparison) :
    Outcome Home Grant :=
  let grant := newGrant c ask v
  { answer := .ok grant
    gate := g
    active := pruneGrants (a.insert grant.grantId (newMetadata c g.state grant)) c.clock.later
    compared := cs
    grants := [.issued grant] }

/-- A password that was asked for: refused with what `_verify_password_stage` raises and stores, or correct. -/
def verifyPasswordStage (e : Env) (s : State) (password : Option String) (later : Int) :
    Except (Failure × State × List Comparison) Unit :=
  match s.verifier with
  | none => .error (noVerifier, s, [])
  | some v =>
    match password with
    | none =>
      .error (.gate (if s.totpEnabled then .passwordRequired else .required) "Approval password is required." 403,
        s, [])
    | some p =>
      if verifyPassword e p v then .ok ()
      else .error (.gate .invalidPassword "Approval password is invalid." 403, recordFailedAttempt s .password later,
        [.password false])

/-- `_verify_totp_or_raise`: the secret and the counter it accepts, or what it raises and stores. -/
def verifyTotpOrRaise (e : Env) (g : Gate) (code session : String) (now : Int) (allowReused : Bool) :
    Except (Failure × State × List Comparison) (String × Int) :=
  match g.enrolledSecret with
  | none => .error (secretUnavailable, g.state, [])
  | some secret =>
    match verifyTotpCode e secret code now g.state.totpLastCounter
      (allowReused && recentTotpSatisfied e g session now) with
    | .accepted counter => .ok (secret, counter)
    | .refused => .error (totpInvalid, recordFailedAttempt g.state .totp now, [.code secret none])
    | .typeError => .error (.typeError, g.state, [])

/-- The state a proved check stores: a code first moves the last counter and the recent proof. -/
def provedByCode (e : Env) (s : State) (secret session : String) (counter : Int) (now : Int) : State :=
  { s with
    totpLastCounter := some counter
    totpRecentProof := s.totpSecretId.map (fun id => recentProof e secret id session s.factorGeneration counter now)
    cooldownExpiresAt := none }

/-- `_verify_or_raise_locked` while authenticator codes are on. -/
def verifyByTotp (e : Env) (c : Caller Home) (ask : Ask) (input : GateInput) (g : Gate) (a : Active Home) :
    Outcome Home Grant :=
  let evidence : Evidence := ⟨[.totp], ask.strict, false, none, false, true⟩
  match input.totpCode with
  | none =>
    if input.requireFreshTotp || !recentTotpSatisfied e g c.session c.clock.now then .raise totpRequired g a []
    else
      match g.state.totpLastCounter with
      | none => .raise totpRequired g a []
      | some _ =>
        registerGrant c ask evidence { g with state := resetFailedAttempts { g.state with cooldownExpiresAt := none } }
          a []
  | some code =>
    match verifyTotpOrRaise e g code c.session c.clock.now (!input.requireFreshTotp) with
    | .error (f, s, cs) => .raise f { g with state := s } a cs
    | .ok (secret, counter) =>
      registerGrant c ask evidence
        { g with state := resetFailedAttempts (provedByCode e g.state secret c.session counter c.clock.now) } a
        [.code secret (some counter)]

/-- `_verify_or_raise_locked` while the password is the factor. -/
def verifyByPassword (e : Env) (c : Caller Home) (ask : Ask) (input : GateInput) (g : Gate) (a : Active Home) :
    Outcome Home Grant :=
  match verifyPasswordStage e g.state input.password c.clock.later with
  | .error (f, s, cs) => .raise f { g with state := s } a cs
  | .ok () =>
    let expires : Option Int :=
      if !ask.strict && decide (0 < g.state.cooldownSeconds) && decide (input.useCooldown ≠ some false) then
        some (c.clock.now + seconds g.state.cooldownSeconds)
      else none
    let cooldown := expires <|> g.state.cooldownExpiresAt
    registerGrant c ask ⟨[.password], ask.strict, false, expires, true, false⟩
      { g with state := { resetFailedAttempts g.state with cooldownExpiresAt := cooldown } } a [.password true]

/-- `_verify_or_raise_locked`. -/
def verifyOrRaise (e : Env) (c : Caller Home) (ask : Ask) (input : GateInput) (g : Gate) (a : Active Home) :
    Outcome Home Grant :=
  if isFuture g.state.lockedUntil c.clock.now then .raise lockedFailure g a []
  else if g.state.verifier = none then .raise noVerifier g a []
  else if !g.state.totpEnabled && !ask.strict && cooldownActive g.state c.clock.now then
    registerGrant c ask ⟨[.cooldown], false, true, g.state.cooldownExpiresAt, false, false⟩ g a []
  else if g.state.totpEnabled then verifyByTotp e c ask input g a
  else verifyByPassword e c ask input g a

/-! ## Accepting -/

structure Demand where
  purpose : Option Purpose := none
  strict : Bool
  action : Option String := none
  scope : Option String := none
  subject : Option String := none
  sessionNonce : Option String := none

def invalidProof : Failure := .gate .required "Approval proof is invalid." 403

def Demand.mismatch (d : Demand) (grant : Grant) : Option Failure :=
  if d.purpose.any (· ≠ grant.purpose) then some (.gate .required "Approval proof does not match this purpose." 403)
  else if d.action.any (· ≠ grant.action) then some (.gate .required "Approval proof does not match this action." 403)
  else if d.scope.any (· ≠ grant.scope) then some (.gate .required "Approval proof does not match this scope." 403)
  else if d.subject.any (· ≠ grant.subject) then
    some (.gate .required "Approval proof does not match this subject." 403)
  else if d.sessionNonce.any (· ≠ grant.sessionNonce) then
    some (.gate .required "Approval proof does not match this session." 403)
  else if d.strict && !grant.strict then some (.gate .required "A fresh approval proof is required." 403)
  else none

/-- The factor a grant must rest on now. -/
def factorMismatch (g : Gate) (strict : Bool) (grant : Grant) : Option Failure :=
  if g.state.totpEnabled then
    if g.enrolledSecret = none then some secretUnavailable
    else if grant.factorSet ≠ [.totp] ∨ grant.totpVerified = false then some totpRequired
    else none
  else if strict = true ∧ grant.factorSet ≠ [.password] then
    some (.gate .passwordRequired "Approval password is required." 403)
  else none

/-- `_ACTIVE_GRANTS.pop(grant_id, None)`. -/
def dropGrant (a : Active Home) (grantId : String) : Active Home := a.retain (fun id _ => decide (id ≠ grantId))

/-- `_validate_grant_locked`: the failure it raises, if any, and the table it leaves. -/
def validateGrantLocked (home : Home) (now : Int) (d : Demand) (grant : Option Grant) (g : Gate) (a : Active Home) :
    Except Failure Grant × Active Home :=
  match grant with
  | none => (.error (if g.state.totpEnabled then totpRequired else passwordRequired), a)
  | some grant =>
    match a.get? grant.grantId with
    | none => (.error (.gate .required "Approval proof is required." 403), a)
    | some m =>
      if m.guardHome ≠ home then (.error invalidProof, a)
      else if m.expiresEpoch ≤ now then
        (.error (.gate .grantExpired "Approval proof expired. Enter your approval proof again." 403),
          dropGrant a grant.grantId)
      else if m.terms ≠ grant.terms then (.error invalidProof, a)
      else if 1000 < |grant.expiresAt - m.expiresEpoch| then (.error invalidProof, a)
      else if m.factorGeneration ≠ g.state.factorGeneration then
        (.error (.gate .required "Approval proof was revoked. Enter your approval proof again." 403),
          dropGrant a grant.grantId)
      else
        match d.mismatch grant with
        | some f => (.error f, a)
        | none =>
          match factorMismatch g d.strict grant with
          | some f => (.error f, a)
          | none => (.ok grant, a)

def invalidateActiveGrants (home : Home) (a : Active Home) : Active Home :=
  a.retain (fun _ m => decide (m.guardHome ≠ home))

end Guard.ApprovalGate
