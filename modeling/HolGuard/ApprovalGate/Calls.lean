import HolGuard.ApprovalGate.Grants
import HolGuard.Lib.Machine
/-!
# The calls of the approval gate

The public functions of `approval_gate.py`, each on what the caller's guard home stores and the grant table of the
caller's process, and the machine whose steps are these calls, by any process on any guard home.  The functions that
only report are left out, and so is the configuration a call returns.
-/
namespace Guard.ApprovalGate

open Lib

variable {Home Process : Type} [DecidableEq Home] [DecidableEq Process]

/-! ## Decisions and checks -/

def isHighRiskAction (action scope : String) : Bool := action == "allow" || scope == "global"

def isStrictApprovalAction (scope : String) : Bool := scope == "global"

def requiresDecisionGate (s : State) (action scope : String) : Bool :=
  s.enabled && (isHighRiskAction action scope || s.strictAllDecisions)

def Outcome.pass (g : Gate) (a : Active Home) : Outcome Home (Option Grant) :=
  { answer := .ok none, gate := g, active := a }

def Outcome.asOption (o : Outcome Home Grant) : Outcome Home (Option Grant) :=
  { o with answer := o.answer.map some }

def validateGrant (c : Caller Home) (d : Demand) (grant : Option Grant) (g : Gate) (a : Active Home) :
    Outcome Home (Option Grant) :=
  let (answer, active) := validateGrantLocked c.home c.clock.now d grant g a
  match answer with
  | .error f => .raise f g active []
  | .ok accepted => { answer := .ok (some accepted), gate := g, active := active, grants := [.accepted accepted] }

/-- `_validate_grant_locked` and `_ACTIVE_GRANTS.pop`, as the two consume functions do. -/
def consumeGrant (c : Caller Home) (d : Demand) (grant : Grant) (g : Gate) (a : Active Home) :
    Outcome Home (Option Grant) :=
  let (answer, active) := validateGrantLocked c.home c.clock.now d (some grant) g a
  match answer with
  | .error f => .raise f g active []
  | .ok accepted =>
    { answer := .ok none
      gate := g
      active := dropGrant active accepted.grantId
      grants := [.accepted accepted, .consumed accepted] }

/-- A grant is validated when one is given, otherwise a proof is asked for. -/
def grantOrProof (e : Env) (c : Caller Home) (ask : Ask) (input : GateInput) (grant : Option Grant) (g : Gate)
    (a : Active Home) : Outcome Home (Option Grant) :=
  match grant with
  | some grant =>
    validateGrant c ⟨some ask.purpose, ask.strict, ask.action, ask.scope, ask.subject, ask.sessionNonce⟩
      (some grant) g a
  | none => (verifyOrRaise e c ask input g a).asOption

def requireApprovalDecision (e : Env) (c : Caller Home) (action scope : String) (input : GateInput)
    (grant : Option Grant) (subject sessionNonce : Option String) (g : Gate) (a : Active Home) :
    Outcome Home (Option Grant) :=
  if !requiresDecisionGate g.state action scope then .pass g a
  else
    grantOrProof e c ⟨.approvalDecision, isStrictApprovalAction scope, some action, some scope, subject, sessionNonce⟩
      input grant g a

/-- `require_policy_write` and `require_request_resolution`. -/
def requireDecisionGrant (c : Caller Home) (action scope : String) (grant : Option Grant) (g : Gate) (a : Active Home) :
    Outcome Home (Option Grant) :=
  if !requiresDecisionGate g.state action scope then .pass g a
  else validateGrant c { strict := isStrictApprovalAction scope } grant g a

/-- `require_policy_clear` and `require_settings_write`. -/
def requireStrictGrant (c : Caller Home) (purpose : Purpose) (grant : Option Grant) (g : Gate) (a : Active Home) :
    Outcome Home (Option Grant) :=
  if !g.state.enabled then .pass g a
  else validateGrant c { purpose := some purpose, strict := true } grant g a

def requireHighRisk (e : Env) (c : Caller Home) (purpose : Purpose) (input : GateInput) (grant : Option Grant)
    (action scope subject sessionNonce : Option String) (g : Gate) (a : Active Home) : Outcome Home (Option Grant) :=
  if !g.state.enabled then .pass g a
  else grantOrProof e c ⟨purpose, true, action, scope, subject, sessionNonce⟩ input grant g a

/-- `require_extension_control` and `require_local_cli_trust`: a strict proof for one mutation of a scope. -/
def requireMutation (e : Env) (c : Caller Home) (purpose : Purpose) (scope message : String) (input : GateInput)
    (action subject sessionNonce : String) (g : Gate) (a : Active Home) : Outcome Home (Option Grant) :=
  if !g.state.enabled then .raise (.gate .configurationRequired message 423) g a []
  else
    (verifyOrRaise e c ⟨purpose, true, some action, some scope, some subject, some sessionNonce⟩ input g a).asOption

def extensionControlScope : String := "extension-control-authority"

def localCliScope : String := "local-cli-allowlist"

def requireExtensionControl (e : Env) (c : Caller Home) :=
  requireMutation e c .extensionControlMutation extensionControlScope
    "Configure the approval gate before changing extension controls."

def requireLocalCliTrust (e : Env) (c : Caller Home) :=
  requireMutation e c .localCliTrustMutation localCliScope
    "Configure the approval gate before changing CLI allow-list settings."

def mutationDemand (purpose : Purpose) (scope action subject sessionNonce : String) : Demand :=
  ⟨some purpose, true, some action, some scope, some subject, some sessionNonce⟩

def consumeExtensionControlGrant (c : Caller Home) (grant : Grant) (action subject sessionNonce : String) :=
  consumeGrant c (mutationDemand .extensionControlMutation extensionControlScope action subject sessionNonce) grant

def consumeLocalCliTrustGrant (c : Caller Home) (grant : Grant) (action subject sessionNonce : String) :=
  consumeGrant c (mutationDemand .localCliTrustMutation localCliScope action subject sessionNonce) grant

/-! ## Settings -/

/-- What `_next_settings_state` reads of a settings payload; `cooldownSeconds` is `some none` when the entry is there
and `_coerce_cooldown_seconds` refuses it. -/
structure SettingsPayload where
  enabled : Option Bool := none
  newPassword : Option String := none
  confirmPassword : Option String := none
  revokeCooldown : Bool := false
  cooldownSeconds : Option (Option Int) := none
  strictAllDecisions : Option Bool := none

/-- A new password replaces the verifier and rotates the factors. -/
def setPassword (e : Env) (salt : String) (password : String) (confirmation : Option String) (s : State) :
    Except Failure State := do
  requirePasswordConfirmation password confirmation
  let v ← createVerifier e password salt
  return rotateAuthenticationState { s with verifier := some v }

/-- Switching the gate on needs a new password; a gate that is on takes one. -/
def nextPassword (e : Env) (salt : String) (p : SettingsPayload) (s start : State) : Except Failure State :=
  if p.enabled.getD s.enabled = true ∧ s.enabled = false then
    match p.newPassword with
    | none => .error (.gate .passwordRequired "Approval gate password is required." 403)
    | some password => setPassword e salt password p.confirmPassword start
  else if s.enabled then
    match p.newPassword with
    | none => .ok start
    | some password => setPassword e salt password p.confirmPassword start
  else .ok start

def nextCooldown (p : SettingsPayload) (current : Int) : Except Failure Int :=
  match p.cooldownSeconds with
  | none => .ok current
  | some none => .error invalidCooldown
  | some (some n) => .ok n

/-- The switch itself rotates the factors when no new password did. -/
def switchGate (p : SettingsPayload) (s keyed : State) : State :=
  let requested := p.enabled.getD s.enabled
  { (if requested ≠ s.enabled ∧ p.newPassword = none then rotateAuthenticationState keyed else keyed) with
    enabled := requested }

/-- `_next_settings_state` after the grant was validated. -/
def nextSettings (e : Env) (salt : String) (p : SettingsPayload) (s : State) : Except Failure State := do
  let keyed ← nextPassword e salt p s (if p.revokeCooldown then { s with cooldownExpiresAt := none } else s)
  let switched := switchGate p s keyed
  let cooldownSeconds ← nextCooldown p switched.cooldownSeconds
  if switched.enabled = true ∧ switched.verifier = none then
    .error (.gate .passwordRequired "Approval gate password is required." 403)
  else
    return { switched with
      cooldownSeconds := cooldownSeconds
      strictAllDecisions := p.strictAllDecisions.getD switched.strictAllDecisions }

/-- `_next_settings_state`: what it validates, and the state it builds. -/
def nextSettingsState (e : Env) (c : Caller Home) (p : SettingsPayload) (grant : Option Grant) (g : Gate)
    (a : Active Home) : Outcome Home State :=
  if g.state.enabled then
    let (answer, active) :=
      validateGrantLocked c.home c.clock.now { purpose := some .settingsWrite, strict := true } grant g a
    match answer with
    | .error f => .raise f g active []
    | .ok accepted =>
      { answer := nextSettings e c.tokens.salt p g.state
        gate := g
        active := active
        grants := [.accepted accepted] }
  else { answer := nextSettings e c.tokens.salt p g.state, gate := g, active := a }

def updateSettings (e : Env) (c : Caller Home) (p : SettingsPayload) (grant : Option Grant) (g : Gate)
    (a : Active Home) : Outcome Home (Option Grant) :=
  let o := nextSettingsState e c p grant g a
  match o.answer with
  | .error f => { o with answer := .error f }
  | .ok next =>
    { answer := .ok none
      gate := { g with state := next }
      active :=
        if next.factorGeneration ≠ g.state.factorGeneration then invalidateActiveGrants c.home o.active else o.active
      grants := o.grants }

def validateSettingsUpdate (e : Env) (c : Caller Home) (p : SettingsPayload) (grant : Option Grant) (g : Gate)
    (a : Active Home) : Outcome Home (Option Grant) :=
  let o := nextSettingsState e c p grant g a
  { o with answer := o.answer.map (fun _ => none) }

/-! ## Cooldown and enrolment -/

def revokeCooldown (g : Gate) (a : Active Home) : Outcome Home (Option Grant) :=
  .pass { g with state := { g.state with cooldownExpiresAt := none } } a

def unlockCooldown (e : Env) (c : Caller Home) (duration : Int) (input : GateInput) (g : Gate) (a : Active Home) :
    Outcome Home (Option Grant) :=
  if !g.state.enabled then .raise passwordRequired g a []
  else if g.state.verifier = none then .raise noVerifier g a []
  else if g.state.totpEnabled then
    .raise (.gate .totpRequired "Cooldown unlock is unavailable while TOTP is enabled." 403) g a []
  else
    match coerceCooldownSeconds duration with
    | none => .raise invalidCooldown g a []
    | some n =>
      if n = 0 then .raise (.gate .invalidCooldown "Cooldown unlock requires 900 or 3600 seconds." 403) g a []
      else if isFuture g.state.lockedUntil c.clock.now then .raise lockedFailure g a []
      else
        match verifyPasswordStage e g.state input.password c.clock.later with
        | .error (f, s, cs) => .raise f { g with state := s } a cs
        | .ok () =>
          { answer := .ok none
            gate :=
              { g with
                state := { resetFailedAttempts g.state with cooldownExpiresAt := some (c.clock.now + seconds n) } }
            active := a
            compared := [.password true] }

/-- `TotpSecretStore.delete_secret`. -/
def deleteSecret (secrets : KeyMap String String) (id : Option String) : KeyMap String String :=
  secrets.retain (fun k _ => decide (some k ≠ id))

/-- `_begin_totp_enrollment_locked` once the password was correct. -/
def beganEnrollment (c : Caller Home) (g : Gate) : Gate where
  state :=
    { rotateAuthenticationState (resetFailedAttempts g.state) with
      totpPendingSecretId := some c.tokens.secretId
      totpPendingExpiresAt := some (c.clock.now + seconds totpPendingTtlSeconds) }
  secrets := (deleteSecret g.secrets g.state.totpPendingSecretId).insert c.tokens.secretId c.tokens.secret

def beginTotpEnrollment (e : Env) (c : Caller Home) (input : GateInput) (g : Gate) (a : Active Home) :
    Outcome Home (Option Grant) :=
  if !g.state.enabled then .raise passwordRequired g a []
  else if g.state.totpEnabled then .raise (.gate .totpEnabled "TOTP is already enabled." 403) g a []
  else if isFuture g.state.lockedUntil c.clock.now then .raise lockedFailure g a []
  else
    match verifyPasswordStage e g.state input.password c.clock.later with
    | .error (f, s, cs) => .raise f { g with state := s } a cs
    | .ok () =>
      { answer := .ok none
        gate := beganEnrollment c g
        active := invalidateActiveGrants c.home a
        compared := [.password true] }

/-- `_confirm_totp_enrollment_locked` once the code was accepted. -/
def confirmedEnrollment (pending : String) (counter : Int) (g : Gate) : Gate where
  state :=
    { rotateAuthenticationState (resetFailedAttempts g.state) with
      totpSecretId := some pending
      totpEnabled := true
      totpLastCounter := some counter
      totpPendingSecretId := none
      totpPendingExpiresAt := none }
  secrets := if g.state.totpSecretId = some pending then g.secrets else deleteSecret g.secrets g.state.totpSecretId

/-- The code check of `_confirm_totp_enrollment_locked`, after a correct password. -/
def confirmCode (e : Env) (c : Caller Home) (input : GateInput) (g : Gate) (a : Active Home) :
    Outcome Home (Option Grant) :=
  match g.state.totpPendingSecretId with
  | none => .raise (.gate .totpPendingRequired "No pending TOTP enrollment is available." 403) g a [.password true]
  | some pending =>
    if !isFuture g.state.totpPendingExpiresAt c.clock.now then
      .raise (.gate .totpPendingRequired "No pending TOTP enrollment is available." 403) g a [.password true]
    else
      match input.totpCode with
      | none => .raise totpRequired g a [.password true]
      | some code =>
        match g.secrets.get? pending with
        | none => .raise secretUnavailable g a [.password true]
        | some secret =>
          match verifyTotpCode e secret code c.clock.now none false with
          | .typeError => .raise .typeError g a [.password true]
          | .refused =>
            .raise totpInvalid { g with state := recordFailedAttempt g.state .totp c.clock.later } a
              [.password true, .code secret none]
          | .accepted counter =>
            { answer := .ok none
              gate := confirmedEnrollment pending counter g
              active := invalidateActiveGrants c.home a
              compared := [.password true, .code secret (some counter)] }

def confirmTotpEnrollment (e : Env) (c : Caller Home) (input : GateInput) (g : Gate) (a : Active Home) :
    Outcome Home (Option Grant) :=
  if !g.state.enabled then .raise passwordRequired g a []
  else if isFuture g.state.lockedUntil c.clock.now then .raise lockedFailure g a []
  else
    match verifyPasswordStage e g.state input.password c.clock.later with
    | .error (f, s, cs) => .raise f { g with state := s } a cs
    | .ok () => confirmCode e c input g a

/-- `_disable_totp_locked` once the code was accepted. -/
def disabledTotp (secretId : String) (g : Gate) : Gate where
  state :=
    { rotateAuthenticationState (resetFailedAttempts g.state) with
      totpEnabled := false
      totpSecretId := none
      totpLastCounter := none
      totpPendingSecretId := none
      totpPendingExpiresAt := none }
  secrets := deleteSecret (deleteSecret g.secrets (some secretId)) g.state.totpPendingSecretId

def disableTotp (e : Env) (c : Caller Home) (input : GateInput) (g : Gate) (a : Active Home) :
    Outcome Home (Option Grant) :=
  if !g.state.enabled then .raise passwordRequired g a []
  else if isFuture g.state.lockedUntil c.clock.now then .raise lockedFailure g a []
  else
    match g.state.totpSecretId with
    | none => if g.state.totpEnabled then .raise secretUnavailable g a [] else .pass g a
    | some secretId =>
      match input.totpCode with
      | none => .raise totpRequired g a []
      | some code =>
        match g.secrets.get? secretId with
        | none => .raise secretUnavailable g a []
        | some secret =>
          match verifyTotpCode e secret code c.clock.now g.state.totpLastCounter false with
          | .typeError => .raise .typeError g a []
          | .refused =>
            .raise totpInvalid { g with state := recordFailedAttempt g.state .totp c.clock.later } a [.code secret none]
          | .accepted counter =>
            { answer := .ok none
              gate := disabledTotp secretId g
              active := invalidateActiveGrants c.home a
              compared := [.code secret (some counter)] }

/-! ## The machine -/

inductive Call where
  | requireApprovalDecision (action scope : String) (input : GateInput) (grant : Option Grant)
      (subject sessionNonce : Option String)
  | requirePolicyWrite (action scope : String) (grant : Option Grant)
  | requireRequestResolution (action scope : String) (grant : Option Grant)
  | requirePolicyClear (grant : Option Grant)
  | requireSettingsWrite (grant : Option Grant)
  | requireHighRisk (purpose : Purpose) (input : GateInput) (grant : Option Grant)
      (action scope subject sessionNonce : Option String)
  | requireExtensionControl (input : GateInput) (action subject sessionNonce : String)
  | consumeExtensionControlGrant (grant : Grant) (action subject sessionNonce : String)
  | requireLocalCliTrust (input : GateInput) (action subject sessionNonce : String)
  | consumeLocalCliTrustGrant (grant : Grant) (action subject sessionNonce : String)
  | validateGrant (demand : Demand) (grant : Option Grant)
  | updateSettings (payload : SettingsPayload) (grant : Option Grant)
  | validateSettingsUpdate (payload : SettingsPayload) (grant : Option Grant)
  | revokeCooldown
  | unlockCooldown (duration : Int) (input : GateInput)
  | beginTotpEnrollment (input : GateInput)
  | confirmTotpEnrollment (input : GateInput)
  | disableTotp (input : GateInput)

def Call.perform (e : Env) (c : Caller Home) (call : Call) (g : Gate) (a : Active Home) : Outcome Home (Option Grant) :=
  match call with
  | .requireApprovalDecision action scope input grant subject nonce =>
    ApprovalGate.requireApprovalDecision e c action scope input grant subject nonce g a
  | .requirePolicyWrite action scope grant => requireDecisionGrant c action scope grant g a
  | .requireRequestResolution action scope grant => requireDecisionGrant c action scope grant g a
  | .requirePolicyClear grant => requireStrictGrant c .policyClear grant g a
  | .requireSettingsWrite grant => requireStrictGrant c .settingsWrite grant g a
  | .requireHighRisk purpose input grant action scope subject nonce =>
    ApprovalGate.requireHighRisk e c purpose input grant action scope subject nonce g a
  | .requireExtensionControl input action subject nonce =>
    ApprovalGate.requireExtensionControl e c input action subject nonce g a
  | .consumeExtensionControlGrant grant action subject nonce =>
    ApprovalGate.consumeExtensionControlGrant c grant action subject nonce g a
  | .requireLocalCliTrust input action subject nonce =>
    ApprovalGate.requireLocalCliTrust e c input action subject nonce g a
  | .consumeLocalCliTrustGrant grant action subject nonce =>
    ApprovalGate.consumeLocalCliTrustGrant c grant action subject nonce g a
  | .validateGrant demand grant => ApprovalGate.validateGrant c demand grant g a
  | .updateSettings payload grant => ApprovalGate.updateSettings e c payload grant g a
  | .validateSettingsUpdate payload grant => ApprovalGate.validateSettingsUpdate e c payload grant g a
  | .revokeCooldown => ApprovalGate.revokeCooldown g a
  | .unlockCooldown duration input => ApprovalGate.unlockCooldown e c duration input g a
  | .beginTotpEnrollment input => ApprovalGate.beginTotpEnrollment e c input g a
  | .confirmTotpEnrollment input => ApprovalGate.confirmTotpEnrollment e c input g a
  | .disableTotp input => ApprovalGate.disableTotp e c input g a

/-- Every guard home with what it stores, and every process with its grants. -/
structure World (Home Process : Type) where
  gates : Home → Gate
  active : Process → Active Home

def World.initial : World Home Process := ⟨fun _ => .initial, fun _ => KeyMap.empty⟩

structure Step (Home Process : Type) where
  process : Process
  caller : Caller Home
  call : Call

structure Seen where
  answer : Except Failure (Option Grant)
  compared : List Comparison
  grants : List GrantEvent

def Step.perform (e : Env) (s : Step Home Process) (w : World Home Process) : Outcome Home (Option Grant) :=
  s.call.perform e s.caller (w.gates s.caller.home) (w.active s.process)

def machine (e : Env) : Machine (World Home Process) (Step Home Process) Seen where
  step w s :=
    let o := s.perform e w
    (⟨Function.update w.gates s.caller.home o.gate, Function.update w.active s.process o.active⟩,
      ⟨o.answer, o.compared, o.grants⟩)

abbrev Taken (Home Process : Type) := Machine.Taken (World Home Process) (Step Home Process) Seen

namespace Taken

def home (t : Taken Home Process) : Home := t.input.caller.home

def now (t : Taken Home Process) : Int := t.input.caller.clock.now

def gate (t : Taken Home Process) : Gate := t.before.gates t.home

end Taken

def calls (e : Env) (w : World Home Process) (steps : List (Step Home Process)) : List (Taken Home Process) :=
  (machine e).steps w steps

/-- Each call starts after the one before it has ended. -/
def InOrder (steps : List (Step Home Process)) : Prop :=
  steps.Pairwise (fun s t => s.caller.clock.later ≤ t.caller.clock.now)

def Step.taken (e : Env) (s : Step Home Process) (w : World Home Process) : Taken Home Process :=
  ⟨w, s, ((machine e).step w s).2, ((machine e).step w s).1⟩

theorem calls_cons (e : Env) (w : World Home Process) (s : Step Home Process) (steps : List (Step Home Process)) :
    calls e w (s :: steps) = s.taken e w :: calls e (s.taken e w).after steps := rfl

theorem taken_gates (e : Env) (w : World Home Process) (s : Step Home Process) (home : Home) :
    (s.taken e w).after.gates home = if home = s.caller.home then (s.perform e w).gate else w.gates home := by
  simp only [Step.taken, machine, Function.update_apply]

end Guard.ApprovalGate
