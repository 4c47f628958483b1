import HolGuard.Lib.KeyMap
import HolGuard.Lib.Text
/-!
# The stored state of the approval gate

`approval_gate_state.py` and `totp.py`, and the helpers of `approval_gate.py` that read or change the state of one guard
home: the failure budget, the authenticator codes, the recent proof of a session and the rotation of the factors.

The state file is the record its writers write.  A time is a number of microseconds since the epoch, so `iso_from_epoch`
and `epoch` are inverse; a call reads the clock when it starts and, when no `now` was passed, once more when it records
a failure or registers a grant.  Hashing and code generation are parameters.
-/
namespace Guard.ApprovalGate

open Lib

def seconds (n : Int) : Int := n * 1000000

/-- The readings of one call: `later` is the one `record_failed_attempt` or `_register_grant` makes.  They are equal
when the caller passes `now`. -/
structure Clock where
  now : Int
  later : Int
  ordered : now ≤ later

structure Verifier where
  iterations : Nat
  salt : String
  hash : String
deriving DecidableEq

/-- The payload `_record_recent_totp_satisfaction` signs. -/
structure RecentPayload where
  sessionBinding : String
  factorGeneration : Nat
  acceptedCounter : Int
  issuedAt : Int
  expiresAt : Int
deriving DecidableEq

/-- The columns of `sign_local_authority_payload`. -/
structure Integrity where
  payloadHash : String
  payloadMac : String
  integrityKeyId : String
  signedAt : Int
deriving DecidableEq

structure RecentProof where
  payload : RecentPayload
  integrity : Integrity
deriving DecidableEq

/-- `approval-gate.json`. -/
structure State where
  enabled : Bool
  cooldownSeconds : Int
  strictAllDecisions : Bool
  failedAttempts : Nat
  passwordFailedAttempts : Nat
  totpFailedAttempts : Nat
  factorGeneration : Nat
  totpEnabled : Bool
  verifier : Option Verifier
  cooldownExpiresAt : Option Int
  lockedUntil : Option Int
  totpSecretId : Option String
  totpLastCounter : Option Int
  totpPendingSecretId : Option String
  totpPendingExpiresAt : Option Int
  totpRecentProof : Option RecentProof

def defaultState : State where
  enabled := false
  cooldownSeconds := 0
  strictAllDecisions := false
  failedAttempts := 0
  passwordFailedAttempts := 0
  totpFailedAttempts := 0
  factorGeneration := 0
  totpEnabled := false
  verifier := none
  cooldownExpiresAt := none
  lockedUntil := none
  totpSecretId := none
  totpLastCounter := none
  totpPendingSecretId := none
  totpPendingExpiresAt := none
  totpRecentProof := none

/-- What a guard home stores for the gate: the state file and the secrets of `TotpSecretStore`. -/
structure Gate where
  state : State
  secrets : KeyMap String String

def Gate.initial : Gate := ⟨defaultState, KeyMap.empty⟩

/-- The library functions the gate calls. -/
structure Env where
  /-- `totp_code_at_counter`: the six digits of RFC 4226 for a secret and a counter. -/
  totpCodeAtCounter : String → Int → String
  /-- `hashlib.pbkdf2_hmac("sha256", …)` of a password, a salt and a number of iterations. -/
  pbkdf2 : String → String → Nat → String
  /-- One character of `str.isdigit`. -/
  isDigit : Char → Bool
  /-- The SHA-256 of a payload's canonical envelope, and its HMAC under a key. -/
  payloadHash : RecentPayload → Int → String
  payloadMac : String → RecentPayload → Int → String

/-! ## Errors -/

/-- The `code` of an `ApprovalGateError`. -/
inductive Code where
  | required
  | passwordRequired
  | passwordMismatch
  | invalidPassword
  | weakPassword
  | totpRequired
  | totpEnabled
  | totpInvalid
  | totpPendingRequired
  | locked
  | recoveryRequired
  | configurationRequired
  | invalidCooldown
  | grantExpired
deriving DecidableEq

/-- What a call raises: an `ApprovalGateError`, or the `TypeError` of `hmac.compare_digest` on text that is not
ASCII. -/
inductive Failure where
  | gate (code : Code) (message : String) (status : Nat)
  | typeError
deriving DecidableEq

def lockedFailure : Failure := .gate .locked "Approval gate is temporarily locked." 423

def noVerifier : Failure := .gate .recoveryRequired "Approval gate is enabled but no verifier is configured." 423

def secretUnavailable : Failure := .gate .recoveryRequired "Approval gate TOTP secret is unavailable." 423

def passwordRequired : Failure := .gate .required "Approval password is required." 403

def totpRequired : Failure := .gate .totpRequired "TOTP code is required." 403

def totpInvalid : Failure := .gate .totpInvalid
  "That authenticator code is wrong. Open your authenticator app and enter the current six-digit code." 403

/-! ## The failure budget -/

inductive Factor where
  | password
  | totp
deriving DecidableEq

def lockoutFailures : Nat := 5

def combinedLockoutFailures : Nat := 5

def lockoutSeconds : Int := 300

def State.failures (s : State) : Factor → Nat
  | .password => s.passwordFailedAttempts
  | .totp => s.totpFailedAttempts

def State.setFailures (s : State) (n : Nat) : Factor → State
  | .password => { s with passwordFailedAttempts := n }
  | .totp => { s with totpFailedAttempts := n }

/-- `record_failed_attempt`, with the clock reading it makes. -/
def recordFailedAttempt (s : State) (factor : Factor) (now : Int) : State :=
  let factorAttempts := s.failures factor + 1
  let combinedAttempts := s.failedAttempts + 1
  if lockoutFailures ≤ factorAttempts ∨ combinedLockoutFailures ≤ combinedAttempts then
    { s with
      lockedUntil := some (now + seconds lockoutSeconds)
      failedAttempts := 0
      passwordFailedAttempts := 0
      totpFailedAttempts := 0 }
  else { s.setFailures factorAttempts factor with failedAttempts := combinedAttempts }

def resetFailedAttempts (s : State) : State :=
  { s with failedAttempts := 0, passwordFailedAttempts := 0, totpFailedAttempts := 0, lockedUntil := none }

def isFuture (value : Option Int) (now : Int) : Bool := value.any (fun t => decide (now < t))

def cooldownActive (s : State) (now : Int) : Bool := isFuture s.cooldownExpiresAt now

/-- `_coerce_cooldown_seconds` on a number. -/
def coerceCooldownSeconds (value : Int) : Option Int := if value ∈ [0, 900, 3600] then some value else none

def invalidCooldown : Failure := .gate .invalidCooldown
  "Approval cooldown must be 0 (every approval), 900 (15 minutes), or 3600 (1 hour) seconds." 403

/-! ## Passwords -/

def minPasswordLength : Nat := 8

def hashIterations : Nat := 310000

def verifyPassword (e : Env) (password : String) (v : Verifier) : Bool :=
  e.pbkdf2 password v.salt v.iterations == v.hash

/-- `create_verifier` with the salt it draws. -/
def createVerifier (e : Env) (password salt : String) : Except Failure Verifier :=
  if password.length < minPasswordLength then
    .error (.gate .weakPassword "Approval gate password is too weak." 403)
  else .ok ⟨hashIterations, salt, e.pbkdf2 password salt hashIterations⟩

def isAscii (s : String) : Bool := s.toList.all (fun c => decide (c.toNat < 128))

def requirePasswordConfirmation (password : String) (confirmation : Option String) : Except Failure Unit :=
  match confirmation with
  | none => .error (.gate .passwordMismatch "Approval gate password confirmation does not match." 403)
  | some c =>
    if !(isAscii password && isAscii c) then .error .typeError
    else if password = c then .ok ()
    else .error (.gate .passwordMismatch "Approval gate password confirmation does not match." 403)

/-! ## Authenticator codes -/

def totpPeriodSeconds : Int := 30

def totpDigits : Nat := 6

def totpSkewSteps : Int := 1

def totpCounter (now : Int) : Int := now / seconds totpPeriodSeconds

/-- What `verify_totp_code` answers. -/
inductive Verdict where
  | accepted (counter : Int)
  | refused
  | typeError
deriving DecidableEq

/-- The loop of `verify_totp_code` over the counters near the current one. -/
def tryCounters (e : Env) (secret normalized : String) (last : Option Int) (allowLast : Bool) : List Int → Verdict
  | [] => .refused
  | counter :: rest =>
    if counter < 0 then tryCounters e secret normalized last allowLast rest
    else if last.any (fun l => decide (counter < l)) then tryCounters e secret normalized last allowLast rest
    else if last = some counter ∧ allowLast = false then tryCounters e secret normalized last allowLast rest
    else if !isAscii normalized then .typeError
    else if e.totpCodeAtCounter secret counter = normalized then .accepted counter
    else tryCounters e secret normalized last allowLast rest

/-- `verify_totp_code` with one step of skew. -/
def verifyTotpCode (e : Env) (secret code : String) (now : Int) (last : Option Int) (allowLast : Bool) : Verdict :=
  let normalized := pythonStrip code
  if normalized.length ≠ totpDigits ∨ normalized.toList.all e.isDigit = false then .refused
  else
    let current := totpCounter now
    tryCounters e secret normalized last allowLast [current - totpSkewSteps, current, current + totpSkewSteps]

/-- `_validate_totp_state_or_raise`. -/
def Gate.enrolledSecret (g : Gate) : Option String := g.state.totpSecretId.bind g.secrets.get?

/-! ## The recent proof of a session -/

def totpRecentTtlSeconds : Int := 60

def totpPendingTtlSeconds : Int := 600

/-- `sign_local_authority_payload` with the secret as key. -/
def signPayload (e : Env) (payload : RecentPayload) (secret secretId : String) (signedAt : Int) : Integrity :=
  ⟨e.payloadHash payload signedAt, e.payloadMac secret payload signedAt, secretId, signedAt⟩

/-- `verify_local_authority_payload` answers `valid`. -/
def verifyPayload (e : Env) (proof : RecentProof) (secret secretId : String) : Bool :=
  proof.integrity.integrityKeyId == secretId &&
    (proof.integrity.payloadHash == e.payloadHash proof.payload proof.integrity.signedAt &&
      proof.integrity.payloadMac == e.payloadMac secret proof.payload proof.integrity.signedAt)

/-- The proof `_record_recent_totp_satisfaction` stores. -/
def recentProof (e : Env) (secret secretId session : String) (generation : Nat) (counter : Int) (now : Int) :
    RecentProof :=
  let payload : RecentPayload := ⟨session, generation, counter, now, now + seconds totpRecentTtlSeconds⟩
  ⟨payload, signPayload e payload secret secretId now⟩

/-- The checks of `_recent_totp_satisfied_locked` on a proof whose signature holds. -/
def proofStands (s : State) (p : RecentPayload) (session : String) (now : Int) : Bool :=
  p.sessionBinding == session && p.factorGeneration == s.factorGeneration &&
    s.totpLastCounter == some p.acceptedCounter &&
    decide (0 < p.issuedAt ∧ p.issuedAt ≤ now + seconds 1) && decide (p.issuedAt < p.expiresAt) &&
    decide (p.expiresAt - p.issuedAt ≤ seconds totpRecentTtlSeconds + 1000) && decide (now < p.expiresAt)

/-- `_recent_totp_satisfied_locked`. -/
def recentTotpSatisfied (e : Env) (g : Gate) (session : String) (now : Int) : Bool :=
  match g.state.totpRecentProof, g.state.totpSecretId, g.enrolledSecret with
  | some proof, some secretId, some secret =>
    verifyPayload e proof secret secretId && proofStands g.state proof.payload session now
  | _, _, _ => false

def rotateAuthenticationState (s : State) : State :=
  { s with factorGeneration := s.factorGeneration + 1, cooldownExpiresAt := none, totpRecentProof := none }

end Guard.ApprovalGate
