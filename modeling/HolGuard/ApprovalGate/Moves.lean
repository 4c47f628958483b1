import HolGuard.ApprovalGate.Calls
import HolGuard.Lib.Checks
/-!
# What one call can do

`Move` lists the ways a call changes what a guard home stores, with the factors it compared.  `perform_moves` reads it
off the calls, once; every invariant of what is stored is kept in a run because each move keeps it.
-/
namespace Guard.ApprovalGate

open Lib

variable {Home Process : Type}

/-! ## Accepted codes -/

theorem tryCounters_accepted {e : Env} {secret normalized : String} {last : Option Int} {allowLast : Bool} {n : Int}
    {counters : List Int} (h : tryCounters e secret normalized last allowLast counters = .accepted n) :
    (∀ l ∈ last, l ≤ n ∧ (l = n → allowLast = true)) ∧ e.totpCodeAtCounter secret n = normalized := by
  fun_induction tryCounters e secret normalized last allowLast counters with
  | case1 | case5 => cases h
  | case2 _ _ _ ih | case3 _ _ _ _ ih | case4 _ _ _ _ _ ih | case7 _ _ _ _ _ _ _ ih => exact ih h
  | case6 counter rest _ hbelow hlast _ hcode =>
    cases h
    refine ⟨fun l hl => ?_, hcode⟩
    rw [Option.mem_def] at hl
    subst hl
    simp only [Option.any_some, decide_eq_true_eq] at hbelow
    refine ⟨by omega, fun hln => ?_⟩
    subst hln
    simpa using hlast

/-- **An accepted code is the code of its counter**, and that counter is not below the last accepted one, nor equal to
it unless that is allowed. -/
theorem verifyTotpCode_accepted {e : Env} {secret code : String} {now : Int} {last : Option Int} {allowLast : Bool}
    {n : Int} (h : verifyTotpCode e secret code now last allowLast = .accepted n) :
    (∀ l ∈ last, l ≤ n ∧ (l = n → allowLast = true)) ∧ e.totpCodeAtCounter secret n = pythonStrip code := by
  simp only [verifyTotpCode] at h
  split at h
  · cases h
  · exact tryCounters_accepted h

theorem recentTotpSatisfied_spec {e : Env} {g : Gate} {session : String} {now : Int}
    (h : recentTotpSatisfied e g session now = true) :
    ∃ p, g.state.totpRecentProof = some p ∧ p.payload.sessionBinding = session ∧
      g.state.totpLastCounter = some p.payload.acceptedCounter ∧ now < p.payload.expiresAt := by
  unfold recentTotpSatisfied at h
  split at h
  · rename_i p secretId secret hp hid hs
    simp only [proofStands, Bool.and_eq_true, beq_iff_eq, decide_eq_true_eq] at h
    exact ⟨p, hp, h.2.1.1.1.1.1.1, h.2.1.1.1.1.2, h.2.2⟩
  · cases h

/-! ## Moves of what a home stores -/

/-- Two states with the same factors and the same failure budget. -/
structure SameFactors (s t : State) : Prop where
  generation : t.factorGeneration = s.factorGeneration
  totpEnabled : t.totpEnabled = s.totpEnabled
  secretId : t.totpSecretId = s.totpSecretId
  lastCounter : t.totpLastCounter = s.totpLastCounter
  pendingId : t.totpPendingSecretId = s.totpPendingSecretId
  recentProof : t.totpRecentProof = s.totpRecentProof
  failedAttempts : t.failedAttempts = s.failedAttempts
  lockedUntil : t.lockedUntil = s.lockedUntil

theorem SameFactors.refl (s : State) : SameFactors s s := ⟨rfl, rfl, rfl, rfl, rfl, rfl, rfl, rfl⟩

/-- The factors were rotated by a change of the settings. -/
structure Rotated (s t : State) : Prop where
  generation : t.factorGeneration = s.factorGeneration + 1
  totpEnabled : t.totpEnabled = s.totpEnabled
  secretId : t.totpSecretId = s.totpSecretId
  lastCounter : t.totpLastCounter = s.totpLastCounter
  pendingId : t.totpPendingSecretId = s.totpPendingSecretId
  recentProof : t.totpRecentProof = none
  failedAttempts : t.failedAttempts = s.failedAttempts
  lockedUntil : t.lockedUntil = s.lockedUntil

/-- A wrong factor, possibly after a correct password. -/
inductive Wrong : List Comparison → Prop
  | password : Wrong [.password false]
  | code (secret : String) : Wrong [.code secret none]
  | confirmation (secret : String) : Wrong [.password true, .code secret none]

/-- The ways a call changes what its home stores; `asks` is what was entered when the call asks for a proof. -/
inductive Move (e : Env) (c : Caller Home) (asks : Option GateInput) (g : Gate) : Gate → List Comparison → Prop
  | idle (s : State) (cs : List Comparison) (hs : SameFactors g.state s) (hcs : cs = [] ∨ cs = [.password true]) :
      Move e c asks g { g with state := s } cs
  | failed (factor : Factor) (t : Int) (cs : List Comparison) (hopen : isFuture g.state.lockedUntil c.clock.now = false)
      (ht : c.clock.now ≤ t) (hcs : Wrong cs) :
      Move e c asks g { g with state := recordFailedAttempt g.state factor t } cs
  | reused (input : GateInput) (hask : asks = some input) (henabled : g.state.totpEnabled = true)
      (hcode : input.totpCode = none) (hfresh : input.requireFreshTotp = false)
      (hrecent : recentTotpSatisfied e g c.session c.clock.now = true)
      (hopen : isFuture g.state.lockedUntil c.clock.now = false) :
      Move e c asks g { g with state := resetFailedAttempts { g.state with cooldownExpiresAt := none } } []
  | coded (input : GateInput) (code secret : String) (n : Int) (hask : asks = some input)
      (henabled : g.state.totpEnabled = true) (hcode : input.totpCode = some code)
      (hsecret : g.enrolledSecret = some secret)
      (hverdict : verifyTotpCode e secret code c.clock.now g.state.totpLastCounter
        (!input.requireFreshTotp && recentTotpSatisfied e g c.session c.clock.now) = .accepted n)
      (hopen : isFuture g.state.lockedUntil c.clock.now = false) :
      Move e c asks g { g with state := resetFailedAttempts (provedByCode e g.state secret c.session n c.clock.now) }
        [.code secret (some n)]
  | proved (cooldown : Option Int) :
      Move e c asks g { g with state := { resetFailedAttempts g.state with cooldownExpiresAt := cooldown } }
        [.password true]
  | began (henabled : g.state.totpEnabled = false) : Move e c asks g (beganEnrollment c g) [.password true]
  | confirmed (pending secret : String) (n : Int) (hpending : g.state.totpPendingSecretId = some pending)
      (hsecret : g.secrets.get? pending = some secret) :
      Move e c asks g (confirmedEnrollment pending n g) [.password true, .code secret (some n)]
  | disabled (secretId secret : String) (n : Int) (hid : g.state.totpSecretId = some secretId)
      (hsecret : g.secrets.get? secretId = some secret) (hlast : ∀ l ∈ g.state.totpLastCounter, l < n) :
      Move e c asks g (disabledTotp secretId g) [.code secret (some n)]
  | rotated (s : State) (hs : Rotated g.state s) : Move e c asks g { g with state := s } []

theorem Move.keep {e : Env} {c : Caller Home} {asks : Option GateInput} (g : Gate) : Move e c asks g g [] :=
  Move.idle g.state [] (SameFactors.refl g.state) (.inl rfl)

/-- What a call leaves is one of the moves, with the comparisons it made. -/
abbrev Moved {α : Type} (e : Env) (c : Caller Home) (asks : Option GateInput) (g : Gate) (o : Outcome Home α) : Prop :=
  Move e c asks g o.gate o.compared

theorem recordFailedAttempt_factors (s : State) (factor : Factor) (t : Int) :
    (recordFailedAttempt s factor t).factorGeneration = s.factorGeneration ∧
      (recordFailedAttempt s factor t).totpSecretId = s.totpSecretId := by
  unfold recordFailedAttempt
  by_cases hfull : lockoutFailures ≤ s.failures factor + 1 ∨ combinedLockoutFailures ≤ s.failedAttempts + 1
  · simp only [if_pos hfull, and_self]
  · simp only [if_neg hfull]
    cases factor <;> exact ⟨rfl, rfl⟩

/-- **The factor generation never goes back, and while it stands the enrolled secret does.** -/
theorem Move.generation {e : Env} {c : Caller Home} {asks : Option GateInput} {g g' : Gate} {cs : List Comparison}
    (h : Move e c asks g g' cs) :
    g.state.factorGeneration ≤ g'.state.factorGeneration ∧
      (g'.state.factorGeneration = g.state.factorGeneration → g'.enrolledSecret = g.enrolledSecret) := by
  have hnext : ∀ {n m : Nat}, n = m + 1 → ∀ {P : Prop}, m ≤ n ∧ (n = m → P) := fun hn => ⟨by omega, fun h => by omega⟩
  cases h with
  | idle s _ hs hcs => exact ⟨hs.generation.ge, fun _ => by simp only [Gate.enrolledSecret, hs.secretId]⟩
  | failed factor t _ hopen ht hcs =>
    obtain ⟨hgeneration, hid⟩ := recordFailedAttempt_factors g.state factor t
    exact ⟨hgeneration.ge, fun _ => by simp only [Gate.enrolledSecret, hid]⟩
  | reused | coded | proved => exact ⟨le_rfl, fun _ => rfl⟩
  | began | confirmed | disabled => exact hnext rfl
  | rotated s hs => exact hnext hs.generation

/-- What was entered, for a call that asks for a proof in the stored state. -/
def Call.asks (s : State) : Call → Option GateInput
  | .requireApprovalDecision action scope input none _ _ =>
    if requiresDecisionGate s action scope then some input else none
  | .requireHighRisk _ input none _ _ _ _ => if s.enabled then some input else none
  | .requireExtensionControl input _ _ _ => if s.enabled then some input else none
  | .requireLocalCliTrust input _ _ _ => if s.enabled then some input else none
  | _ => none

section Moves

variable {e : Env} {c : Caller Home} {asks : Option GateInput} {g : Gate}

/-- A check in front of the rest of a call: where it answers, the home is kept. -/
theorem Moved.past {α : Type} {p : Prop} [Decidable p] {early rest : Outcome Home α} (hkeep : Moved e c asks g early)
    (h : ¬p → Moved e c asks g rest) : Moved e c asks g (if p then early else rest) := by
  split
  · exact hkeep
  · rename_i hp
    exact h hp

theorem Move.of_password_error {password : Option String} {f : Failure} {s : State} {cs : List Comparison}
    (hopen : isFuture g.state.lockedUntil c.clock.now = false)
    (h : verifyPasswordStage e g.state password c.clock.later = .error (f, s, cs)) :
    Move e c asks g { g with state := s } cs := by
  unfold verifyPasswordStage at h
  repeat' split at h
  all_goals cases h
  any_goals exact Move.keep g
  exact Move.failed .password _ _ hopen c.clock.ordered .password

/-- A password check in front of the rest of a call. -/
theorem Moved.pastPassword {α : Type} {password : Option String} {rest : Outcome Home α} (a : Active Home)
    (hopen : ¬isFuture g.state.lockedUntil c.clock.now) (h : Moved e c asks g rest) :
    Moved e c asks g (match verifyPasswordStage e g.state password c.clock.later with
      | .error (f, s, cs) => .raise f { g with state := s } a cs
      | .ok () => rest) := by
  split
  · rename_i herr
    exact Move.of_password_error (by simpa using hopen) herr
  · exact h

theorem Move.of_totp_error {code : String} {allow : Bool} {f : Failure} {s : State} {cs : List Comparison}
    (hopen : isFuture g.state.lockedUntil c.clock.now = false)
    (h : verifyTotpOrRaise e g code c.session c.clock.now allow = .error (f, s, cs)) :
    Move e c asks g { g with state := s } cs := by
  unfold verifyTotpOrRaise at h
  repeat' split at h
  all_goals cases h
  any_goals exact Move.keep g
  exact Move.failed .totp _ _ hopen le_rfl (.code _)

theorem verifyTotpOrRaise_ok {code session : String} {now : Int} {allow : Bool} {secret : String} {n : Int}
    (h : verifyTotpOrRaise e g code session now allow = .ok (secret, n)) :
    g.enrolledSecret = some secret ∧
      verifyTotpCode e secret code now g.state.totpLastCounter (allow && recentTotpSatisfied e g session now) =
        .accepted n := by
  unfold verifyTotpOrRaise at h
  repeat' split at h
  all_goals cases h
  rename_i hsecret hverdict
  exact ⟨hsecret, hverdict⟩

theorem verifyByTotp_moves (ask : Ask) (input : GateInput) (a : Active Home) (henabled : g.state.totpEnabled = true)
    (hopen : isFuture g.state.lockedUntil c.clock.now = false) :
    Moved e c (some input) g (verifyByTotp e c ask input g a) := by
  unfold verifyByTotp
  split
  · rename_i hcode
    split
    · exact Move.keep g
    rename_i hreuse
    split
    · exact Move.keep g
    · simp only [Bool.or_eq_true, Bool.not_eq_true', not_or, Bool.not_eq_true, Bool.not_eq_false] at hreuse
      exact Move.reused input rfl henabled hcode hreuse.1 hreuse.2 hopen
  · rename_i code hcode
    split
    · rename_i herr
      exact Move.of_totp_error hopen herr
    · rename_i hok
      obtain ⟨hsecret, hverdict⟩ := verifyTotpOrRaise_ok hok
      exact Move.coded input code _ _ rfl henabled hcode hsecret hverdict hopen

theorem verifyByPassword_moves (ask : Ask) (input : GateInput) (a : Active Home)
    (hopen : isFuture g.state.lockedUntil c.clock.now = false) :
    Moved e c asks g (verifyByPassword e c ask input g a) := by
  unfold verifyByPassword
  split
  · rename_i herr
    exact Move.of_password_error hopen herr
  · exact Move.proved _

theorem verifyOrRaise_moves (ask : Ask) (input : GateInput) (a : Active Home) :
    Moved e c (some input) g (verifyOrRaise e c ask input g a) := by
  refine .past (Move.keep g) fun hopen => .past (Move.keep g) fun _ => .past (Move.keep g) fun _ => ?_
  rw [Bool.not_eq_true] at hopen
  split
  · rename_i henabled
    exact verifyByTotp_moves ask input a henabled hopen
  · exact verifyByPassword_moves ask input a hopen

/-- A call that asks for a proof where a check lets it through to it. -/
theorem verifyOrRaise_asked {p : Bool} (hp : ¬ (!p) = true) (ask : Ask) (input : GateInput) (a : Active Home) :
    Moved e c (if p then some input else none) g (verifyOrRaise e c ask input g a) := by
  rw [if_pos (by simpa using hp)]
  exact verifyOrRaise_moves ask input a

variable [DecidableEq Home]

theorem validateGrant_moves (d : Demand) (grant : Option Grant) (a : Active Home) :
    Moved e c asks g (validateGrant c d grant g a) := by
  unfold validateGrant
  rcases validateGrantLocked c.home c.clock.now d grant g a with ⟨f | accepted, active⟩
  · exact Move.keep g
  · exact Move.keep g

theorem consumeGrant_moves (d : Demand) (grant : Grant) (a : Active Home) :
    Moved e c asks g (consumeGrant c d grant g a) := by
  unfold consumeGrant
  rcases validateGrantLocked c.home c.clock.now d (some grant) g a with ⟨f | accepted, active⟩
  · exact Move.keep g
  · exact Move.keep g

/-! ### Settings -/

theorem setPassword_ok {salt password : String} {confirmation : Option String} {s t : State}
    (h : setPassword e salt password confirmation s = .ok t) :
    ∃ v, t = rotateAuthenticationState { s with verifier := some v } := by
  unfold setPassword at h
  cases hconfirm : requirePasswordConfirmation password confirmation with
  | error f => rw [hconfirm] at h; cases h
  | ok u =>
    cases hv : createVerifier e password salt with
    | error f => rw [hconfirm, hv] at h; cases h
    | ok v =>
      rw [hconfirm, hv] at h
      cases h
      exact ⟨v, rfl⟩

theorem nextPassword_ok {salt : String} {p : SettingsPayload} {s start keyed : State}
    (h : nextPassword e salt p s start = .ok keyed) :
    keyed = start ∨ p.newPassword ≠ none ∧
    ∃ v, keyed = rotateAuthenticationState { start with verifier := some v } := by
  unfold nextPassword at h
  split at h
  · split at h
    · cases h
    · rename_i hp
      exact .inr ⟨by rw [hp]; simp, setPassword_ok h⟩
  split at h
  · split at h
    · cases h; exact .inl rfl
    · rename_i hp
      exact .inr ⟨by rw [hp]; simp, setPassword_ok h⟩
  · cases h; exact .inl rfl

/-- **New settings keep the factors or rotate them once**; the failure budget stays. -/
theorem nextSettings_ok {salt : String} {p : SettingsPayload} {s t : State} (h : nextSettings e salt p s = .ok t) :
    SameFactors s t ∨ Rotated s t := by
  unfold nextSettings at h
  obtain ⟨keyed, hkeyed, h⟩ := bind_eq_ok.1 h
  obtain ⟨cooldownSeconds, -, h⟩ := bind_eq_ok.1 h
  obtain ⟨-, h⟩ := ite_error_eq_ok.1 h
  cases h
  have hstart : SameFactors s (if p.revokeCooldown = true then { s with cooldownExpiresAt := none } else s) := by
    split
    · exact ⟨rfl, rfl, rfl, rfl, rfl, rfl, rfl, rfl⟩
    · exact SameFactors.refl s
  obtain ⟨hgen, hen, hid, hlast, hpend, hproof, hfail, hlock⟩ := hstart
  unfold switchGate
  rcases nextPassword_ok hkeyed with rfl | ⟨hp, v, rfl⟩
  · by_cases hswitch : p.enabled.getD s.enabled ≠ s.enabled ∧ p.newPassword = none
    · simp only [if_pos hswitch]
      exact .inr ⟨congrArg (· + 1) hgen, hen, hid, hlast, hpend, rfl, hfail, hlock⟩
    · simp only [if_neg hswitch]
      exact .inl ⟨hgen, hen, hid, hlast, hpend, hproof, hfail, hlock⟩
  · simp only [if_neg (fun hswitch : p.enabled.getD s.enabled ≠ s.enabled ∧ p.newPassword = none => hp hswitch.2)]
    exact .inr ⟨congrArg (· + 1) hgen, hen, hid, hlast, hpend, rfl, hfail, hlock⟩

theorem nextSettingsState_gate (p : SettingsPayload) (grant : Option Grant) (a : Active Home) :
    (nextSettingsState e c p grant g a).gate = g ∧ (nextSettingsState e c p grant g a).compared = [] ∧
      ∀ t, (nextSettingsState e c p grant g a).answer = .ok t → SameFactors g.state t ∨ Rotated g.state t := by
  unfold nextSettingsState
  split
  · rcases validateGrantLocked c.home c.clock.now { purpose := some .settingsWrite, strict := true } grant g a with
      ⟨f | accepted, active⟩
    · exact ⟨rfl, rfl, fun t ht => by cases ht⟩
    · exact ⟨rfl, rfl, fun t ht => nextSettings_ok ht⟩
  · exact ⟨rfl, rfl, fun t ht => nextSettings_ok ht⟩

theorem updateSettings_moves (p : SettingsPayload) (grant : Option Grant) (a : Active Home) :
    Moved e c asks g (updateSettings e c p grant g a) := by
  obtain ⟨hg, hcs, hok⟩ := nextSettingsState_gate (e := e) (c := c) (g := g) p grant a
  unfold updateSettings
  generalize nextSettingsState e c p grant g a = o at hg hcs hok
  obtain ⟨answer, gate, active, cs, events⟩ := o
  cases answer with
  | error f =>
    subst hg hcs
    exact Move.keep gate
  | ok t =>
    rcases hok t rfl with hsame | hrotated
    · exact Move.idle t [] hsame (.inl rfl)
    · exact Move.rotated t hrotated

theorem validateSettingsUpdate_moves (p : SettingsPayload) (grant : Option Grant) (a : Active Home) :
    Moved e c asks g (validateSettingsUpdate e c p grant g a) := by
  obtain ⟨hg, hcs, -⟩ := nextSettingsState_gate (e := e) (c := c) (g := g) p grant a
  simp only [Moved, validateSettingsUpdate, hg, hcs]
  exact Move.keep g

/-! ### Cooldown and enrolment -/

omit [DecidableEq Home] in
theorem unlockCooldown_moves (duration : Int) (input : GateInput) (a : Active Home) :
    Moved e c asks g (unlockCooldown e c duration input g a) := by
  refine .past (Move.keep g) fun _ => .past (Move.keep g) fun _ => .past (Move.keep g) fun _ => ?_
  split
  · exact Move.keep g
  · exact .past (Move.keep g) fun _ => .past (Move.keep g) fun hopen => .pastPassword a hopen (Move.proved _)

theorem beginTotpEnrollment_moves (input : GateInput) (a : Active Home) :
    Moved e c asks g (beginTotpEnrollment e c input g a) := by
  refine .past (Move.keep g) fun _ => .past (Move.keep g) fun henabled => .past (Move.keep g) fun hopen => ?_
  exact .pastPassword a hopen (Move.began (by simpa using henabled))

theorem confirmCode_moves (input : GateInput) (a : Active Home)
    (hopen : isFuture g.state.lockedUntil c.clock.now = false) :
    Moved e c asks g (confirmCode e c input g a) := by
  have hkeep : Move e c asks g g [.password true] := Move.idle g.state _ (SameFactors.refl g.state) (.inr rfl)
  unfold confirmCode
  split
  · exact hkeep
  rename_i pending hpending
  split
  · exact hkeep
  split
  · exact hkeep
  split
  · exact hkeep
  rename_i secret hsecret
  split
  · exact hkeep
  · exact Move.failed .totp _ _ hopen c.clock.ordered (.confirmation secret)
  · rename_i n _
    exact Move.confirmed pending secret n hpending hsecret

theorem confirmTotpEnrollment_moves (input : GateInput) (a : Active Home) :
    Moved e c asks g (confirmTotpEnrollment e c input g a) := by
  refine .past (Move.keep g) fun _ => .past (Move.keep g) fun hopen => ?_
  exact .pastPassword a hopen (confirmCode_moves input a (by simpa using hopen))

theorem disableTotp_moves (input : GateInput) (a : Active Home) :
    Moved e c asks g (disableTotp e c input g a) := by
  refine .past (Move.keep g) fun _ => .past (Move.keep g) fun hopen => ?_
  split
  · exact .past (Move.keep g) fun _ => Move.keep g
  rename_i secretId hid
  split
  · exact Move.keep g
  split
  · exact Move.keep g
  rename_i secret hsecret
  split
  · exact Move.keep g
  · exact Move.failed .totp _ _ (by simpa using hopen) c.clock.ordered (.code secret)
  · rename_i n hverdict
    refine Move.disabled secretId secret n hid hsecret (fun l hl => ?_)
    obtain ⟨hle, hne⟩ := (verifyTotpCode_accepted hverdict).1 l hl
    have : l ≠ n := fun heq => Bool.false_ne_true (hne heq)
    omega

/-- **Every call makes one of the moves.** -/
theorem perform_moves (call : Call) (a : Active Home) :
    Moved e c (call.asks g.state) g (call.perform e c g a) := by
  cases call with
  | requireApprovalDecision action scope input grant subject nonce =>
    refine .past (Move.keep g) fun hgated => ?_
    cases grant with
    | none => exact verifyOrRaise_asked hgated _ input a
    | some grant => exact validateGrant_moves _ _ a
  | requirePolicyWrite action scope grant => exact .past (Move.keep g) fun _ => validateGrant_moves _ _ a
  | requireRequestResolution action scope grant => exact .past (Move.keep g) fun _ => validateGrant_moves _ _ a
  | requirePolicyClear grant => exact .past (Move.keep g) fun _ => validateGrant_moves _ _ a
  | requireSettingsWrite grant => exact .past (Move.keep g) fun _ => validateGrant_moves _ _ a
  | requireHighRisk purpose input grant action scope subject nonce =>
    refine .past (Move.keep g) fun henabled => ?_
    cases grant with
    | none => exact verifyOrRaise_asked henabled _ input a
    | some grant => exact validateGrant_moves _ _ a
  | requireExtensionControl input action subject nonce =>
    exact .past (Move.keep g) fun henabled => verifyOrRaise_asked henabled _ input a
  | requireLocalCliTrust input action subject nonce =>
    exact .past (Move.keep g) fun henabled => verifyOrRaise_asked henabled _ input a
  | consumeExtensionControlGrant grant action subject nonce => exact consumeGrant_moves _ grant a
  | consumeLocalCliTrustGrant grant action subject nonce => exact consumeGrant_moves _ grant a
  | validateGrant demand grant => exact validateGrant_moves demand grant a
  | updateSettings payload grant => exact updateSettings_moves payload grant a
  | validateSettingsUpdate payload grant => exact validateSettingsUpdate_moves payload grant a
  | revokeCooldown => exact Move.idle _ [] ⟨rfl, rfl, rfl, rfl, rfl, rfl, rfl, rfl⟩ (.inl rfl)
  | unlockCooldown duration input => exact unlockCooldown_moves duration input a
  | beginTotpEnrollment input => exact beginTotpEnrollment_moves input a
  | confirmTotpEnrollment input => exact confirmTotpEnrollment_moves input a
  | disableTotp input => exact disableTotp_moves input a

end Moves

end Guard.ApprovalGate
