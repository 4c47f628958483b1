import HolGuard.ApprovalGate.Moves
import HolGuard.Lib.Lockout
/-!
# Guessing at the approval gate

The failure budget of a guard home is a lockout of five failures and 300 seconds, and every call is a step of it as long
as the budget is only renewed by a factor that was proved.  A recent proof of the session renews it too:
`_verify_or_raise` resets the budget when no code, or the last code again, is entered while that proof stands.
-/
namespace Guard.ApprovalGate

open Lib

variable {Home Process : Type}

def Comparison.wrong : Comparison → Bool
  | .password correct => !correct
  | .code _ counter => counter.isNone

def State.budget (s : State) : Lockout := ⟨s.failedAttempts, s.lockedUntil⟩

namespace Taken

/-- No correct password and no correct unused code was entered: a code that matched is the last accepted one again. -/
def provesNothing (t : Taken Home Process) : Bool :=
  t.output.compared.all fun
    | .password correct => !correct
    | .code _ none => true
    | .code _ (some n) => decide (t.gate.state.totpLastCounter = some n)

def wrongComparisons (t : Taken Home Process) : List Comparison := t.output.compared.filter Comparison.wrong

end Taken

/-- The wrong passwords and codes compared at a home from `start` to before `stop`. -/
def wrongCompared [DecidableEq Home] (home : Home) (start stop : Int) (ts : List (Taken Home Process)) :
    List Comparison :=
  (ts.filter fun t => decide (t.home = home) && (decide (start ≤ t.now) && decide (t.now < stop))).flatMap
    Taken.wrongComparisons

def isLastCode (e : Env) (g : Gate) (code : String) : Bool :=
  match g.enrolledSecret, g.state.totpLastCounter with
  | some secret, some last => e.totpCodeAtCounter secret last == pythonStrip code
  | _, _ => false

/-- A check leans on the recent proof of its session: the gate asks for a code and is not locked, that proof stands, a
fresh code is not required, and no code is entered or the last one again. -/
def leansOnRecent (e : Env) (c : Caller Home) (asks : Option GateInput) (g : Gate) : Bool :=
  asks.any fun input =>
    g.state.totpEnabled && !isFuture g.state.lockedUntil c.clock.now && !input.requireFreshTotp &&
      recentTotpSatisfied e g c.session c.clock.now && input.totpCode.all (isLastCode e g)

section Budget

variable {e : Env} {c : Caller Home} {asks : Option GateInput} {g g' : Gate} {cs : List Comparison}

theorem Move.wrong_length (h : Move e c asks g g' cs) :
    (cs.filter Comparison.wrong).length = if cs.any Comparison.wrong then 1 else 0 := by
  cases h with
  | idle s _ hs hcs => rcases hcs with rfl | rfl <;> rfl
  | failed factor t _ hopen ht hcs => cases hcs <;> rfl
  | reused | coded | proved | began | confirmed | disabled | rotated => rfl

theorem isFuture_openAt {s : State} {t : Int} (h : isFuture s.lockedUntil t = false) : s.budget.OpenAt t := by
  intro u hu
  simp only [State.budget, Option.mem_def] at hu
  simpa [isFuture, hu] using h

/-- A recorded failure is counted, or closes the budget for 300 seconds from the call on. -/
theorem recordFailedAttempt_step {s : State} {factor : Factor} {now t : Int} (hopen : s.budget.OpenAt now)
    (ht : now ≤ t) :
    Lockout.Step 5 (seconds 300) s.budget now true (recordFailedAttempt s factor t).budget := by
  by_cases hfull : lockoutFailures ≤ s.failures factor + 1 ∨ combinedLockoutFailures ≤ s.failedAttempts + 1
  · have hafter : (recordFailedAttempt s factor t).budget = ⟨0, some (t + seconds 300)⟩ := by
      simp only [recordFailedAttempt, if_pos hfull]
      rfl
    rw [hafter]
    exact Lockout.Step.closed _ _ _ _ hopen (by omega)
  · have hafter : (recordFailedAttempt s factor t).budget = ⟨s.budget.count + 1, s.budget.closedUntil⟩ := by
      simp only [recordFailedAttempt, if_neg hfull]
      cases factor <;> rfl
    rw [hafter]
    refine Lockout.Step.counted _ _ hopen ?_
    have hcount := (not_or.1 hfull).2
    change ¬ 5 ≤ s.budget.count + 1 at hcount
    omega

/-- **Without a proof, a call is a step of the lockout.** -/
theorem Move.budget_step (h : Move e c asks g g' cs) (hrecent : leansOnRecent e c asks g = false)
    (hpassword : .password true ∉ cs)
    (hcode : ∀ secret n, .code secret (some n) ∈ cs → g.state.totpLastCounter = some n) :
    Lockout.Step 5 (seconds 300) g.state.budget c.clock.now (cs.any Comparison.wrong) g'.state.budget := by
  cases h with
  | idle s _ hs hcs =>
    have hsame : s.budget = g.state.budget := by simp only [State.budget, hs.failedAttempts, hs.lockedUntil]
    rcases hcs with rfl | rfl
    · rw [hsame]
      exact Lockout.Step.idle _ _
    · exact absurd List.mem_cons_self hpassword
  | failed factor t _ hopen ht hcs =>
    have hwrong : cs.any Comparison.wrong = true := by cases hcs <;> rfl
    rw [hwrong]
    exact recordFailedAttempt_step (isFuture_openAt hopen) ht
  | reused input hask henabled hnone hfresh hstands hopen =>
    simp [leansOnRecent, hask, henabled, hopen, hnone, hfresh, hstands] at hrecent
  | coded input code secret n hask henabled hentered hsecret hverdict hopen =>
    -- a code that matched the last counter again was let through by the recent proof
    have hlast := hcode secret n List.mem_cons_self
    obtain ⟨hallowed, htext⟩ := verifyTotpCode_accepted hverdict
    have hallow := (hallowed n hlast).2 rfl
    simp only [Bool.and_eq_true, Bool.not_eq_true'] at hallow
    simp [leansOnRecent, isLastCode, hask, henabled, hopen, hentered, hallow, hsecret, hlast, htext] at hrecent
  | proved | began | confirmed => exact absurd List.mem_cons_self hpassword
  | disabled secretId secret n hid hsecret hbelow =>
    have hlast := hcode secret n List.mem_cons_self
    exact absurd (hbelow n hlast) (lt_irrefl n)
  | rotated s hs =>
    have hsame : s.budget = g.state.budget := by simp only [State.budget, hs.failedAttempts, hs.lockedUntil]
    rw [hsame]
    exact Lockout.Step.idle _ _

end Budget

section Runs

variable [DecidableEq Home] [DecidableEq Process] {e : Env}

def budgetEvents (home : Home) (ts : List (Taken Home Process)) : List (Int × Bool) :=
  (ts.filter fun t => decide (t.home = home)).map fun t => (t.now, t.output.compared.any Comparison.wrong)

/-- A call that proves nothing, and is not passed by a recent proof. -/
def Unproved (e : Env) (t : Taken Home Process) : Prop :=
  t.provesNothing = true ∧ leansOnRecent e t.input.caller (t.input.call.asks t.gate.state) t.gate = false

theorem Unproved.step {w : World Home Process} {s : Step Home Process} (h : Unproved e (s.taken e w)) :
    Lockout.Step 5 (seconds 300) (w.gates s.caller.home).state.budget s.caller.clock.now
      ((s.perform e w).compared.any Comparison.wrong) (s.perform e w).gate.state.budget := by
  obtain ⟨hnothing, hrecent⟩ := h
  have hall := List.all_eq_true.1 hnothing
  refine (perform_moves s.call (w.active s.process)).budget_step hrecent (fun hmem => ?_) (fun secret n hmem => ?_)
  · have := hall _ hmem
    simp at this
  · exact of_decide_eq_true (hall _ hmem)

/-- **A stretch without a proof is a run of the lockout.** -/
theorem budgetEvents_runs (home : Home) : ∀ (steps : List (Step Home Process)) (w : World Home Process),
    (∀ t ∈ calls e w steps, t.home = home → Unproved e t) →
      Lockout.Runs 5 (seconds 300) (w.gates home).state.budget (budgetEvents home (calls e w steps))
  | [], w, _ => Lockout.Runs.nil _
  | s :: steps, w, h => by
    rw [calls_cons] at h ⊢
    have hrest := budgetEvents_runs home steps (s.taken e w).after (fun t ht => h t (List.mem_cons_of_mem _ ht))
    rw [taken_gates] at hrest
    by_cases hhome : (s.taken e w).home = home
    · have hstep := (h _ List.mem_cons_self hhome).step
      subst hhome
      rw [if_pos (show (s.taken e w).home = s.caller.home from rfl)] at hrest
      rw [budgetEvents, List.filter_cons_of_pos (by simp), List.map_cons]
      exact Lockout.Runs.cons hstep hrest
    · rw [if_neg (fun h => hhome h.symm)] at hrest
      rw [budgetEvents, List.filter_cons_of_neg (by simpa using hhome)]
      exact hrest

theorem wrongCompared_length (home : Home) (start stop : Int) : ∀ (steps : List (Step Home Process))
    (w : World Home Process), (wrongCompared home start stop (calls e w steps)).length =
      (Lockout.failures start stop (budgetEvents home (calls e w steps))).length
  | [], w => rfl
  | s :: steps, w => by
    have hrest := wrongCompared_length home start stop steps (s.taken e w).after
    have hone : (s.taken e w).wrongComparisons.length =
        if (s.taken e w).output.compared.any Comparison.wrong then 1 else 0 :=
      (perform_moves s.call (w.active s.process)).wrong_length
    rw [calls_cons]
    by_cases hhome : (s.taken e w).home = home
    · rw [budgetEvents, List.filter_cons_of_pos (by simpa using hhome), List.map_cons, Lockout.failures_cons]
      by_cases hwindow : start ≤ (s.taken e w).now ∧ (s.taken e w).now < stop
      · rw [wrongCompared, List.filter_cons_of_pos (by simp [hhome, hwindow]), List.flatMap_cons, List.length_append,
          hone]
        simp only [hwindow, and_true]
        exact congrArg _ hrest
      · rw [wrongCompared, List.filter_cons_of_neg (by simpa [hhome] using hwindow), if_neg (fun h => hwindow h.2),
          Nat.zero_add]
        exact hrest
    · rw [budgetEvents, List.filter_cons_of_neg (by simpa using hhome), wrongCompared,
        List.filter_cons_of_neg (by simp [hhome])]
      exact hrest

omit [DecidableEq Home] [DecidableEq Process] in
theorem InOrder.now_le {steps : List (Step Home Process)} (h : InOrder steps) :
    (steps.map (fun s => s.caller.clock.now)).Pairwise (· ≤ ·) := by
  rw [List.pairwise_map]
  exact h.imp (fun {s t} hst => s.caller.clock.ordered.trans hst)

theorem calls_now (w : World Home Process) : ∀ steps : List (Step Home Process),
    (calls e w steps).map Taken.now = steps.map (fun s => s.caller.clock.now) := by
  intro steps
  induction steps generalizing w with
  | nil => rfl
  | cons s steps ih => rw [calls_cons, List.map_cons, List.map_cons, ih]; rfl

theorem budgetEvents_sorted {home : Home} {steps : List (Step Home Process)} {w : World Home Process}
    (h : InOrder steps) : (budgetEvents home (calls e w steps)).Pairwise (fun x y => x.1 ≤ y.1) := by
  have hnow := h.now_le
  rw [← calls_now (e := e) w steps, List.pairwise_map] at hnow
  rw [budgetEvents, List.pairwise_map]
  exact hnow.sublist List.filter_sublist

/-- **At most five wrong factors in 300 seconds.**  In a stretch of calls in which no correct password and no correct
unused code is entered at a home and no check there is passed by a recent proof, at most five wrong passwords or codes
are compared in any half-open window of 300 seconds. -/
theorem five_wrong_factors_a_window (e : Env) (w : World Home Process) (steps : List (Step Home Process)) (home : Home)
    (horder : InOrder steps) (hproofs : ∀ t ∈ calls e w steps, t.home = home → t.provesNothing = true)
    (hrecent : ∀ t ∈ calls e w steps, t.home = home →
      leansOnRecent e t.input.caller (t.input.call.asks t.gate.state) t.gate = false)
    (start : Int) : (wrongCompared home start (start + seconds 300) (calls e w steps)).length ≤ 5 := by
  rw [wrongCompared_length]
  exact Lockout.Runs.window_le (by decide) start
    (budgetEvents_runs home steps w (fun t ht hhome => ⟨hproofs t ht hhome, hrecent t ht hhome⟩))
    (budgetEvents_sorted horder)

end Runs

/-! ## A run of guesses -/

/-- Hashing and codes that can be read: a password is its own hash, the code of counter `n` is `100000 + n`. -/
def sampleEnv : Env where
  totpCodeAtCounter _ n := toString (100000 + n)
  pbkdf2 password _ _ := password
  isDigit := Char.isDigit
  payloadHash _ _ := "hash"
  payloadMac secret _ _ := secret

def sampleStep (second : Int) (number : Nat) (call : Call) : Step Unit Unit where
  process := ()
  caller :=
    { home := ()
      session := "terminal"
      clock := ⟨seconds second, seconds second, le_rfl⟩
      tokens :=
        ⟨"grant-" ++ toString number, "subject", "nonce", "secret-id-" ++ toString number, "secret-" ++ toString number,
          "salt"⟩ }
  call := call

def enableGate : Call :=
  .updateSettings { enabled := some true, newPassword := some "correct horse", confirmPassword := some "correct horse" }
    none

def checkWith (code : Option String) : Call :=
  .requireHighRisk .policyClear { totpCode := code } none none none none none

def enrolment : List (Step Unit Unit) :=
  [sampleStep 30 1 enableGate,
    sampleStep 31 2 (.beginTotpEnrollment { password := some "correct horse" }),
    sampleStep 32 3 (.confirmTotpEnrollment { password := some "correct horse", totpCode := some "100001" }),
    sampleStep 60 4 (checkWith (some "100002"))]

def guesses : List (Step Unit Unit) :=
  [sampleStep 61 5 (checkWith (some "000000")), sampleStep 62 6 (checkWith (some "000001")),
    sampleStep 63 7 (checkWith (some "000002")), sampleStep 64 8 (checkWith (some "000003")),
    sampleStep 65 9 (checkWith none),
    sampleStep 66 10 (checkWith (some "000004")), sampleStep 67 11 (checkWith (some "000005")),
    sampleStep 68 12 (checkWith (some "000006")), sampleStep 69 13 (checkWith (some "000007"))]

def enrolled : World Unit Unit := (machine sampleEnv).final .initial enrolment

/-- **A recent proof renews the guesses**: eight wrong codes are compared in nine seconds, with nothing proved. -/
theorem recent_proof_renews_guesses : InOrder (enrolment ++ guesses) ∧
    (∀ t ∈ calls sampleEnv enrolled guesses, t.provesNothing = true) ∧
      (wrongCompared () (seconds 61) (seconds 61 + seconds 300) (calls sampleEnv enrolled guesses)).length = 8 := by
  refine ⟨?_, ?_, ?_⟩
  · unfold InOrder
    decide +kernel
  · decide +kernel
  · decide +kernel

/-- Without the check that leans on the recent proof, the fifth wrong code closes the gate. -/
theorem sixth_guess_locked : InOrder (guesses.eraseIdx 4) ∧
    (wrongCompared () (seconds 61) (seconds 61 + seconds 300)
      (calls sampleEnv enrolled (guesses.eraseIdx 4))).length ≤ 5 := by
  have horder : InOrder (guesses.eraseIdx 4) := by
    unfold InOrder
    decide +kernel
  have hproofs : ∀ t ∈ calls sampleEnv enrolled (guesses.eraseIdx 4), t.home = () → t.provesNothing = true := by
    decide +kernel
  have hrecent : ∀ t ∈ calls sampleEnv enrolled (guesses.eraseIdx 4), t.home = () →
      leansOnRecent sampleEnv t.input.caller (t.input.call.asks t.gate.state) t.gate = false := by
    decide +kernel
  exact ⟨horder, five_wrong_factors_a_window sampleEnv enrolled _ () horder hproofs hrecent (seconds 61)⟩

end Guard.ApprovalGate
