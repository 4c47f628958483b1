import HolGuard.ApprovalGate.Moves
/-!
# The accepted codes of a run

What a guard home stores against the history of its codes.  The last counter is the counter of the last code accepted
for the enrolled secret and no counter before it was greater; the recent proof was recorded by an accepted code of the
current factor generation.  A secret is drawn once, so a secret that is only pending has accepted nothing yet.
-/
namespace Guard.ApprovalGate

open Lib

variable {Home Process : Type}

def Comparison.acceptedFor (secret : String) : Comparison → Option Int
  | .password _ => none
  | .code s counter => if s = secret then counter else none

def Taken.accepts [DecidableEq Home] (t : Taken Home Process) (home : Home) (secret : String) : List Int :=
  if t.home = home then t.output.compared.filterMap (Comparison.acceptedFor secret) else []

def acceptedCounters [DecidableEq Home] (home : Home) (secret : String) (ts : List (Taken Home Process)) : List Int :=
  ts.flatMap (fun t => t.accepts home secret)

/-- The session of the call holds an unexpired recent proof for a counter. -/
def Taken.HoldsProof (t : Taken Home Process) (n : Int) : Prop :=
  ∃ proof ∈ t.gate.state.totpRecentProof, proof.payload.sessionBinding = t.input.caller.session ∧
    proof.payload.acceptedCounter = n ∧ t.now < proof.payload.expiresAt

/-- In the history `past`, the call `u` accepted the code of counter `n` for a secret of a home: a counter greater than
every one accepted before for that secret, or the last one again, from the session that holds a recent proof for it. -/
structure CodeAccepted [DecidableEq Home] (past : List (Taken Home Process)) (home : Home) (secret : String)
    (generation : Nat) (u : Taken Home Process) (n : Int) : Prop where
  atHome : u.home = home
  generation : u.gate.state.factorGeneration = generation
  code : .code secret (some n) ∈ u.output.compared
  order : ∃ earlier later, past = earlier ++ u :: later ∧
    ((∀ m ∈ acceptedCounters home secret earlier, m < n) ∨
      (acceptedCounters home secret earlier).getLast? = some n ∧ u.HoldsProof n)

def drawnSecrets (ts : List (Taken Home Process)) : List String := ts.map (fun t => t.input.caller.tokens.secret)

variable [DecidableEq Home]

@[simp] theorem acceptedCounters_snoc (home : Home) (secret : String) (past : List (Taken Home Process))
    (t : Taken Home Process) :
    acceptedCounters home secret (past ++ [t]) = acceptedCounters home secret past ++ t.accepts home secret := by
  simp [acceptedCounters]

variable {secret : String}

theorem CodeAccepted.snoc {past : List (Taken Home Process)} {home : Home} {generation : Nat}
    {u : Taken Home Process} {n : Int} (h : CodeAccepted past home secret generation u n)
    (t : Taken Home Process) : CodeAccepted (past ++ [t]) home secret generation u n := by
  obtain ⟨hhome, hgeneration, hcode, earlier, later, rfl, horder⟩ := h
  exact ⟨hhome, hgeneration, hcode, earlier, later ++ [t], by simp, horder⟩

/-- What a home stores agrees with the codes of its history. -/
structure CodesKept (past : List (Taken Home Process)) (home : Home) (g : Gate) : Prop where
  notPending : g.state.totpEnabled = true → g.state.totpPendingSecretId = none
  enrolled : g.state.totpSecretId ≠ none → g.state.totpEnabled = true
  storedDrawn : ∀ id secret, g.secrets.get? id = some secret → secret ∈ drawnSecrets past
  acceptedDrawn : ∀ secret, acceptedCounters home secret past ≠ [] → secret ∈ drawnSecrets past
  pending : ∀ id secret, g.state.totpPendingSecretId = some id → g.secrets.get? id = some secret →
    acceptedCounters home secret past = []
  last : ∀ secret, g.enrolledSecret = some secret → ∃ l, g.state.totpLastCounter = some l ∧
    (acceptedCounters home secret past).getLast? = some l ∧ ∀ m ∈ acceptedCounters home secret past, m ≤ l
  proof : ∀ p, g.state.totpRecentProof = some p → ∃ secret u, g.enrolledSecret = some secret ∧
    CodeAccepted past home secret g.state.factorGeneration u p.payload.acceptedCounter ∧
      u.now = p.payload.issuedAt ∧ p.payload.expiresAt = p.payload.issuedAt + seconds totpRecentTtlSeconds

theorem CodesKept.initial (home : Home) : CodesKept ([] : List (Taken Home Process)) home .initial where
  notPending _ := rfl
  enrolled h := absurd rfl h
  storedDrawn id secret h := by cases h
  acceptedDrawn secret h := absurd rfl h
  pending id secret h := by cases h
  last secret h := by cases h
  proof p h := by cases h

section Step

variable {past : List (Taken Home Process)} {home : Home} {g g' : Gate} {t : Taken Home Process}

omit [DecidableEq Home] in
theorem mem_drawnSecrets_snoc (h : secret ∈ drawnSecrets past) :
    secret ∈ drawnSecrets (past ++ [t]) := by
  simp only [drawnSecrets, List.map_append, List.mem_append]
  exact .inl h

theorem CodesKept.keep (h : CodesKept past home g) (hnone : ∀ secret, t.accepts home secret = [])
    (hsecrets : g'.secrets = g.secrets) (henabled : g'.state.totpEnabled = g.state.totpEnabled)
    (hid : g'.state.totpSecretId = g.state.totpSecretId) (hlast : g'.state.totpLastCounter = g.state.totpLastCounter)
    (hpending : g'.state.totpPendingSecretId = g.state.totpPendingSecretId) (hproof : g'.state.totpRecentProof = none ∨
      g'.state.totpRecentProof = g.state.totpRecentProof ∧ g'.state.factorGeneration = g.state.factorGeneration) :
    CodesKept (past ++ [t]) home g' := by
  have hsecret : g'.enrolledSecret = g.enrolledSecret := by simp only [Gate.enrolledSecret, hsecrets, hid]
  have hcounters : ∀ secret, acceptedCounters home secret (past ++ [t]) = acceptedCounters home secret past := by
    intro secret
    rw [acceptedCounters_snoc, hnone, List.append_nil]
  refine ⟨?_, ?_, ?_, ?_, ?_, ?_, ?_⟩
  · rw [henabled, hpending]
    exact h.notPending
  · rw [hid, henabled]
    exact h.enrolled
  · intro id secret hget
    rw [hsecrets] at hget
    exact mem_drawnSecrets_snoc (h.storedDrawn id secret hget)
  · intro secret hne
    rw [hcounters] at hne
    exact mem_drawnSecrets_snoc (h.acceptedDrawn secret hne)
  · intro id secret hp hget
    rw [hpending] at hp
    rw [hsecrets] at hget
    rw [hcounters]
    exact h.pending id secret hp hget
  · intro secret hs
    rw [hsecret] at hs
    rw [hlast, hcounters]
    exact h.last secret hs
  · intro p hp
    rcases hproof with hgone | ⟨hsame, hgeneration⟩
    · rw [hgone] at hp
      cases hp
    · rw [hsame] at hp
      obtain ⟨secret, u, hs, haccepted, hrest⟩ := h.proof p hp
      rw [hsecret, hgeneration]
      exact ⟨secret, u, hs, haccepted.snoc t, hrest⟩

theorem CodesKept.elsewhere (h : CodesKept past home g) (hhome : t.home ≠ home) : CodesKept (past ++ [t]) home g :=
  h.keep (fun _ => if_neg hhome) rfl rfl rfl rfl rfl (.inr ⟨rfl, rfl⟩)

theorem accepts_of_compared (hhome : t.home = home) {cs : List Comparison} (hcs : t.output.compared = cs)
    (secret : String) : t.accepts home secret = cs.filterMap (Comparison.acceptedFor secret) := by
  rw [Taken.accepts, if_pos hhome, hcs]

theorem accepts_of_code {n : Int} (hhome : t.home = home)
    (hcs : t.output.compared = [.code secret (some n)] ∨ t.output.compared = [.password true, .code secret (some n)])
    (s : String) : t.accepts home s = if secret = s then [n] else [] := by
  have hcode : [Comparison.code secret (some n)].filterMap (Comparison.acceptedFor s) =
      if secret = s then [n] else [] := by
    by_cases hs : secret = s
    · simp [Comparison.acceptedFor, hs]
    · simp [Comparison.acceptedFor, hs]
  rcases hcs with hcs | hcs
  · rw [accepts_of_compared hhome hcs, hcode]
  · rw [accepts_of_compared hhome hcs, ← hcode]
    rfl

theorem CodesKept.coded (h : CodesKept past home g) {e : Env} {code : String} {n : Int}
    {allow : Bool} (hgate : t.gate = g) (hhome : t.home = home)
    (hcs : t.output.compared = [.code secret (some n)]) (henabled : g.state.totpEnabled = true)
    (hsecret : g.enrolledSecret = some secret) (hverdict : verifyTotpCode e secret code t.now g.state.totpLastCounter
      (allow && recentTotpSatisfied e g t.input.caller.session t.now) = .accepted n) :
    CodesKept (past ++ [t]) home
      { g with state := resetFailedAttempts (provedByCode e g.state secret t.input.caller.session n t.now) } := by
  have haccepts := accepts_of_code hhome (.inl hcs)
  obtain ⟨l, hl, hlast, hmax⟩ := h.last secret hsecret
  obtain ⟨hle, hreuse⟩ := (verifyTotpCode_accepted hverdict).1 l hl
  have hdrawn : secret ∈ drawnSecrets past :=
    h.acceptedDrawn secret (fun hnil => by rw [hnil] at hlast; cases hlast)
  refine ⟨h.notPending, h.enrolled, fun id s hget => mem_drawnSecrets_snoc (h.storedDrawn id s hget), ?_, ?_, ?_, ?_⟩
  · intro s hne
    by_cases hs : secret = s
    · rw [← hs]
      exact mem_drawnSecrets_snoc hdrawn
    · rw [acceptedCounters_snoc, haccepts, if_neg hs, List.append_nil] at hne
      exact mem_drawnSecrets_snoc (h.acceptedDrawn s hne)
  · intro id s hp
    have := h.notPending henabled
    rw [show g.state.totpPendingSecretId = some id from hp] at this
    cases this
  · intro s hs
    have hsame : s = secret := Option.some.inj (hs.symm.trans hsecret)
    subst hsame
    refine ⟨n, rfl, ?_, ?_⟩
    · rw [acceptedCounters_snoc, haccepts, if_pos rfl, List.getLast?_concat]
    · intro m hm
      rw [acceptedCounters_snoc, haccepts, if_pos rfl] at hm
      rcases List.mem_append.1 hm with hm | hm
      · exact (hmax m hm).trans hle
      · exact (List.mem_singleton.1 hm).le
  · intro p hp
    obtain ⟨id, hid, rfl⟩ := Option.map_eq_some_iff.1 hp
    refine ⟨secret, t, hsecret, ⟨hhome, congrArg (fun x => x.state.factorGeneration) hgate, ?_, past, [], rfl, ?_⟩,
      rfl, rfl⟩
    · rw [hcs]
      exact List.mem_cons_self
    -- the counter is above the last one, or equal to it and let through by the recent proof
    by_cases heq : l = n
    · have hstands := (Bool.and_eq_true _ _ ▸ hreuse heq).2
      obtain ⟨q, hq, hsession, hcounter, hunexpired⟩ := recentTotpSatisfied_spec hstands
      have hn : q.payload.acceptedCounter = n := by
        rw [hl] at hcounter
        exact (Option.some.inj hcounter).symm.trans heq
      refine .inr ⟨heq ▸ hlast, q, ?_, hsession, hn, hunexpired⟩
      rw [hgate]
      exact hq
    · refine .inl (fun m hm => ?_)
      have := hmax m hm
      change m < n
      omega

omit [DecidableEq Home] in
theorem drawn_fresh {c : Caller Home} (hcaller : t.input.caller = c) :
    c.tokens.secret ∈ drawnSecrets (past ++ [t]) := by
  simp [drawnSecrets, hcaller]

theorem CodesKept.began (h : CodesKept past home g) {c : Caller Home} (hcaller : t.input.caller = c)
    (hhome : t.home = home) (hcs : t.output.compared = [.password true]) (henabled : g.state.totpEnabled = false)
    (hfresh : c.tokens.secret ∉ drawnSecrets past) : CodesKept (past ++ [t]) home (beganEnrollment c g) := by
  have hnone : ∀ s, t.accepts home s = [] := fun s => accepts_of_compared hhome hcs s
  have hid : g.state.totpSecretId = none := by
    by_contra hne
    rw [h.enrolled hne] at henabled
    cases henabled
  have hget : ∀ id s, (beganEnrollment c g).secrets.get? id = some s →
      (id = c.tokens.secretId ∧ s = c.tokens.secret) ∨ g.secrets.get? id = some s := by
    intro id s hs
    simp only [beganEnrollment, KeyMap.get?_insert] at hs
    split at hs
    · rename_i hkey
      cases hs
      exact .inl ⟨hkey, rfl⟩
    · exact .inr (KeyMap.get?_retain.1 hs).1
  refine ⟨fun hen => ?_, fun hne => absurd hid hne, ?_, ?_, ?_, ?_, fun p hp => (by cases hp)⟩
  · rw [show (beganEnrollment c g).state.totpEnabled = g.state.totpEnabled from rfl, henabled] at hen
    cases hen
  · intro id s hs
    rcases hget id s hs with ⟨-, rfl⟩ | hold
    · exact drawn_fresh hcaller
    · exact mem_drawnSecrets_snoc (h.storedDrawn id s hold)
  · intro s hne
    rw [acceptedCounters_snoc, hnone, List.append_nil] at hne
    exact mem_drawnSecrets_snoc (h.acceptedDrawn s hne)
  · intro id s hp hs
    have hkey : c.tokens.secretId = id := Option.some.inj hp
    subst hkey
    have hs' : s = c.tokens.secret := by
      simp only [beganEnrollment, KeyMap.get?_insert, if_pos] at hs
      exact (Option.some.inj hs).symm
    rw [acceptedCounters_snoc, hnone, List.append_nil, hs']
    by_contra hne
    exact hfresh (h.acceptedDrawn _ hne)
  · intro s hs
    simp only [Gate.enrolledSecret, beganEnrollment, rotateAuthenticationState, resetFailedAttempts, hid] at hs
    cases hs

theorem CodesKept.confirmed (h : CodesKept past home g) {pending : String} {n : Int}
    (hhome : t.home = home) (hcs : t.output.compared = [.password true, .code secret (some n)])
    (hpending : g.state.totpPendingSecretId = some pending) (hsecret : g.secrets.get? pending = some secret) :
    CodesKept (past ++ [t]) home (confirmedEnrollment pending n g) := by
  have haccepts := accepts_of_code hhome (.inr hcs)
  have hget : ∀ id s, (confirmedEnrollment pending n g).secrets.get? id = some s → g.secrets.get? id = some s := by
    intro id s hs
    simp only [confirmedEnrollment] at hs
    split at hs
    · exact hs
    · exact (KeyMap.get?_retain.1 hs).1
  refine ⟨fun _ => rfl, fun _ => rfl, fun id s hs => mem_drawnSecrets_snoc (h.storedDrawn id s (hget id s hs)), ?_,
    fun id s hp => (by cases hp), ?_, fun p hp => (by cases hp)⟩
  · intro s hne
    by_cases hs : secret = s
    · rw [← hs]
      exact mem_drawnSecrets_snoc (h.storedDrawn pending secret hsecret)
    · rw [acceptedCounters_snoc, haccepts, if_neg hs, List.append_nil] at hne
      exact mem_drawnSecrets_snoc (h.acceptedDrawn s hne)
  · intro s hs
    have hsame : s = secret := Option.some.inj ((hget pending s hs).symm.trans hsecret)
    subst hsame
    refine ⟨n, rfl, ?_, ?_⟩ <;>
      rw [acceptedCounters_snoc, haccepts, if_pos rfl, h.pending pending s hpending hsecret, List.nil_append]
    · rfl
    · intro m hm
      exact (List.mem_singleton.1 hm).le

theorem CodesKept.disabled (h : CodesKept past home g) {secretId : String} {n : Int}
    (hhome : t.home = home) (hcs : t.output.compared = [.code secret (some n)])
    (hsecret : g.secrets.get? secretId = some secret) :
    CodesKept (past ++ [t]) home (disabledTotp secretId g) := by
  refine ⟨fun hen => (by cases hen), fun hne => absurd rfl hne, fun id s hs => ?_, ?_, fun id s hp => (by cases hp),
    fun s hs => (by cases hs), fun p hp => (by cases hp)⟩
  · exact mem_drawnSecrets_snoc (h.storedDrawn id s (KeyMap.get?_retain.1 (KeyMap.get?_retain.1 hs).1).1)
  · intro s hne
    by_cases hs : secret = s
    · rw [← hs]
      exact mem_drawnSecrets_snoc (h.storedDrawn secretId secret hsecret)
    · rw [acceptedCounters_snoc, accepts_of_code hhome (.inl hcs), if_neg hs, List.append_nil] at hne
      exact mem_drawnSecrets_snoc (h.acceptedDrawn s hne)

/-- **Every move keeps the stored state in step with the accepted codes.** -/
theorem CodesKept.moved (h : CodesKept past home t.gate) {e : Env} {asks : Option GateInput} (hhome : t.home = home)
    (hmove : Move e t.input.caller asks t.gate g' t.output.compared)
    (hfresh : t.input.caller.tokens.secret ∉ drawnSecrets past) : CodesKept (past ++ [t]) home g' := by
  have haccepts := accepts_of_compared hhome (rfl : t.output.compared = t.output.compared)
  generalize hcs : t.output.compared = cs at hmove haccepts
  cases hmove with
  | idle s _ hs hquiet =>
    refine h.keep (fun secret => ?_) rfl hs.totpEnabled hs.secretId hs.lastCounter hs.pendingId
      (.inr ⟨hs.recentProof, hs.generation⟩)
    rw [haccepts]
    rcases hquiet with rfl | rfl <;> rfl
  | failed factor now _ hopen hnow hwrong =>
    have hnone : ∀ secret, t.accepts home secret = [] := fun secret => by
      rw [haccepts]
      cases hwrong with
      | password => rfl
      | code s => by_cases hs : s = secret <;> simp [Comparison.acceptedFor, hs]
      | confirmation s => by_cases hs : s = secret <;> simp [Comparison.acceptedFor, hs, List.filterMap_cons]
    unfold recordFailedAttempt
    by_cases hfull : lockoutFailures ≤ t.gate.state.failures factor + 1 ∨
        combinedLockoutFailures ≤ t.gate.state.failedAttempts + 1
    · simp only [if_pos hfull]
      exact h.keep hnone rfl rfl rfl rfl rfl (.inr ⟨rfl, rfl⟩)
    · simp only [if_neg hfull]
      cases factor <;> exact h.keep hnone rfl rfl rfl rfl rfl (.inr ⟨rfl, rfl⟩)
  | reused input hask henabled hcode hrequired hrecent =>
    exact h.keep haccepts rfl rfl rfl rfl rfl (.inr ⟨rfl, rfl⟩)
  | coded input code secret n hask henabled hcode hsecret hverdict =>
    exact h.coded rfl hhome hcs henabled hsecret hverdict
  | proved cooldown => exact h.keep haccepts rfl rfl rfl rfl rfl (.inr ⟨rfl, rfl⟩)
  | began henabled => exact h.began rfl hhome hcs henabled hfresh
  | confirmed pending secret n hpending hsecret => exact h.confirmed hhome hcs hpending hsecret
  | disabled secretId secret n hid hsecret hlast => exact h.disabled hhome hcs hsecret
  | rotated s hs =>
    exact h.keep haccepts rfl hs.totpEnabled hs.secretId hs.lastCounter hs.pendingId (.inl hs.recentProof)

end Step

end Guard.ApprovalGate
