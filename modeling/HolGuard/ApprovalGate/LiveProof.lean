import HolGuard.ApprovalGate.Codes
import HolGuard.ApprovalGate.Guessing
import HolGuard.ApprovalGate.Handling
/-!
# Accepted grants rest on a live proof

Over whole runs, by any processes on any guard homes: a grant that is accepted while authenticator codes are on rests on
a code of the enrolled secret, accepted in the current factor generation.  The grant lives 30 seconds and the recent
proof 60, so the code is at most 90 seconds old when the issuing call reads one time; a call without `now` reads the
clock again when it registers the grant, and the age grows by what passed between.
-/
namespace Guard.ApprovalGate

open Lib

variable {Home Process : Type}

def drawnGrants (ts : List (Taken Home Process)) : List String := ts.map (fun t => t.input.caller.tokens.grantId)

def World.generation (w : World Home Process) (home : Home) : Nat := (w.gates home).state.factorGeneration

variable [DecidableEq Home]

/-- The entry `m` under `id` in the table of a process was filed by the call `v`, and while its factor generation stands
a code backs it. -/
structure Filed (past : List (Taken Home Process)) (w : World Home Process) (process : Process) (id : String)
    (m : Metadata Home) (v : Taken Home Process) : Prop where
  mem : v ∈ past
  grant : ∃ grant, .issued grant ∈ v.output.grants ∧ grant.grantId = id ∧ grant.terms = m.terms
  drawn : v.input.caller.tokens.grantId = id
  byProcess : v.input.process = process
  atHome : v.home = m.guardHome
  expires : m.expiresEpoch = v.input.caller.clock.later + seconds grantTtlSeconds
  generation : m.factorGeneration = v.gate.state.factorGeneration
  bound : m.factorGeneration ≤ w.generation m.guardHome
  live : m.terms.factorSet = [.totp] → m.factorGeneration = w.generation m.guardHome →
    ∃ secret u n, (w.gates m.guardHome).enrolledSecret = some secret ∧
      CodeAccepted past m.guardHome secret m.factorGeneration u n ∧ v.now < u.now + seconds totpRecentTtlSeconds

/-- What a run keeps: the codes of every home, the origin of every entry, and that consumed grants are gone. -/
structure Kept (past : List (Taken Home Process)) (w : World Home Process) : Prop where
  codes : ∀ home, CodesKept past home (w.gates home)
  filed : ∀ p id m, (w.active p).get? id = some m → ∃ v, Filed past w p id m v
  consumed : ∀ u ∈ past, ∀ grant, .consumed grant ∈ u.output.grants →
    grant.grantId ∈ drawnGrants past ∧ ∀ p, (w.active p).get? grant.grantId = none

theorem Kept.initial : Kept ([] : List (Taken Home Process)) .initial where
  codes := CodesKept.initial
  filed p id m h := by cases h
  consumed u hu := by cases hu

section Step

variable [DecidableEq Process] {e : Env} {past : List (Taken Home Process)} {w : World Home Process}
    {s : Step Home Process}

theorem taken_active (p : Process) :
    (s.taken e w).after.active p = if p = s.process then (s.perform e w).active else w.active p := by
  simp only [Step.taken, machine, Function.update_apply]

/-- The generation of a home never goes back, and while it stands the enrolled secret does. -/
theorem taken_generation (home : Home) : w.generation home ≤ (s.taken e w).after.generation home ∧
    ((s.taken e w).after.generation home = w.generation home →
      ((s.taken e w).after.gates home).enrolledSecret = (w.gates home).enrolledSecret) := by
  unfold World.generation
  rw [taken_gates]
  by_cases hhome : home = s.caller.home
  · rw [if_pos hhome, hhome]
    exact (perform_moves s.call (w.active s.process)).generation
  · rw [if_neg hhome]
    exact ⟨le_rfl, fun _ => rfl⟩

theorem CodesKept.taken (h : ∀ home, CodesKept past home (w.gates home))
    (hsecret : s.caller.tokens.secret ∉ drawnSecrets past) (home : Home) :
    CodesKept (past ++ [s.taken e w]) home ((s.taken e w).after.gates home) := by
  rw [taken_gates]
  by_cases hhome : home = s.caller.home
  · rw [if_pos hhome, hhome]
    exact (h s.caller.home).moved (t := s.taken e w) rfl (perform_moves s.call (w.active s.process)) hsecret
  · rw [if_neg hhome]
    exact (h home).elsewhere (fun h => hhome h.symm)

theorem Filed.snoc {p : Process} {id : String} {m : Metadata Home} {v : Taken Home Process}
    (h : Filed past w p id m v) : Filed (past ++ [s.taken e w]) (s.taken e w).after p id m v := by
  obtain ⟨hle, hsame⟩ := taken_generation (e := e) (w := w) (s := s) m.guardHome
  refine ⟨List.mem_append_left _ h.mem, h.grant, h.drawn, h.byProcess, h.atHome, h.expires, h.generation,
    h.bound.trans hle, fun htotp hcurrent => ?_⟩
  have hbound := h.bound
  obtain ⟨secret, u, n, hsecret, haccepted, hrecent⟩ := h.live htotp (by omega)
  refine ⟨secret, u, n, ?_, haccepted.snoc _, hrecent⟩
  rw [hsame (by omega)]
  exact hsecret

/-- An entry a call files is backed by the recent proof the call leaves. -/
theorem Filed.new (hcodes : CodesKept (past ++ [s.taken e w]) s.caller.home ((s.taken e w).after.gates s.caller.home))
    {grant : Grant} (hissued : .issued grant ∈ (s.perform e w).grants) :
    Filed (past ++ [s.taken e w]) (s.taken e w).after s.process grant.grantId
      ⟨s.caller.home, grant.expiresAt, grant.terms, (w.gates s.caller.home).state.factorGeneration⟩ (s.taken e w) := by
  obtain ⟨hid, hexpires, htotp⟩ :=
    (perform_handles (e := e) (c := s.caller) (g := w.gates s.caller.home) (a := w.active s.process) s.call).issued
      grant hissued
  refine ⟨List.mem_concat_self, ⟨grant, hissued, rfl, rfl⟩, hid.symm, rfl, rfl, hexpires, rfl,
    (taken_generation s.caller.home).1, fun hset hcurrent => ?_⟩
  obtain ⟨p, hp, hunexpired⟩ := htotp hset
  have hgate : (s.taken e w).after.gates s.caller.home = (s.perform e w).gate := by rw [taken_gates, if_pos rfl]
  obtain ⟨secret, u, hsecret, haccepted, hissuedAt, hexpiresAt⟩ := hcodes.proof p (by rw [hgate]; exact hp)
  change _ = World.generation _ _ at hcurrent
  refine ⟨secret, u, p.payload.acceptedCounter, hsecret, ?_, ?_⟩
  · rw [hcurrent]
    exact haccepted
  · rw [hissuedAt, ← hexpiresAt]
    exact hunexpired

theorem taken_entry {p : Process} {id : String} {m : Metadata Home}
    (hget : ((s.taken e w).after.active p).get? id = some m) :
    (w.active p).get? id = some m ∨ p = s.process ∧ id = s.caller.tokens.grantId ∧
      ∃ grant, .issued grant ∈ (s.perform e w).grants ∧ id = grant.grantId ∧
        m = ⟨s.caller.home, grant.expiresAt, grant.terms, (w.gates s.caller.home).state.factorGeneration⟩ := by
  have hhandles :=
    perform_handles (e := e) (c := s.caller) (g := w.gates s.caller.home) (a := w.active s.process) s.call
  rw [taken_active] at hget
  split at hget
  · rename_i hp
    rcases hhandles.entry id m hget with hold | ⟨grant, hissued, hid, hm⟩
    · exact .inl (hp ▸ hold)
    · exact .inr ⟨hp, hid.trans (hhandles.issued grant hissued).1, grant, hissued, hid, hm⟩
  · exact .inl hget

theorem Kept.filed_step (h : Kept past w)
    (hcodes : ∀ home, CodesKept (past ++ [s.taken e w]) home ((s.taken e w).after.gates home)) (p : Process)
    (id : String) (m : Metadata Home) (hget : ((s.taken e w).after.active p).get? id = some m) :
    ∃ v, Filed (past ++ [s.taken e w]) (s.taken e w).after p id m v := by
  rcases taken_entry hget with hold | ⟨rfl, -, grant, hissued, rfl, rfl⟩
  · obtain ⟨v, hv⟩ := h.filed p id m hold
    exact ⟨v, hv.snoc⟩
  · exact ⟨s.taken e w, Filed.new (hcodes s.caller.home) hissued⟩

/-- A consumed grant stays gone: no later call draws its id. -/
theorem Kept.gone_step (hnew : s.caller.tokens.grantId ∉ drawnGrants past) {id : String}
    (hdrawn : id ∈ drawnGrants past)
    (hnone : ∀ p, (w.active p).get? id = none) (p : Process) : ((s.taken e w).after.active p).get? id = none := by
  cases hget : ((s.taken e w).after.active p).get? id with
  | none => rfl
  | some m =>
    rcases taken_entry hget with hold | ⟨-, hid, -⟩
    · rw [hnone p] at hold
      cases hold
    · exact absurd (hid ▸ hdrawn) hnew

/-- The call that consumes a grant takes it out of the only table that held it. -/
theorem Kept.consumed_now (h : Kept past w) (hpast : (drawnGrants past).Nodup) {grant : Grant}
    (hconsumed : .consumed grant ∈ (s.perform e w).grants) :
    grant.grantId ∈ drawnGrants past ∧ ∀ p, ((s.taken e w).after.active p).get? grant.grantId = none := by
  have hhandles :=
    perform_handles (e := e) (c := s.caller) (g := w.gates s.caller.home) (a := w.active s.process) s.call
  obtain ⟨haccepted, hgone⟩ := hhandles.consumed grant hconsumed
  obtain ⟨m, hm, -⟩ := hhandles.accepted grant haccepted
  obtain ⟨v, hv⟩ := h.filed _ _ m hm
  refine ⟨List.mem_map.2 ⟨v, hv.mem, hv.drawn⟩, fun p => ?_⟩
  rw [taken_active]
  by_cases hp : p = s.process
  · rw [if_pos hp]
    exact hgone
  · rw [if_neg hp]
    cases hget : (w.active p).get? grant.grantId with
    | none => rfl
    | some m' =>
      obtain ⟨v', hv'⟩ := h.filed p _ m' hget
      have hsame : v' = v := List.inj_on_of_nodup_map hpast hv'.mem hv.mem (hv'.drawn.trans hv.drawn.symm)
      exact absurd (hv'.byProcess.symm.trans (hsame ▸ hv.byProcess)) hp

/-- **Every call keeps what a run keeps**, as long as random values do not repeat. -/
theorem Kept.step (h : Kept past w) (hsecret : s.caller.tokens.secret ∉ drawnSecrets past)
    (hpast : (drawnGrants past).Nodup) (hnew : s.caller.tokens.grantId ∉ drawnGrants past) :
    Kept (past ++ [s.taken e w]) (s.taken e w).after := by
  have hcodes := CodesKept.taken (e := e) (s := s) h.codes hsecret
  have hlift : ∀ id ∈ drawnGrants past, id ∈ drawnGrants (past ++ [s.taken e w]) := fun id hid => by
    rw [drawnGrants, List.map_append]
    exact List.mem_append_left _ hid
  refine ⟨hcodes, h.filed_step hcodes, fun u hu grant hconsumed => ?_⟩
  rcases List.mem_append.1 hu with hu | hu
  · obtain ⟨hdrawn, hnone⟩ := h.consumed u hu grant hconsumed
    exact ⟨hlift _ hdrawn, Kept.gone_step hnew hdrawn hnone⟩
  · cases List.mem_singleton.1 hu
    obtain ⟨hdrawn, hnone⟩ := h.consumed_now hpast hconsumed
    exact ⟨hlift _ hdrawn, hnone⟩

end Step

section Runs

variable [DecidableEq Process] {e : Env} {steps : List (Step Home Process)}

/-- The random values of a run do not repeat. -/
structure FreshDraws (steps : List (Step Home Process)) : Prop where
  secrets : (steps.map (fun s => s.caller.tokens.secret)).Nodup
  grantIds : (steps.map (fun s => s.caller.tokens.grantId)).Nodup

theorem calls_input : ∀ (steps : List (Step Home Process)) (w : World Home Process),
    (calls e w steps).map (fun t => t.input) = steps
  | [], _ => rfl
  | s :: steps, w => by rw [calls_cons, List.map_cons, calls_input steps]; rfl

theorem calls_taken {w : World Home Process} {t : Taken Home Process} (h : t ∈ calls e w steps) :
    t = t.input.taken e t.before := by
  have hstep := Machine.step_of_mem h
  obtain ⟨before, input, output, after⟩ := t
  simp only [Step.taken] at hstep ⊢
  rw [hstep]

theorem FreshDraws.kept (hfresh : FreshDraws steps) {past : List (Taken Home Process)} {t : Taken Home Process}
    {rest : List (Taken Home Process)} (hsplit : calls e .initial steps = past ++ t :: rest) : Kept past t.before := by
  refine Machine.history_invariant (m := machine e) (fun past w => Kept past w) steps [] .initial Kept.initial ?_ past t
    rest hsplit
  intro pre u post hu hkept
  have hmem : u ∈ calls e .initial steps := by
    rw [calls, hu]
    simp
  have hinputs := calls_input (e := e) steps .initial
  rw [calls, hu] at hinputs
  obtain ⟨hsecrets, hids⟩ := hfresh
  rw [← hinputs, List.map_map, List.map_append, List.map_cons] at hsecrets hids
  obtain ⟨-, -, hsecret⟩ := List.nodup_append.1 hsecrets
  obtain ⟨hpast, -, hid⟩ := List.nodup_append.1 hids
  have hstep := hkept.step (e := e) (s := u.input) (fun hm => hsecret _ hm _ List.mem_cons_self rfl) hpast
    (fun hm => hid _ hm _ List.mem_cons_self rfl)
  rw [← calls_taken hmem] at hstep
  exact hstep

theorem calls_generation (w : World Home Process) : (calls e w steps).Pairwise
    (fun t u => ∀ home, t.after.generation home ≤ u.before.generation home) := by
  refine Machine.pairwise_steps (m := machine e) (fun t w => ∀ home, t.after.generation home ≤ w.generation home)
    steps w (fun t u hu hle home => ?_) (fun t _ _ => le_rfl)
  have htaken := calls_taken (e := e) hu
  refine (hle home).trans ?_
  rw [htaken]
  exact (taken_generation home).1

/-- **A factor generation names one secret**: whatever processes call, the generation of a home never goes back, and
while it stands the enrolled secret does. -/
theorem generation_names_secret (e : Env) (w : World Home Process) (steps : List (Step Home Process)) (home : Home) :
    w.generation home ≤ ((machine e).final w steps).generation home ∧
      (((machine e).final w steps).generation home = w.generation home →
        (((machine e).final w steps).gates home).enrolledSecret = (w.gates home).enrolledSecret) := by
  induction steps generalizing w with
  | nil => exact ⟨le_rfl, fun _ => rfl⟩
  | cons s steps ih =>
    obtain ⟨hle, hsame⟩ := taken_generation (e := e) (w := w) (s := s) home
    obtain ⟨hlater, hkept⟩ := ih (s.taken e w).after
    refine ⟨hle.trans hlater, fun h => ?_⟩
    have hstands := le_antisymm (hlater.trans_eq h) hle
    exact (hkept (h.trans hstands.symm)).trans (hsame hstands)

/-- Between the call that files an entry and one that accepts it, the factors of its home are not rotated. -/
theorem unrotated_of_accepted {past rest earlier later : List (Taken Home Process)} {t v u : Taken Home Process}
    (hsplit : calls e .initial steps = past ++ t :: rest) (hpast : past = earlier ++ v :: later) (hu : u ∈ later)
    {home : Home} (hsame : v.before.generation home = t.before.generation home) :
    u.after.generation home = u.before.generation home := by
  have hpairs : (calls e .initial steps).Pairwise _ := calls_generation .initial
  have hone : ∀ x ∈ calls e .initial steps, x.before.generation home ≤ x.after.generation home := fun x hx => by
    rw [calls_taken hx]
    exact (taken_generation home).1
  rw [hsplit] at hpairs hone
  rw [hpast] at hpairs hone
  obtain ⟨hbefore, -, hacross⟩ := List.pairwise_append.1 hpairs
  obtain ⟨-, hfrom, -⟩ := List.pairwise_append.1 hbefore
  have hvu := (List.pairwise_cons.1 hfrom).1 u hu home
  have hut := hacross u (by simp [hu]) t List.mem_cons_self home
  have hv := hone v (by simp)
  have hself := hone u (by simp [hu])
  omega

/-- **Accepted grants rest on a live proof.**  In every run in which random values do not repeat, when a grant is
accepted
- while authenticator codes are on, a code for the enrolled secret was accepted in the current factor generation, by a
  counter above all before it or the last one again from the session of an unexpired recent proof, less than 90 seconds
  before, not counting what passed inside the call `v` that issued the grant between its two readings of the clock;
- the factors of its home were not rotated since it was issued;
- it was not consumed before. -/
theorem accepted_grants_rest_on_codes (e : Env) (steps : List (Step Home Process)) (hfresh : FreshDraws steps)
    (past rest : List (Taken Home Process)) (t : Taken Home Process)
    (hsplit : calls e .initial steps = past ++ t :: rest) (grant : Grant)
    (haccepted : .accepted grant ∈ t.output.grants) :
    (t.gate.state.totpEnabled = true → ∃ secret u v n, t.gate.enrolledSecret = some secret ∧
      CodeAccepted past t.home secret t.gate.state.factorGeneration u n ∧ v ∈ past ∧
      (∃ given, .issued given ∈ v.output.grants ∧ given.grantId = grant.grantId ∧ given.terms = grant.terms) ∧
      t.now < u.now + seconds 90 + (v.input.caller.clock.later - v.now)) ∧
    (∀ earlier v later given, past = earlier ++ v :: later → .issued given ∈ v.output.grants →
      given.grantId = grant.grantId → ∀ u ∈ later, u.after.generation v.home = u.before.generation v.home) ∧
    (∀ u ∈ past, ∀ given, .consumed given ∈ u.output.grants → given.grantId ≠ grant.grantId) := by
  have hkept := hfresh.kept hsplit
  have hmem : ∀ x ∈ past ++ t :: rest, x ∈ calls e .initial steps := fun x hx => hsplit ▸ hx
  have htaken := calls_taken (hmem t (by simp))
  have hhandles : ∀ x ∈ calls e .initial steps,
      Handles x.input.caller x.gate (x.before.active x.input.process) (x.input.perform e x.before) :=
    fun x _ => perform_handles x.input.call
  have houtput : ∀ x ∈ calls e .initial steps, x.output.grants = (x.input.perform e x.before).grants := fun x hx => by
    conv_lhs => rw [calls_taken hx]
    rfl
  obtain ⟨m, hm, hstands⟩ := (hhandles t (hmem t (by simp))).accepted grant
    (houtput t (hmem t (by simp)) ▸ haccepted)
  obtain ⟨v, hv⟩ := hkept.filed _ _ m hm
  have hhome : m.guardHome = t.home := hstands.guardHome
  have hgeneration : m.factorGeneration = t.before.generation m.guardHome := by
    rw [hhome]
    exact hstands.generation
  refine ⟨fun henabled => ?_, ?_, ?_⟩
  · have hset : m.terms.factorSet = [.totp] := by
      rw [hstands.terms]
      exact (hstands.totp henabled).1
    obtain ⟨secret, u, n, hsecret, hcode, hrecent⟩ := hv.live hset hgeneration
    rw [hhome] at hsecret hcode
    rw [show m.factorGeneration = t.gate.state.factorGeneration from hstands.generation] at hcode
    obtain ⟨given, hgiven, hid, hterms⟩ := hv.grant
    refine ⟨secret, u, v, n, hsecret, hcode, hv.mem, ⟨given, hgiven, hid, hterms.trans hstands.terms⟩, ?_⟩
    have hunexpired : t.now < m.expiresEpoch := hstands.unexpired
    rw [hv.expires] at hunexpired
    simp only [seconds, grantTtlSeconds, totpRecentTtlSeconds] at hunexpired hrecent ⊢
    omega
  · intro earlier v' later given hpast hgiven hid u hu
    -- the call that issued the grant is the one that filed the entry
    have hv' : v' ∈ past := by rw [hpast]; simp
    have hdrawn := ((hhandles v' (hmem v' (List.mem_append_left _ hv'))).issued given
      (houtput v' (hmem v' (List.mem_append_left _ hv')) ▸ hgiven)).1
    have hids : (drawnGrants (calls e .initial steps)).Nodup := by
      have := hfresh.grantIds
      rw [← calls_input (e := e) steps .initial, List.map_map] at this
      exact this
    have hsame : v' = v := List.inj_on_of_nodup_map hids (hmem v' (List.mem_append_left _ hv'))
      (hmem v (List.mem_append_left _ hv.mem)) (hdrawn.symm.trans (hid.trans hv.drawn.symm))
    refine unrotated_of_accepted hsplit hpast hu ?_
    rw [hsame, hv.atHome, ← hgeneration, hv.generation, ← hv.atHome]
    rfl
  · intro u hu given hconsumed hid
    have hnone := (hkept.consumed u hu given hconsumed).2 t.input.process
    rw [hid] at hnone
    exact Option.some_ne_none m (hm.symm.trans hnone)

end Runs

/-! ## Runs of one grant -/

def slowCheck (now later : Int) (h : now ≤ later) : Step Unit Unit where
  process := ()
  caller :=
    { (sampleStep 0 5 (checkWith none)).caller with
      clock := ⟨now * 1000, later * 1000, Int.mul_le_mul_of_nonneg_right h (by decide)⟩ }
  call := checkWith none

def checkGrant (s : Step Unit Unit) : Grant :=
  newGrant s.caller ⟨.policyClear, true, none, none, none, none⟩ ⟨[.totp], true, false, none, false, true⟩

/-- The code entered at second 60 leaves a recent proof; a check leans on it, and its grant is presented at `t`. -/
def presented (check : Step Unit Unit) (t : Int) : List (Step Unit Unit) :=
  enrolment ++
    [check, sampleStep t 6 (.validateGrant { purpose := some .policyClear, strict := true } (some (checkGrant check)))]

theorem sample_fresh (now later : Int) (h : now ≤ later) (t : Int) :
    FreshDraws (presented (slowCheck now later h) t) := by
  constructor
  · change ["secret-1", "secret-2", "secret-3", "secret-4", "secret-5", "secret-6"].Nodup
    decide +kernel
  · change ["grant-1", "grant-2", "grant-3", "grant-4", "grant-5", "grant-6"].Nodup
    decide +kernel

/-- **A slow check outlives the ninety seconds**: it finds the recent proof before it expires, registers its grant a
second later, and the grant is accepted when no code was accepted for ninety seconds. -/
theorem slow_check_outlives_code :
    InOrder (presented (slowCheck 119900 121000 (by decide)) 150) ∧
      FreshDraws (presented (slowCheck 119900 121000 (by decide)) 150) ∧
      ∃ t ∈ calls sampleEnv .initial (presented (slowCheck 119900 121000 (by decide)) 150),
        .accepted (checkGrant (slowCheck 119900 121000 (by decide))) ∈ t.output.grants ∧
          t.gate.state.totpEnabled = true ∧ t.gate.enrolledSecret = some "secret-2" ∧
            acceptedCounters () "secret-2" ((calls sampleEnv .initial
              (presented (slowCheck 119900 121000 (by decide)) 150)).filter
                (fun u => decide (t.now < u.now + seconds 90))) = [] := by
  refine ⟨?_, sample_fresh _ _ _ _, ?_⟩
  · unfold InOrder
    decide +kernel
  · decide +kernel

/-- A check that reads one time: its grant is presented 29 seconds later, 88 seconds after the code. -/
theorem prompt_check_rests_on_code :
    ∃ past t rest, calls sampleEnv .initial (presented (slowCheck 119000 119000 le_rfl) 148) = past ++ t :: rest ∧
      t.gate.state.totpEnabled = true ∧ ∃ u n, CodeAccepted past () "secret-2" t.gate.state.factorGeneration u n ∧
        t.now < u.now + seconds 90 := by
  have hfound : ∃ t ∈ calls sampleEnv .initial (presented (slowCheck 119000 119000 le_rfl) 148),
      .accepted (checkGrant (slowCheck 119000 119000 le_rfl)) ∈ t.output.grants ∧ t.gate.state.totpEnabled = true ∧
        t.gate.enrolledSecret = some "secret-2" := by
    decide +kernel
  have hone : ∀ v ∈ calls sampleEnv .initial (presented (slowCheck 119000 119000 le_rfl) 148),
      v.input.caller.clock.later = v.now := by
    decide +kernel
  obtain ⟨t, hmem, haccepted, henabled, henrolled⟩ := hfound
  obtain ⟨past, rest, hsplit⟩ := List.append_of_mem hmem
  obtain ⟨hlive, -, -⟩ := accepted_grants_rest_on_codes sampleEnv _ (sample_fresh 119000 119000 le_rfl 148) past rest t
    hsplit _ haccepted
  obtain ⟨secret, u, v, n, hsecret, hcode, hv, -, hage⟩ := hlive henabled
  obtain rfl : "secret-2" = secret := Option.some.inj (henrolled.symm.trans hsecret)
  refine ⟨past, t, rest, hsplit, henabled, u, n, hcode, ?_⟩
  have hsingle := hone v (hsplit ▸ List.mem_append_left _ hv)
  omega

end Guard.ApprovalGate
