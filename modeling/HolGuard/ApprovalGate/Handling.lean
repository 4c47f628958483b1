import HolGuard.ApprovalGate.Moves
/-!
# What one call does to the grants

A call may file one grant under the id it drew, accept a grant that the table of its process holds, and take grants out.
`Handles` states the four facts a run needs; `perform_handles` reads them off every call.
-/
namespace Guard.ApprovalGate

open Lib

variable {Home Process : Type}

def RecentStands (now : Int) (g : Gate) : Prop := ∃ p, g.state.totpRecentProof = some p ∧ now < p.payload.expiresAt

/-- What `_validate_grant_locked` has checked of the entry of a grant it accepts. -/
structure EntryStands (home : Home) (now : Int) (g : Gate) (grant : Grant) (m : Metadata Home) : Prop where
  guardHome : m.guardHome = home
  unexpired : now < m.expiresEpoch
  terms : m.terms = grant.terms
  generation : m.factorGeneration = g.state.factorGeneration
  totp : g.state.totpEnabled = true → grant.factorSet = [.totp] ∧ g.enrolledSecret ≠ none

/-- What a call does to the table of its process. -/
structure Handles (c : Caller Home) (g : Gate) (a : Active Home) (o : Outcome Home (Option Grant)) : Prop where
  entry : ∀ id m, o.active.get? id = some m → a.get? id = some m ∨
    ∃ grant, GrantEvent.issued grant ∈ o.grants ∧ id = grant.grantId ∧
      m = ⟨c.home, grant.expiresAt, grant.terms, g.state.factorGeneration⟩
  issued : ∀ grant, GrantEvent.issued grant ∈ o.grants →
    grant.grantId = c.tokens.grantId ∧ grant.expiresAt = c.clock.later + seconds grantTtlSeconds ∧
      (grant.factorSet = [.totp] → RecentStands c.clock.now o.gate)
  accepted : ∀ grant, GrantEvent.accepted grant ∈ o.grants →
    ∃ m, a.get? grant.grantId = some m ∧ EntryStands c.home c.clock.now g grant m
  consumed : ∀ grant, GrantEvent.consumed grant ∈ o.grants →
    GrantEvent.accepted grant ∈ o.grants ∧ o.active.get? grant.grantId = none

section Tables

variable {a : Active Home}

theorem get?_dropGrant {a : Active Home} {id grantId : String} {m : Metadata Home} :
    (dropGrant a grantId).get? id = some m ↔ a.get? id = some m ∧ id ≠ grantId := by
  rw [dropGrant, KeyMap.get?_retain]
  simp

theorem get?_dropGrant_self (a : Active Home) (grantId : String) : (dropGrant a grantId).get? grantId = none := by
  cases h : (dropGrant a grantId).get? grantId with
  | none => rfl
  | some m => exact absurd rfl (get?_dropGrant.1 h).2

def Within (a b : Active Home) : Prop := ∀ id m, b.get? id = some m → a.get? id = some m

theorem Within.refl (a : Active Home) : Within a a := fun _ _ h => h

theorem Within.trans {a b c : Active Home} (hab : Within a b) (hbc : Within b c) : Within a c :=
  fun id m h => hab id m (hbc id m h)

theorem within_retain (a : Active Home) (p : String → Metadata Home → Bool) : Within a (a.retain p) := fun _ _ h =>
  (KeyMap.get?_retain.1 h).1

end Tables

section Handles

variable {e : Env} {c : Caller Home} {g : Gate} {a : Active Home}

theorem Handles.quiet {o : Outcome Home (Option Grant)} (hactive : Within a o.active) (hgrants : o.grants = []) :
    Handles c g a o := by
  refine ⟨fun id m h => .inl (hactive id m h), ?_, ?_, ?_⟩ <;> intro grant h <;> rw [hgrants] at h <;> cases h

theorem Handles.register {ask : Ask} {v : Evidence} {g' : Gate} {cs : List Comparison}
    (hgeneration : g'.state.factorGeneration = g.state.factorGeneration)
    (htotp : v.factorSet = [.totp] → RecentStands c.clock.now g') :
    Handles c g a (registerGrant c ask v g' a cs).asOption := by
  refine ⟨fun id m h => ?_, fun grant h => ?_, fun grant h => ?_, fun grant h => ?_⟩
  · have hinsert := (KeyMap.get?_retain.1 h).1
    rw [KeyMap.get?_insert] at hinsert
    split at hinsert
    · rename_i hid
      cases hinsert
      refine .inr ⟨newGrant c ask v, List.mem_cons_self, hid, ?_⟩
      rw [newMetadata, hgeneration]
    · exact .inl hinsert
  · cases List.mem_singleton.1 h
    exact ⟨rfl, rfl, htotp⟩
  · cases List.mem_singleton.1 h
  · cases List.mem_singleton.1 h

theorem verifyOrRaise_handles (ask : Ask) (input : GateInput) :
    Handles c g a (verifyOrRaise e c ask input g a).asOption := by
  have hquiet : ∀ (f : Failure) (g' : Gate) (cs : List Comparison),
      Handles c g a (Outcome.raise f g' a cs : Outcome Home Grant).asOption :=
    fun _ _ _ => Handles.quiet (Within.refl a) rfl
  unfold verifyOrRaise
  split
  · exact hquiet _ _ _
  split
  · exact hquiet _ _ _
  split
  · exact Handles.register rfl (fun h => by cases h)
  split
  · unfold verifyByTotp
    split
    · split
      · exact hquiet _ _ _
      rename_i hreuse
      split
      · exact hquiet _ _ _
      · simp only [Bool.or_eq_true, Bool.not_eq_true', not_or, Bool.not_eq_true, Bool.not_eq_false] at hreuse
        obtain ⟨p, hp, -, -, hunexpired⟩ := recentTotpSatisfied_spec hreuse.2
        exact Handles.register rfl (fun _ => ⟨p, hp, hunexpired⟩)
    · split
      · exact hquiet _ _ _
      · rename_i secret n hok
        refine Handles.register rfl (fun _ => ?_)
        obtain ⟨id, hid, -⟩ := Option.bind_eq_some_iff.1 (verifyTotpOrRaise_ok hok).1
        refine ⟨recentProof e secret id c.session g.state.factorGeneration n c.clock.now, ?_, ?_⟩
        · simp only [resetFailedAttempts, provedByCode, hid, Option.map_some]
        · simp only [recentProof, seconds, totpRecentTtlSeconds]
          omega
  · unfold verifyByPassword
    split
    · exact hquiet _ _ _
    · exact Handles.register rfl (fun h => by cases h)

theorem Handles.accept {o : Outcome Home (Option Grant)} {grant : Grant} {m : Metadata Home}
    (hm : a.get? grant.grantId = some m) (hstands : EntryStands c.home c.clock.now g grant m)
    (hactive : Within a o.active) (hgrants : o.grants = [.accepted grant] ∨
      o.grants = [.accepted grant, .consumed grant] ∧ o.active.get? grant.grantId = none) :
    Handles c g a o := by
  refine ⟨fun id m h => .inl (hactive id m h), fun x h => ?_, fun x h => ?_, fun x h => ?_⟩
  · rcases hgrants with hgrants | ⟨hgrants, -⟩ <;> simp [hgrants] at h
  · have hx : x = grant := by
      rcases hgrants with hgrants | ⟨hgrants, -⟩ <;> simpa [hgrants] using h
    rw [hx]
    exact ⟨m, hm, hstands⟩
  · rcases hgrants with hgrants | ⟨hgrants, hnone⟩
    · simp [hgrants] at h
    · have hx : x = grant := by simpa [hgrants] using h
      rw [hx, hgrants]
      exact ⟨List.mem_cons_self, hnone⟩

variable [DecidableEq Home]

/-- **What an accepted grant was checked for**, and that validation only takes entries out. -/
theorem validateGrantLocked_spec (home : Home) (now : Int) (d : Demand) (grant : Option Grant) :
    Within a (validateGrantLocked home now d grant g a).2 ∧
      ∀ accepted, (validateGrantLocked home now d grant g a).1 = .ok accepted →
        grant = some accepted ∧ ∃ m, a.get? accepted.grantId = some m ∧ EntryStands home now g accepted m := by
  have hwithin : ∀ (f : Failure) (b : Active Home), Within a b →
      Within a ((.error f, b) : Except Failure Grant × Active Home).2 ∧
        ∀ accepted, ((.error f, b) : Except Failure Grant × Active Home).1 = .ok accepted →
          grant = some accepted ∧ ∃ m, a.get? accepted.grantId = some m ∧ EntryStands home now g accepted m :=
    fun f b hb => ⟨hb, fun accepted h => by cases h⟩
  unfold validateGrantLocked
  split
  · exact hwithin _ _ (Within.refl a)
  rename_i grant
  split
  · exact hwithin _ _ (Within.refl a)
  rename_i m hm
  split
  · exact hwithin _ _ (Within.refl a)
  rename_i hhome
  split
  · exact hwithin _ _ (within_retain a _)
  rename_i hexpired
  split
  · exact hwithin _ _ (Within.refl a)
  rename_i hterms
  split
  · exact hwithin _ _ (Within.refl a)
  split
  · exact hwithin _ _ (within_retain a _)
  rename_i hgeneration
  split
  · exact hwithin _ _ (Within.refl a)
  split
  · exact hwithin _ _ (Within.refl a)
  rename_i hfactor
  refine ⟨Within.refl a, fun accepted h => ?_⟩
  cases h
  refine ⟨rfl, m, hm, ⟨not_not.1 hhome, by omega, not_not.1 hterms, not_not.1 hgeneration, fun henabled => ?_⟩⟩
  simp only [factorMismatch, henabled, if_true] at hfactor
  split at hfactor
  · cases hfactor
  rename_i hsecret
  split at hfactor
  · cases hfactor
  · rename_i hset
    exact ⟨not_not.1 (not_or.1 hset).1, hsecret⟩

theorem validateGrant_handles (d : Demand) (grant : Option Grant) : Handles c g a (validateGrant c d grant g a) := by
  obtain ⟨hwithin, hok⟩ := validateGrantLocked_spec (g := g) (a := a) c.home c.clock.now d grant
  unfold validateGrant
  generalize validateGrantLocked c.home c.clock.now d grant g a = r at hwithin hok ⊢
  obtain ⟨f | accepted, active⟩ := r
  · exact Handles.quiet hwithin rfl
  · obtain ⟨-, m, hm, hstands⟩ := hok accepted rfl
    exact Handles.accept hm hstands hwithin (.inl rfl)

theorem grantOrProof_handles (ask : Ask) (input : GateInput) (grant : Option Grant) :
    Handles c g a (grantOrProof e c ask input grant g a) := by
  cases grant with
  | none => exact verifyOrRaise_handles ask input
  | some grant =>
    exact validateGrant_handles ⟨some ask.purpose, ask.strict, ask.action, ask.scope, ask.subject, ask.sessionNonce⟩
      (some grant)

theorem consumeGrant_handles (d : Demand) (grant : Grant) : Handles c g a (consumeGrant c d grant g a) := by
  obtain ⟨hwithin, hok⟩ := validateGrantLocked_spec (g := g) (a := a) c.home c.clock.now d (some grant)
  unfold consumeGrant
  generalize validateGrantLocked c.home c.clock.now d (some grant) g a = r at hwithin hok ⊢
  obtain ⟨f | accepted, active⟩ := r
  · exact Handles.quiet hwithin rfl
  · obtain ⟨-, m, hm, hstands⟩ := hok accepted rfl
    exact Handles.accept hm hstands (hwithin.trans (within_retain active _))
      (.inr ⟨rfl, get?_dropGrant_self active accepted.grantId⟩)

theorem nextSettingsState_spec (p : SettingsPayload) (grant : Option Grant) :
    Within a (nextSettingsState e c p grant g a).active ∧
      ((nextSettingsState e c p grant g a).grants = [] ∨
        ∃ accepted m, (nextSettingsState e c p grant g a).grants = [.accepted accepted] ∧
          a.get? accepted.grantId = some m ∧ EntryStands c.home c.clock.now g accepted m) := by
  obtain ⟨hwithin, hok⟩ := validateGrantLocked_spec (g := g) (a := a) c.home c.clock.now
    { purpose := some .settingsWrite, strict := true } grant
  unfold nextSettingsState
  split
  · generalize validateGrantLocked c.home c.clock.now { purpose := some .settingsWrite, strict := true } grant g a = r
      at hwithin hok ⊢
    obtain ⟨f | accepted, active⟩ := r
    · exact ⟨hwithin, .inl rfl⟩
    · obtain ⟨-, m, hm, hstands⟩ := hok accepted rfl
      exact ⟨hwithin, .inr ⟨accepted, m, rfl, hm, hstands⟩⟩
  · exact ⟨Within.refl a, .inl rfl⟩

theorem Handles.of_settings {o : Outcome Home (Option Grant)} {p : SettingsPayload} {grant : Option Grant}
    (hactive : Within (nextSettingsState e c p grant g a).active o.active)
    (hgrants : o.grants = (nextSettingsState e c p grant g a).grants) : Handles c g a o := by
  obtain ⟨hwithin, hnone | ⟨accepted, m, hsome, hm, hstands⟩⟩ :=
    nextSettingsState_spec (e := e) (c := c) (g := g) (a := a) p grant
  · exact Handles.quiet (hwithin.trans hactive) (hgrants.trans hnone)
  · exact Handles.accept hm hstands (hwithin.trans hactive) (.inl (hgrants.trans hsome))

theorem updateSettings_handles (p : SettingsPayload) (grant : Option Grant) :
    Handles c g a (updateSettings e c p grant g a) := by
  have hactive : Within (nextSettingsState e c p grant g a).active (updateSettings e c p grant g a).active := by
    unfold updateSettings
    generalize nextSettingsState e c p grant g a = o
    obtain ⟨f | t, gate, active, cs, events⟩ := o
    · exact Within.refl active
    · by_cases hrotated : t.factorGeneration ≠ g.state.factorGeneration
      · simp only [if_pos hrotated]
        exact within_retain active _
      · simp only [if_neg hrotated]
        exact Within.refl active
  have hgrants : (updateSettings e c p grant g a).grants = (nextSettingsState e c p grant g a).grants := by
    unfold updateSettings
    generalize nextSettingsState e c p grant g a = o
    obtain ⟨f | t, gate, active, cs, events⟩ := o
    · rfl
    · rfl
  exact Handles.of_settings hactive hgrants

theorem validateSettingsUpdate_handles (p : SettingsPayload) (grant : Option Grant) :
    Handles c g a (validateSettingsUpdate e c p grant g a) := by
  have hactive : Within (nextSettingsState e c p grant g a).active (validateSettingsUpdate e c p grant g a).active :=
    Within.refl _
  exact Handles.of_settings hactive rfl

omit [DecidableEq Home] in
theorem Handles.raised (f : Failure) (g' : Gate) (cs : List Comparison) : Handles c g a (.raise f g' a cs) :=
  Handles.quiet (Within.refl a) rfl

theorem Handles.invalidated {answer : Except Failure (Option Grant)} {g' : Gate} {cs : List Comparison} :
    Handles c g a
      { answer := answer, gate := g', active := invalidateActiveGrants c.home a, compared := cs } :=
  Handles.quiet (within_retain a _) rfl

/-- **Every call handles its table so.** -/
theorem perform_handles (call : Call) : Handles c g a (call.perform e c g a) := by
  have hpass : ∀ g' : Gate, Handles c g a (.pass g' a) := fun _ => Handles.quiet (Within.refl a) rfl
  cases call with
  | requireApprovalDecision action scope input grant subject nonce =>
    simp only [Call.perform, requireApprovalDecision]
    split
    · exact hpass g
    · exact grantOrProof_handles _ input grant
  | requirePolicyWrite action scope grant =>
    simp only [Call.perform, requireDecisionGrant]
    split
    · exact hpass g
    · exact validateGrant_handles _ _
  | requireRequestResolution action scope grant =>
    simp only [Call.perform, requireDecisionGrant]
    split
    · exact hpass g
    · exact validateGrant_handles _ _
  | requirePolicyClear grant =>
    simp only [Call.perform, requireStrictGrant]
    split
    · exact hpass g
    · exact validateGrant_handles _ _
  | requireSettingsWrite grant =>
    simp only [Call.perform, requireStrictGrant]
    split
    · exact hpass g
    · exact validateGrant_handles _ _
  | requireHighRisk purpose input grant action scope subject nonce =>
    simp only [Call.perform, requireHighRisk]
    split
    · exact hpass g
    · exact grantOrProof_handles _ input grant
  | requireExtensionControl input action subject nonce =>
    simp only [Call.perform, requireExtensionControl, requireMutation]
    split
    · exact Handles.raised _ _ _
    · exact verifyOrRaise_handles _ input
  | requireLocalCliTrust input action subject nonce =>
    simp only [Call.perform, requireLocalCliTrust, requireMutation]
    split
    · exact Handles.raised _ _ _
    · exact verifyOrRaise_handles _ input
  | consumeExtensionControlGrant grant action subject nonce => exact consumeGrant_handles _ grant
  | consumeLocalCliTrustGrant grant action subject nonce => exact consumeGrant_handles _ grant
  | validateGrant demand grant => exact validateGrant_handles demand grant
  | updateSettings payload grant => exact updateSettings_handles payload grant
  | validateSettingsUpdate payload grant => exact validateSettingsUpdate_handles payload grant
  | revokeCooldown => exact hpass _
  | unlockCooldown duration input =>
    simp only [Call.perform, unlockCooldown]
    repeat' split
    all_goals first
      | exact Handles.raised _ _ _
      | exact Handles.quiet (Within.refl a) rfl
  | beginTotpEnrollment input =>
    simp only [Call.perform, beginTotpEnrollment]
    repeat' split
    all_goals first
      | exact Handles.raised _ _ _
      | exact Handles.invalidated
  | confirmTotpEnrollment input =>
    simp only [Call.perform, confirmTotpEnrollment, confirmCode]
    repeat' split
    all_goals first
      | exact Handles.raised _ _ _
      | exact Handles.invalidated
  | disableTotp input =>
    simp only [Call.perform, disableTotp]
    repeat' split
    all_goals first
      | exact Handles.raised _ _ _
      | exact hpass g
      | exact Handles.invalidated

end Handles

end Guard.ApprovalGate
