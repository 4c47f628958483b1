import HolGuard.Lib.Machine
import HolGuard.Policy.CommandFloor
/-!
# Histories of the command-control floor

`next_floor` compares a snapshot with the floor right before it.  Here the comparison is an order on floors
(`Advances`): one accepted snapshot advances the floor, advancing is transitive, and so every later floor of every
history is ahead of every earlier one.
-/
namespace Guard
namespace Policy

open Lib (Hash Machine)
open Contracts (NativeCommandControlAuthorityV1 NativeCommandControlRecoveryV1)

/-! ## What an accepted snapshot satisfies -/

variable {sha : Hash} {current : Option CommandControlFloor} {c : CommandControlFloor}

/-- **An accepted authority transition, unpacked**: no authority before or after, the next mutation of one epoch, the
first enrolment, or a recovery into a later epoch. -/
theorem validateAuthorityTransition_ok {recovery : Bool}
    (h : validateAuthorityTransition sha current c = .ok recovery) :
    (recovery = false ∧ c.authority = none ∧ current.bind (·.authority) = none) ∨
    (∃ a p, recovery = false ∧ c.authority = some a ∧ current.bind (·.authority) = some p ∧ a.epoch = p.epoch ∧
      p.mutationRevision ≤ a.mutationRevision ∧ (a.mutationRevision = p.mutationRevision → current = some c)) ∨
    (∃ a, recovery = false ∧ c.authority = some a ∧ current.bind (·.authority) = none ∧ a.epoch = 1 ∧
      a.recovery = none) ∨
    (∃ a r, recovery = true ∧ c.authority = some a ∧ a.validate = .ok () ∧ a.recovery = some r ∧
      recoveryMatches sha current c r = true ∧ ∀ p, current.bind (·.authority) = some p →
        p.epoch < a.epoch ∧ p.mutationRevision < a.mutationRevision) := by
  have hrec : ∀ a, validateRecovery sha current c a = .ok recovery →
      ∃ r, recovery = true ∧ a.recovery = some r ∧ recoveryMatches sha current c r = true := by
    intro a ha
    unfold validateRecovery at ha
    split at ha
    · cases ha
    · rename_i r hr
      split at ha
      · rename_i hm
        exact ⟨r, (Except.ok.inj ha).symm, hr, hm⟩
      · cases ha
  unfold validateAuthorityTransition at h
  repeat' split at h
  any_goals cases h
  · rename_i hnone hp
    exact .inl ⟨rfl, hnone, by simpa using hp⟩
  · rename_i _ a ha _ hv _ p hp hge hepoch _ hreuse
    exact .inr (.inl ⟨a, p, rfl, ha, hp, hepoch, by omega, fun hm => not_not.1 (fun hc => hreuse ⟨hm, hc⟩)⟩)
  · rename_i _ a ha _ hv _ p hp hge hepoch hmut
    obtain ⟨r, hr1, hr2, hr3⟩ := hrec a h
    refine .inr (.inr (.inr ⟨a, r, hr1, ha, hv, hr2, hr3, fun q hq => ?_⟩))
    obtain rfl : p = q := Option.some.inj (hp.symm.trans hq)
    exact ⟨by omega, by omega⟩
  · rename_i _ a ha _ _ _ hp hfirst
    exact .inr (.inr (.inl ⟨a, rfl, ha, hp, hfirst⟩))
  · rename_i _ a ha _ hv _ hp _
    obtain ⟨r, hr1, hr2, hr3⟩ := hrec a h
    exact .inr (.inr (.inr ⟨a, r, hr1, ha, hv, hr2, hr3, fun q hq => by rw [hp] at hq; cases hq⟩))

variable {next : Option CommandControlFloor} {s : PolicySnapshotV3}

/-- **An accepted snapshot, unpacked**: once a floor exists it has an enrolled binding; a binding that gives no floor
leaves the floor alone, and one that gives a floor puts that floor in its place. -/
theorem nextFloor_ok (h : nextFloor sha current s = .ok next) :
    (current.isSome → ∃ b, s.commandExtensions = some b ∧ b.health ≠ "unenrolled") ∧
    ((snapshotFloor s = none ∧ next = current) ∨
      ∃ c recovery, snapshotFloor s = some c ∧ next = some c ∧
        validateAuthorityTransition sha current c = .ok recovery ∧
        (recovery = false → ∀ f, current = some f → f.revision ≤ c.revision ∧ f.managedRevision ≤ c.managedRevision ∧
          (f.revision = c.revision → f.managedRevision = c.managedRevision →
            f.effectiveDigest = c.effectiveDigest))) := by
  unfold nextFloor at h
  obtain ⟨hremoved, h⟩ := Lib.ite_error_eq_ok.1 h
  obtain ⟨hunenrolled, h⟩ := Lib.ite_error_eq_ok.1 h
  refine ⟨fun hs => ?_, ?_⟩
  · cases hb : s.commandExtensions with
    | none => exact absurd ⟨hs, hb⟩ hremoved
    | some b => exact ⟨b, rfl, fun hu => hunenrolled ⟨hs, by rw [hb]; simp [hu]⟩⟩
  repeat' split at h
  all_goals cases h
  · rename_i hnone _
    exact .inl ⟨hnone, rfl⟩
  · rename_i _ c hc _ recovery hv _ hfloor _
    refine .inr ⟨c, recovery, hc, rfl, hv, ?_⟩
    rintro rfl f rfl
    cases hfloor
  · rename_i _ c hc _ recovery hv _ floor hfloor hrev hdigest _
    refine .inr ⟨c, recovery, hc, rfl, hv, ?_⟩
    rintro rfl f rfl
    obtain rfl : f = floor := Option.some.inj hfloor
    refine ⟨by omega, by omega, fun h1 h2 => ?_⟩
    exact not_not.1 (fun hne => hdigest ⟨h1.symm, h2.symm, Ne.symm hne⟩)

theorem validateAuthorityTransition_self {recovery : Bool}
    (h : validateAuthorityTransition sha current c = .ok recovery) :
    validateAuthorityTransition sha (some c) c = .ok false := by
  unfold validateAuthorityTransition at h ⊢
  cases ha : c.authority with
  | none => simp [ha]
  | some a =>
    cases hv : a.validate with
    | error e => simp [ha, hv] at h
    | ok u => simp [ha, hv]

theorem snapshotFloor_some (h : snapshotFloor s = some c) :
    ∃ b, s.commandExtensions = some b ∧ b.health = "protected" := by
  unfold snapshotFloor at h
  repeat' split at h
  all_goals cases h
  rename_i b hb hp
  exact ⟨b, hb, hp⟩

/-- **An accepted snapshot is accepted again at the floor it gave**, also the one that performed a recovery. -/
theorem nextFloor_again (h : nextFloor sha current s = .ok next) :
    nextFloor sha next s = .ok next := by
  obtain ⟨-, ⟨-, rfl⟩ | ⟨c, recovery, hc, rfl, hv, -⟩⟩ := nextFloor_ok h
  · exact h
  obtain ⟨b, hb, hp⟩ := snapshotFloor_some hc
  unfold nextFloor
  simp [hb, hp, hc, validateAuthorityTransition_self hv]

/-! ## The order of floors -/

def CommandControlFloor.epoch (f : CommandControlFloor) : Option Nat := f.authority.map (·.epoch)

/-- **`g` is ahead of `f`**: it keeps the authority, its epoch and mutation revision are no smaller and equal ones leave
the floor the same, and within one epoch both revisions are no smaller and equal ones have one effective digest. -/
structure Advances (f g : CommandControlFloor) : Prop where
  authority : ∀ a, f.authority = some a → ∃ b, g.authority = some b ∧ a.epoch ≤ b.epoch ∧
    a.mutationRevision ≤ b.mutationRevision ∧ (a.epoch = b.epoch → a.mutationRevision = b.mutationRevision → g = f)
  revisions : f.epoch = g.epoch → f.revision ≤ g.revision ∧ f.managedRevision ≤ g.managedRevision ∧
    (f.revision = g.revision → f.managedRevision = g.managedRevision → f.effectiveDigest = g.effectiveDigest)

theorem Advances.refl (f : CommandControlFloor) : Advances f f where
  authority a ha := ⟨a, ha, Nat.le_refl _, Nat.le_refl _, fun _ _ => rfl⟩
  revisions _ := ⟨Nat.le_refl _, Nat.le_refl _, fun _ _ => rfl⟩

/-- The epoch in the middle of two advances is between the outer ones, so it is theirs when they agree. -/
theorem Advances.epoch_between {f g k : CommandControlFloor} (h1 : Advances f g) (h2 : Advances g k)
    (h : f.epoch = k.epoch) : f.epoch = g.epoch ∧ g.epoch = k.epoch := by
  suffices hfg : f.epoch = g.epoch from ⟨hfg, hfg.symm.trans h⟩
  unfold CommandControlFloor.epoch at h ⊢
  cases hf : f.authority with
  | some a =>
    obtain ⟨b, hb, hab, -, -⟩ := h1.authority a hf
    obtain ⟨c, hc, hbc, -, -⟩ := h2.authority b hb
    rw [hf, hc] at h
    simp only [Option.map_some, Option.some.injEq] at h
    rw [hb]
    simp only [Option.map_some, Option.some.injEq]
    omega
  | none =>
    cases hg : g.authority with
    | none => rfl
    | some b =>
      obtain ⟨c, hc, -, -, -⟩ := h2.authority b hg
      rw [hf, hc] at h
      cases h

theorem Advances.trans {f g k : CommandControlFloor} (h1 : Advances f g) (h2 : Advances g k) : Advances f k where
  authority a ha := by
    obtain ⟨b, hb, hab, hmab, heq⟩ := h1.authority a ha
    obtain ⟨c, hc, hbc, hmbc, heq'⟩ := h2.authority b hb
    refine ⟨c, hc, Nat.le_trans hab hbc, Nat.le_trans hmab hmbc, fun he hm => ?_⟩
    rw [heq' (by omega) (by omega), heq (by omega) (by omega)]
  revisions he := by
    obtain ⟨he1, he2⟩ := h1.epoch_between h2 he
    obtain ⟨hr1, hm1, hd1⟩ := h1.revisions he1
    obtain ⟨hr2, hm2, hd2⟩ := h2.revisions he2
    refine ⟨Nat.le_trans hr1 hr2, Nat.le_trans hm1 hm2, fun hr hm => ?_⟩
    rw [hd1 (by omega) (by omega), hd2 (by omega) (by omega)]

/-- **One accepted snapshot advances the floor.** -/
theorem advances_nextFloor {f : CommandControlFloor} (h : nextFloor sha (some f) s = .ok next) :
    ∃ g, next = some g ∧ Advances f g := by
  obtain ⟨-, ⟨-, rfl⟩ | ⟨c, recovery, -, rfl, hv, hrev⟩⟩ := nextFloor_ok h
  · exact ⟨f, rfl, .refl f⟩
  refine ⟨c, rfl, ?_, ?_⟩
  · intro a ha
    obtain ⟨-, -, hp⟩ | ⟨b, p, -, hb, hp, hepoch, hmut, hsame⟩ | ⟨b, -, -, hp, -, -⟩ |
      ⟨b, r, -, hb, -, -, -, hlt⟩ := validateAuthorityTransition_ok hv
    · rw [Option.bind_some, ha] at hp; cases hp
    · obtain rfl : a = p := Option.some.inj (ha.symm.trans hp)
      refine ⟨b, hb, by omega, hmut, fun _ hm => ?_⟩
      exact (Option.some.inj (hsame hm.symm)).symm
    · rw [Option.bind_some, ha] at hp; cases hp
    · obtain ⟨he, hm⟩ := hlt a ha
      exact ⟨b, hb, by omega, by omega, fun heq _ => absurd heq (by omega)⟩
  · intro he
    -- a recovery changes the epoch, so an equal one rules it out
    have hnot : recovery = false := by
      obtain ⟨hr, -⟩ | ⟨-, -, hr, -⟩ | ⟨-, hr, -⟩ | ⟨b, r, hr, hb, -, -, -, hlt⟩ := validateAuthorityTransition_ok hv
      · exact hr
      · exact hr
      · exact hr
      · unfold CommandControlFloor.epoch at he
        rw [hb] at he
        obtain ⟨a, ha, hab⟩ := Option.map_eq_some_iff.1 he
        exact absurd hab (Nat.ne_of_lt (hlt a ha).1)
    exact hrev hnot f rfl

/-! ## Histories -/

/-- The floor as a machine: an accepted snapshot moves it, a refused one leaves it. -/
def floorMachine (sha : Hash) : Machine (Option CommandControlFloor) PolicySnapshotV3
    (Except String (Option CommandControlFloor)) where
  step current s := ((nextFloor sha current s).toOption.getD current, nextFloor sha current s)

/-- **Every later floor of a history is ahead of every earlier one.** -/
theorem advances_run (sha : Hash) (f : CommandControlFloor) (run : List PolicySnapshotV3) :
    ∃ g, (floorMachine sha).final (some f) run = some g ∧ Advances f g := by
  refine (floorMachine sha).final_invariant (fun current => ∃ g, current = some g ∧ Advances f g) ?_ run (some f)
    ⟨f, rfl, .refl f⟩
  rintro _ s ⟨g, rfl, hfg⟩
  cases hn : nextFloor sha (some g) s with
  | error e => exact ⟨g, by simp [floorMachine, hn, Except.toOption], hfg⟩
  | ok next =>
    obtain ⟨k, rfl, hgk⟩ := advances_nextFloor hn
    exact ⟨k, by simp [floorMachine, hn, Except.toOption], hfg.trans hgk⟩

def epochOf (current : Option CommandControlFloor) : Nat := (current.bind (·.authority)).elim 0 (·.epoch)

/-- The snapshot enters a new epoch through the recovery record `r`. -/
def AppliesRecovery (sha : Hash) (current : Option CommandControlFloor) (s : PolicySnapshotV3)
    (r : NativeCommandControlRecoveryV1) : Prop :=
  ∃ c a, snapshotFloor s = some c ∧ c.authority = some a ∧ a.recovery = some r ∧
    validateAuthorityTransition sha current c = .ok true

variable {r : NativeCommandControlRecoveryV1}

/-- A recovery that is applied names the current floor exactly, and enters a later epoch than the one it names. -/
theorem AppliesRecovery.matches (h : AppliesRecovery sha current s r) :
    ∃ c a, snapshotFloor s = some c ∧ c.authority = some a ∧ a.recovery = some r ∧ r.previousEpoch < a.epoch ∧
      recoveryMatches sha current c r = true := by
  obtain ⟨c, a, hc, ha, hr, hv⟩ := h
  obtain ⟨hf, -⟩ | ⟨-, -, hf, -⟩ | ⟨-, hf, -⟩ | ⟨a', r', -, ha', hvalid, hr', hmatch, -⟩ :=
    validateAuthorityTransition_ok hv
  · cases hf
  · cases hf
  · cases hf
  obtain rfl : a = a' := Option.some.inj (ha.symm.trans ha')
  obtain rfl : r = r' := Option.some.inj (hr.symm.trans hr')
  refine ⟨c, a, hc, ha, hr, ?_, hmatch⟩
  unfold NativeCommandControlAuthorityV1.validate at hvalid
  split at hvalid
  · cases hvalid
  rw [hr] at hvalid
  simp only at hvalid
  split at hvalid
  · cases hvalid
  · rename_i hok
    exact Nat.lt_of_not_le (fun hle => hok (.inr (.inl hle)))

theorem recoveryMatches_iff :
    recoveryMatches sha current c r = true ↔ r.previousFloorDigest = floorLinkDigest sha current ∧
      r.previousEpoch = epochOf current ∧
      r.previousMutationRevision = (current.bind (·.authority)).elim 0 (·.mutationRevision) ∧
      r.previousAuthorityKeyId = (current.bind (·.authority)).elim zeroKeyId (·.authorityKeyId) ∧
      c.previousFloorDigest = some r.previousFloorDigest := by
  simp [recoveryMatches, epochOf, and_assoc]

theorem floorLinkMessage_injective {f g : Option CommandControlFloor} (h : floorLinkMessage f = floorLinkMessage g) :
    f = g := by
  have ht := List.append_cancel_left h
  simp only [List.cons.injEq, true_and] at ht
  exact CommandControlFloor.optionCodec.encode_injective (Lib.Json.text_injective (Lib.utf8_injective ht))

theorem epochOf_run (sha : Hash) (current : Option CommandControlFloor) (run : List PolicySnapshotV3) :
    epochOf current ≤ epochOf ((floorMachine sha).final current run) := by
  cases current with
  | none => exact Nat.zero_le _
  | some f =>
    obtain ⟨g, hg, hfg⟩ := advances_run sha f run
    rw [hg]
    unfold epochOf
    rw [Option.bind_some, Option.bind_some]
    cases hf : f.authority with
    | none => exact Nat.zero_le _
    | some a =>
      obtain ⟨b, hb, hab, -, -⟩ := hfg.authority a hf
      rw [hb]
      exact hab

theorem nextFloor_of_snapshotFloor (hc : snapshotFloor s = some c)
    (h : nextFloor sha current s = .ok next) : next = some c := by
  obtain ⟨-, ⟨hnone, -⟩ | ⟨c', _, hc', rfl, -⟩⟩ := nextFloor_ok h
  · rw [hnone] at hc; cases hc
  · rw [← hc', hc]

theorem same_pair_same_floor {g₁ g₂ : Option CommandControlFloor} {run : List PolicySnapshotV3}
    {s₁ s₂ : PolicySnapshotV3} {c₁ c₂ : CommandControlFloor}
    {a₁ a₂ : NativeCommandControlAuthorityV1} (hc₁ : snapshotFloor s₁ = some c₁)
    (hc₂ : snapshotFloor s₂ = some c₂) (ha₁ : c₁.authority = some a₁) (ha₂ : c₂.authority = some a₂)
    (hepoch : a₁.epoch = a₂.epoch) (hmut : a₁.mutationRevision = a₂.mutationRevision)
    (h₁ : nextFloor sha current s₁ = .ok g₁)
    (h₂ : nextFloor sha ((floorMachine sha).final g₁ run) s₂ = .ok g₂) : g₁ = g₂ := by
  obtain rfl := nextFloor_of_snapshotFloor hc₁ h₁
  obtain ⟨f, hf, hadv⟩ := advances_run sha c₁ run
  rw [hf] at h₂
  obtain ⟨g, rfl, hadv'⟩ := advances_nextFloor h₂
  obtain rfl := Option.some.inj (nextFloor_of_snapshotFloor hc₂ h₂)
  obtain ⟨b, hb, -, -, heq⟩ := (hadv.trans hadv').authority a₁ ha₁
  obtain rfl : b = a₂ := Option.some.inj (hb.symm.trans ha₂)
  rw [heq hepoch hmut]

theorem epoch_increase (h : nextFloor sha current s = .ok next) (hlt : epochOf current < epochOf next) :
    ∃ c a, next = some c ∧ c.authority = some a ∧
      ((current.bind (·.authority) = none ∧ a.epoch = 1 ∧ a.recovery = none) ∨
        ∃ r, a.recovery = some r ∧ AppliesRecovery sha current s r ∧ recoveryMatches sha current c r = true) := by
  obtain ⟨-, ⟨-, rfl⟩ | ⟨c, recovery, hc, rfl, hv, -⟩⟩ := nextFloor_ok h
  · exact absurd hlt (Nat.lt_irrefl _)
  obtain ⟨-, ha, hp⟩ | ⟨a, p, -, ha, hp, hepoch, -, -⟩ | ⟨a, -, ha, hp, hone, hnone⟩ | ⟨a, r, hr, ha, -, hrec, hm, -⟩ :=
    validateAuthorityTransition_ok hv
  · simp [epochOf, hp, ha] at hlt
  · simp [epochOf, hp, ha, hepoch] at hlt
  · exact ⟨c, a, rfl, ha, .inl ⟨hp, hone, hnone⟩⟩
  · subst hr
    exact ⟨c, a, rfl, ha, .inr ⟨r, hrec, ⟨c, a, hc, ha, hrec, hv⟩, hm⟩⟩

/-- A recovery record is not applied again later: every later epoch is above the one the record names. -/
theorem recovery_applied_once {g₁ : Option CommandControlFloor} {s₁ s₂ : PolicySnapshotV3}
    (run : List PolicySnapshotV3) (h₁ : AppliesRecovery sha current s₁ r) (hg : nextFloor sha current s₁ = .ok g₁) :
    ¬ AppliesRecovery sha ((floorMachine sha).final g₁ run) s₂ r := by
  intro h₂
  obtain ⟨c, a, hc, ha, -, hlt, -⟩ := h₁.matches
  obtain ⟨_, _, -, -, -, -, hm⟩ := h₂.matches
  obtain rfl := nextFloor_of_snapshotFloor hc hg
  have hep : epochOf (some c) = a.epoch := by simp [epochOf, ha]
  have := epochOf_run sha (some c) run
  have := (recoveryMatches_iff.1 hm).2.1
  omega

/-- A recovery record is applied at one floor only, unless two link messages collide. -/
theorem recovery_one_branch {other : Option CommandControlFloor} {s₁ s₂ : PolicySnapshotV3}
    (h₁ : AppliesRecovery sha current s₁ r) (h₂ : AppliesRecovery sha other s₂ r)
    (hsep : sha.Separates (floorLinkMessage current) (floorLinkMessage other)) :
    current = other := by
  obtain ⟨_, _, -, -, -, -, hm₁⟩ := h₁.matches
  obtain ⟨_, _, -, -, -, -, hm₂⟩ := h₂.matches
  have hdigest : floorLinkDigest sha current = floorLinkDigest sha other :=
    (recoveryMatches_iff.1 hm₁).1.symm.trans (recoveryMatches_iff.1 hm₂).1
  exact floorLinkMessage_injective (hsep.eq_of_hex hdigest)

/-- **The floor never rolls back**, over every history from every floor.  Once a floor exists, every accepted snapshot
carries an enrolled binding, the floor stays and keeps its authority, and its pair of epoch and mutation revision never
decreases.  Two accepted bindings that give a floor and have the same pair give the same floor; a binding that gives
none leaves the floor as it was.  Within one epoch the revisions never decrease and equal ones have one effective
digest.  The epoch grows only with the first authority or through a recovery record that names the current floor, and
such a record is not applied twice, nor at another floor. -/
theorem command_floor_never_rolls_back (sha : Hash) (current : Option CommandControlFloor)
    (run : List PolicySnapshotV3) :
    (∀ s next, nextFloor sha current s = .ok next → current.isSome →
      ∃ b, s.commandExtensions = some b ∧ b.health ≠ "unenrolled") ∧
    (∀ s next, nextFloor sha current s = .ok next → snapshotFloor s = none → next = current) ∧
    (∀ f, current = some f → ∃ g, (floorMachine sha).final current run = some g ∧
      (∀ a, f.authority = some a → ∃ b, g.authority = some b ∧
        (a.epoch < b.epoch ∨ a.epoch = b.epoch ∧ a.mutationRevision ≤ b.mutationRevision)) ∧
      (f.epoch = g.epoch → f.revision ≤ g.revision ∧ f.managedRevision ≤ g.managedRevision ∧
        (f.revision = g.revision → f.managedRevision = g.managedRevision → f.effectiveDigest = g.effectiveDigest))) ∧
    (∀ s₁ s₂ c₁ c₂ a₁ a₂ g₁ g₂, snapshotFloor s₁ = some c₁ → snapshotFloor s₂ = some c₂ → c₁.authority = some a₁ →
      c₂.authority = some a₂ → a₁.epoch = a₂.epoch → a₁.mutationRevision = a₂.mutationRevision →
      nextFloor sha current s₁ = .ok g₁ → nextFloor sha ((floorMachine sha).final g₁ run) s₂ = .ok g₂ → g₁ = g₂) ∧
    (∀ s next, nextFloor sha current s = .ok next → epochOf current < epochOf next →
      ∃ c a, next = some c ∧ c.authority = some a ∧
        ((current.bind (·.authority) = none ∧ a.epoch = 1 ∧ a.recovery = none) ∨
          ∃ r, a.recovery = some r ∧ AppliesRecovery sha current s r ∧ r.previousEpoch = epochOf current ∧
            r.previousMutationRevision = (current.bind (·.authority)).elim 0 (·.mutationRevision) ∧
            r.previousAuthorityKeyId = (current.bind (·.authority)).elim zeroKeyId (·.authorityKeyId) ∧
            r.previousFloorDigest = floorLinkDigest sha current)) ∧
    (∀ s₁ s₂ r g₁, AppliesRecovery sha current s₁ r → nextFloor sha current s₁ = .ok g₁ →
      ¬ AppliesRecovery sha ((floorMachine sha).final g₁ run) s₂ r) ∧
    (∀ other s₁ s₂ r, AppliesRecovery sha current s₁ r → AppliesRecovery sha other s₂ r →
      sha.Separates (floorLinkMessage current) (floorLinkMessage other) → current = other) := by
  refine ⟨fun s next h => (nextFloor_ok h).1, ?_, ?_, ?_, ?_, ?_, ?_⟩
  · intro s next h hnone
    obtain ⟨-, ⟨-, hnext⟩ | ⟨c, _, hc, -⟩⟩ := nextFloor_ok h
    · exact hnext
    · rw [hnone] at hc; cases hc
  · rintro f rfl
    obtain ⟨g, hg, hfg⟩ := advances_run sha f run
    refine ⟨g, hg, fun a ha => ?_, hfg.revisions⟩
    obtain ⟨b, hb, hab, hm, -⟩ := hfg.authority a ha
    exact ⟨b, hb, by omega⟩
  · intro s₁ s₂ c₁ c₂ a₁ a₂ g₁ g₂ hc₁ hc₂ ha₁ ha₂ hepoch hmut h₁ h₂
    exact same_pair_same_floor hc₁ hc₂ ha₁ ha₂ hepoch hmut h₁ h₂
  · intro s next h hlt
    obtain ⟨c, a, hc, ha, hfirst | ⟨r, hr, happ, hm⟩⟩ := epoch_increase h hlt
    · exact ⟨c, a, hc, ha, .inl hfirst⟩
    · obtain ⟨hdigest, hepoch, hmut, hkey, -⟩ := recoveryMatches_iff.1 hm
      exact ⟨c, a, hc, ha, .inr ⟨r, hr, happ, hepoch, hmut, hkey, hdigest⟩⟩
  · intro s₁ s₂ r g₁ h₁ hg
    exact recovery_applied_once run h₁ hg
  · intro other s₁ s₂ r h₁ h₂ hsep
    exact recovery_one_branch h₁ h₂ hsep

def sampleAuthority (mutation : Nat) : NativeCommandControlAuthorityV1 := ⟨1, mutation, zeroDigest, none⟩

/-- The second epoch, entered at the sixth mutation of the first one. -/
def sampleRecovery : NativeCommandControlAuthorityV1 :=
  ⟨2, 7, zeroDigest, some ⟨Contracts.recoverySchema, 1, 6, zeroDigest, zeroDigest, zeroDigest⟩⟩

def sampleFloor (mutation : Nat) : CommandControlFloor :=
  ⟨mutation, 1, zeroDigest, some (sampleAuthority mutation), none⟩

/-- Two protected bindings, a tampered one with the pair of the first before and after the second, and a recovery. -/
def sampleHistory : List PolicySnapshotV3 :=
  [sampleSnapshot 1 (some (sampleControls "protected" 5 (some (sampleAuthority 5)))),
    sampleSnapshot 2 (some (sampleControls "tampered" 5 (some (sampleAuthority 5)))),
    sampleSnapshot 3 (some (sampleControls "protected" 6 (some (sampleAuthority 6)))),
    sampleSnapshot 4 (some (sampleControls "tampered" 5 (some (sampleAuthority 5)))),
    sampleSnapshot 5 (some (sampleControls "protected" 1 (some sampleRecovery)))]

/-- A tampered binding is accepted and changes nothing, so one pair can stand at two floors. -/
theorem command_floor_differs_for_one_pair :
    (floorMachine .zero).final none (sampleHistory.take 1) = some (sampleFloor 5) ∧
      (floorMachine .zero).trace (some (sampleFloor 5)) ((sampleHistory.drop 1).take 3) =
        ((sampleHistory.drop 1).take 3).zip
          [.ok (some (sampleFloor 5)), .ok (some (sampleFloor 6)), .ok (some (sampleFloor 6))] ∧
      sampleHistory[1]?.map (fun s => s.commandExtensions) = sampleHistory[3]?.map (fun s => s.commandExtensions) ∧
      sampleFloor 5 ≠ sampleFloor 6 := by
  decide

/-- In that history the recovery is applied, once. -/
theorem command_floor_never_rolls_back_sample :
    ∃ r s g, sampleHistory[4]? = some s ∧ (floorMachine .zero).final none (sampleHistory.take 4) =
      some (sampleFloor 6) ∧
      nextFloor .zero (some (sampleFloor 6)) s = .ok g ∧ AppliesRecovery .zero (some (sampleFloor 6)) s r ∧
      ∀ s', ¬ AppliesRecovery .zero ((floorMachine .zero).final g sampleHistory) s' r := by
  have happ : AppliesRecovery .zero (some (sampleFloor 6))
      (sampleSnapshot 5 (some (sampleControls "protected" 1 (some sampleRecovery))))
      ⟨Contracts.recoverySchema, 1, 6, zeroDigest, zeroDigest, zeroDigest⟩ :=
    ⟨_, sampleRecovery, rfl, rfl, rfl, by decide⟩
  have hnext : nextFloor .zero (some (sampleFloor 6))
      (sampleSnapshot 5 (some (sampleControls "protected" 1 (some sampleRecovery)))) =
      .ok (some ⟨1, 1, zeroDigest, some sampleRecovery, some zeroDigest⟩) := by decide
  obtain ⟨-, -, -, -, -, honce, -⟩ := command_floor_never_rolls_back .zero (some (sampleFloor 6)) sampleHistory
  exact ⟨_, _, _, rfl, by decide, hnext, happ, fun s' => honce _ s' _ _ happ hnext⟩

end Policy
end Guard
