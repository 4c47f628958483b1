import HolGuard.Lib.Machine
import HolGuard.WorkspaceReview.Authority
/-!
# The chain of workspace-review authorities

What one call can do to the secure state, wherever it stops: leave its authority as it was, or put a successor in its
place that the root has signed, that is of a later generation and, when active, names the key it replaces.  Claims,
claim index and time floor are carried along.  From this, over every history of installs and loads: generations never
fall, a generation has one record, and revocation is final.  A load that answers leaves the record file and the secure
state naming the same record.
-/
namespace Guard.WorkspaceReview

open Lib
open Lib.Faulty (Runs after_bind after_fail after_lift after_pure after_write)

section

variable {A D : Type}

/-! ## Succession -/

structure SameAuthority (s s' : SecureState D) : Prop where
  digest : s'.authorityRecordDigest = s.authorityRecordDigest
  generation : s'.enrollmentGeneration = s.enrollmentGeneration
  key : s'.keyId = s.keyId
  status : s'.status = s.status

/-- What was consumed and observed. -/
structure SameClaims (s s' : SecureState D) : Prop where
  claims : s'.consumedClaims = s.consumedClaims
  index : s'.claimIndex = s.claimIndex
  floor : s'.lastObservedTimeMs = s.lastObservedTimeMs

/-- Nothing was consumed or observed. -/
structure SecureState.NothingConsumed (s : SecureState D) : Prop where
  claims : s.consumedClaims = []
  index : s.claimIndex = none
  floor : s.lastObservedTimeMs = 0

theorem SameAuthority.refl (s : SecureState D) : SameAuthority s s := ⟨rfl, rfl, rfl, rfl⟩

theorem SameClaims.refl (s : SecureState D) : SameClaims s s := ⟨rfl, rfl, rfl⟩

variable {s s' : SecureState D}

theorem SameClaims.trans {s'' : SecureState D} (h : SameClaims s s') (h' : SameClaims s' s'') :
    SameClaims s s'' :=
  ⟨h'.1.trans h.1, h'.2.trans h.2, h'.3.trans h.3⟩

/-- A state carries what was consumed and observed on from the one before it, if there was one. -/
def Carries : Option (SecureState D) → SecureState D → Prop
  | none, s => s.NothingConsumed
  | some s₀, s => SameClaims s₀ s

theorem Carries.withPending {x : Option (SecureState D)} (h : Carries x s) (bytes : Bytes) :
    Carries x { s with pendingAuthorityRecord := some bytes } := by
  cases x <;> exact ⟨h.1, h.2, h.3⟩

theorem sameClaims_clearPending (s : SecureState D) : SameClaims s s.clearPendingAuthorityRecord := ⟨rfl, rfl, rfl⟩

/-- What a history can make of the authority. -/
structure Advances (s s' : SecureState D) : Prop where
  generation : s.enrollmentGeneration ≤ s'.enrollmentGeneration
  digest : s'.enrollmentGeneration = s.enrollmentGeneration → s'.authorityRecordDigest = s.authorityRecordDigest
  revoked : s.status = .revoked → s'.status = .revoked

theorem SameAuthority.advances (h : SameAuthority s s') : Advances s s' :=
  ⟨h.generation.ge, fun _ => h.digest, fun hs => h.status.trans hs⟩

theorem Advances.trans {s'' : SecureState D} (h : Advances s s') (h' : Advances s' s'') :
    Advances s s'' := by
  refine ⟨h.generation.trans h'.generation, fun heq => ?_, fun hs => h'.revoked (h.revoked hs)⟩
  have hle := h.generation
  have hle' := h'.generation
  exact (h'.digest (by omega)).trans (h.digest (by omega))

variable [DecidableEq D] {p : Platform A D}

/-- The root has signed the record the state names. -/
def NamesRecord (p : Platform A D) (s : SecureState D) (r : AuthorityRecord D) : Prop :=
  validateRecord p r none = .ok () ∧ s.matchesAuthority (verifiedRecord p r) = true

/-- **The second state's record follows the first's.** -/
structure Succeeds (p : Platform A D) (s s' : SecureState D) : Prop where
  active : s.status = .active
  newer : s.enrollmentGeneration < s'.enrollmentGeneration
  record : ∃ r, NamesRecord p s' r ∧ (s'.status = .active → r.previousKeyId = some s.keyId ∧ s'.keyId ≠ s.keyId)

/-- What a call may do to the secure state. -/
def Follows (p : Platform A D) : Option (SecureState D) → Option (SecureState D) → Prop
  | none, none => True
  | none, some s => s.enrollmentGeneration = 1 ∧ s.status = .active ∧ s.NothingConsumed
  | some _, none => False
  | some s, some s' => SameClaims s s' ∧ (SameAuthority s s' ∨ Succeeds p s s')

theorem follows_refl (s : Option (SecureState D)) : Follows p s s := by
  cases s with
  | none => trivial
  | some s => exact ⟨.refl s, .inl (.refl s)⟩

/-- Clearing what is pending keeps what a state follows. -/
theorem Follows.clearPending {x : Option (SecureState D)} (h : Follows p x (some s)) :
    Follows p x (some s.clearPendingAuthorityRecord) := by
  cases x with
  | none => exact ⟨h.1, h.2.1, h.2.2.1, h.2.2.2, h.2.2.3⟩
  | some s₀ =>
    refine ⟨h.1.trans (sameClaims_clearPending s), h.2.imp (fun ha => ?_) (fun hs => ?_)⟩
    · exact ⟨ha.1, ha.2, ha.3, ha.4⟩
    · exact ⟨hs.1, hs.2, hs.3⟩

theorem matchesAuthority_iff {v : VerifiedAuthority D} : s.matchesAuthority v = true ↔
    (s.schema = secureStateSchema ∧ s.version = secureStateVersion) ∧ s.authorityRecordDigest = v.recordDigest ∧
      s.enrollmentGeneration = v.enrollmentGeneration ∧ s.keyId = v.keyId ∧
      (s.workspaceBinding = v.workspaceBinding ∧ s.deviceBinding = v.deviceBinding ∧
        s.installationBinding = v.installationBinding ∧ s.scopeContractVersion = v.scopeContractVersion ∧
        s.scopeBinding = v.scopeBinding) ∧ s.status = v.status := by
  simp only [SecureState.matchesAuthority, Bool.and_eq_true, beq_iff_eq]
  tauto

/-! ## The pieces of a call -/

variable {nowMs : Option Nat}

theorem readRecord_eq_ok {bytes : Bytes} {t : ReadRecord D} (h : readRecord p bytes nowMs = .ok t) :
    p.parseRecord bytes = .ok t.record ∧ t.bytes = bytes ∧
      validateRecord p t.record nowMs = .ok () ∧ t.verified = verifiedRecord p t.record := by
  unfold readRecord at h
  split at h
  · cases h
  · rename_i record hparse
    obtain ⟨v, hv, rfl⟩ := map_eq_ok.1 h
    obtain ⟨u, hu, rfl⟩ := map_eq_ok.1 hv
    exact ⟨hparse, rfl, hu, rfl⟩

variable {r : AuthorityRecord D}

/-- A record valid at some time is valid for a transition. -/
theorem validateRecord_of_time (h : validateRecord p r nowMs = .ok ()) :
    validateRecord p r none = .ok () := by
  unfold validateRecord at h ⊢
  rw [ite_error_eq_ok] at h
  obtain ⟨hshape, hrest⟩ := h
  rw [ite_error_eq_ok]
  refine ⟨?_, hrest⟩
  simp only [Bool.not_eq_true', Bool.not_eq_false, Bool.and_eq_true] at hshape
  simp [hshape.1, recordTimeOk]

variable {d d' : Disk A D}

theorem runs_loadSecure {r : Except String (Option (SecureState D))}
    (h : Runs (loadSecure p) d r d') : d' = d ∧ ∀ x, r = .ok x → x = d.secure := by
  replace h := Faulty.runs_get_bind h
  split at h
  · rename_i hnone
    exact after_pure h ⟨rfl, fun x hx => (Except.ok.inj hx).symm.trans hnone.symm⟩
  · rename_i s hsome
    refine after_lift h (fun _ _ => ⟨rfl, nofun⟩) fun _ _ h => ?_
    exact after_pure h ⟨rfl, fun x hx => (Except.ok.inj hx).symm.trans hsome.symm⟩

theorem runs_storeSecure {r : Except String Unit} (h : Runs (storeSecure p s) d r d') :
    (d' = d ∧ r ≠ .ok ()) ∨ d' = { d with secure := some s } := by
  refine after_lift h (fun _ _ => .inl ⟨rfl, nofun⟩) fun _ _ h => ?_
  obtain ⟨-, rfl⟩ | ⟨rfl, rfl | rfl⟩ := Faulty.runs_write h
  · exact .inr rfl
  · exact .inl ⟨rfl, nofun⟩
  · exact .inr rfl

/-- What a read of the record file says of it. -/
def IsTarget (p : Platform A D) (d : Disk A D) : Option (ReadRecord D) → Prop
  | none => d.record = none
  | some t => d.record = some t.bytes ∧ readRecord p t.bytes none = .ok t

theorem runs_readTarget {r : Except String (Option (ReadRecord D))}
    (h : Runs (readTarget p) d r d') : d' = d ∧ ∀ target, r = .ok target → IsTarget p d target := by
  replace h := Faulty.runs_get_bind h
  split at h
  · rename_i hnone
    refine after_pure h ⟨rfl, fun target htarget => ?_⟩
    cases htarget
    exact hnone
  · rename_i bytes hsome
    refine after_lift h (fun _ _ => ⟨rfl, nofun⟩) fun t hread h => after_pure h ⟨rfl, fun target htarget => ?_⟩
    cases htarget
    have hbytes := (readRecord_eq_ok hread).2.1
    exact ⟨hbytes ▸ hsome, hbytes ▸ hread⟩

section After

variable {β : Type} {out : Except String β} {P : Except String β → Disk A D → Prop}

@[elab_as_elim]
theorem after_loadSecure {f : Option (SecureState D) → Session A D β} (h : Runs (loadSecure p >>= f) d out d')
    (stop : ∀ e, P (.error e) d) (go : Runs (f d.secure) d out d' → P out d') : P out d' := by
  refine after_bind h (fun e t hload => ?_) fun x t hload hrest => ?_ <;> obtain ⟨rfl, hx⟩ := runs_loadSecure hload
  · exact stop e
  · exact go (hx x rfl ▸ hrest)

@[elab_as_elim]
theorem after_readTarget {f : Option (ReadRecord D) → Session A D β} (h : Runs (readTarget p >>= f) d out d')
    (stop : ∀ e, P (.error e) d) (go : ∀ target, IsTarget p d target → Runs (f target) d out d' → P out d') :
    P out d' := by
  refine after_bind h (fun e t hread => ?_) fun x t hread hrest => ?_ <;> obtain ⟨rfl, hx⟩ := runs_readTarget hread
  · exact stop e
  · exact go x (hx x rfl) hrest

@[elab_as_elim]
theorem after_storeSecure {f : Unit → Session A D β} (h : Runs (storeSecure p s >>= f) d out d')
    (lost : ∀ e, P (.error e) d) (unreported : ∀ e, P (.error e) { d with secure := some s })
    (go : Runs (f ()) { d with secure := some s } out d' → P out d') : P out d' := by
  refine after_bind h (fun e t hstore => ?_) fun x t hstore hrest => ?_ <;>
    obtain ⟨rfl, hne⟩ | rfl := runs_storeSecure hstore
  · exact lost e
  · exact unreported e
  · exact absurd rfl hne
  · exact go hrest

end After

/-- The record file holds the canonical text of the record it parses to. -/
def FileOk (p : Platform A D) (d : Disk A D) : Prop :=
  ∀ bytes, d.record = some bytes → ∃ r, p.parseRecord bytes = .ok r ∧ p.digest bytes = p.digest (p.recordText r)

/-- **What a call leaves behind**, wherever it stops. -/
structure Moves (p : Platform A D) (d d' : Disk A D) : Prop where
  follows : Follows p d.secure d'.secure
  nodes : d'.nodes = d.nodes
  file : FileOk p d → FileOk p d'

theorem Moves.refl (d : Disk A D) : Moves p d d := ⟨follows_refl _, rfl, id⟩

/-! ## Loading -/

theorem pendingRecord_eq_ok {t : ReadRecord D} (h : pendingRecord p s = .ok (some t)) :
    s.pendingAuthorityRecord = some t.bytes ∧ p.parseRecord t.bytes = .ok t.record ∧
      p.digest t.bytes = p.digest (p.recordText t.record) := by
  unfold pendingRecord at h
  repeat' split at h
  all_goals cases h
  rename_i bytes hpending hdigest _ _ record hparse _ v hv hmatches
  obtain ⟨u, -, rfl⟩ := map_eq_ok.1 hv
  simp only [Bool.not_eq_true', Bool.not_eq_false] at hmatches
  have hname := (matchesAuthority_iff.1 hmatches).2.1
  exact ⟨hpending, hparse, (not_not.1 hdigest).trans hname⟩

/-- **The first part of a load** touches only the record file, and its answer is what the file holds. -/
theorem runs_restorePending {locals : LocalBindings D} {target : Option (ReadRecord D)}
    {r : Except String (Option (ReadRecord D))} (htarget : IsTarget p d target)
    (h : Runs (restorePending p locals d.secure target) d r d') :
    d'.secure = d.secure ∧ d'.nodes = d.nodes ∧ (FileOk p d → FileOk p d') ∧
      ∀ target', r = .ok target' → IsTarget p d' target' := by
  have hsame : ∀ target', (.ok target : Except String _) = .ok target' → IsTarget p d target' := by
    rintro _ ⟨⟩
    exact htarget
  unfold restorePending at h
  split at h
  · exact after_pure h ⟨rfl, rfl, id, hsame⟩
  refine after_lift h (fun _ _ => ⟨rfl, rfl, id, nofun⟩) fun pending hpending h => ?_
  split at h
  · exact after_pure h ⟨rfl, rfl, id, hsame⟩
  rename_i pending
  split at h
  · exact after_pure h ⟨rfl, rfl, id, hsame⟩
  refine after_lift h (fun _ _ => ⟨rfl, rfl, id, nofun⟩) fun _ _ h => ?_
  have hfile : FileOk p { d with record := some pending.bytes } := by
    intro bytes hbytes
    obtain rfl := Option.some.inj hbytes
    exact ⟨_, (pendingRecord_eq_ok hpending).2⟩
  refine after_write h ⟨rfl, rfl, id, nofun⟩ ⟨rfl, rfl, fun _ => hfile, nofun⟩ fun h => ?_
  obtain ⟨rfl, hread⟩ := runs_readTarget h
  exact ⟨rfl, rfl, fun _ => hfile, hread⟩

/-- The transition a load may make itself is a succession. -/
theorem succeeds_of_canTransitionTo (hvalid : validateRecord p r none = .ok ())
    (h : s.canTransitionTo (verifiedRecord p r) = true)
    (hs' : s'.matchesAuthority (verifiedRecord p r) = true) : Succeeds p s s' := by
  unfold SecureState.canTransitionTo at h
  split at h
  · cases h
  · rename_i hnot
    push Not at hnot
    have hmatch := (matchesAuthority_iff.1 hs').2
    have hactive : s.status = .active := by
      cases hst : s.status with
      | active => rfl
      | revoked => exact absurd hst hnot.1
    refine ⟨hactive, by rw [hmatch.2.1]; exact hnot.2.1, r, ⟨hvalid, hs'⟩, fun hact => ?_⟩
    have hstatus : (verifiedRecord p r).status = .active := hmatch.2.2.2.2.symm.trans hact
    rw [hstatus] at h
    simp only [Bool.and_eq_true, beq_iff_eq, bne_iff_ne] at h
    exact ⟨h.1, by rw [hmatch.2.2.1]; exact h.2⟩

theorem stateForAuthority_eq_ok {v : VerifiedAuthority D} {previous : Option (SecureState D)}
    {pendingBytes : Option Bytes} (h : stateForAuthority p v previous pendingBytes = .ok s) :
    s.matchesAuthority v = true ∧ Carries previous s ∧
      (∀ bytes, pendingBytes = some bytes → p.digest bytes = v.recordDigest) := by
  have hmatches : ((SecureState.forAuthority v).carryOver previous).matchesAuthority v = true := by
    cases previous <;> simp [SecureState.matchesAuthority, SecureState.carryOver, SecureState.forAuthority]
  have hclaims : Carries previous ((SecureState.forAuthority v).carryOver previous) := by
    cases previous <;> exact ⟨rfl, rfl, rfl⟩
  unfold stateForAuthority at h
  cases pendingBytes with
  | none =>
    obtain rfl := Except.ok.inj h
    exact ⟨hmatches, hclaims, nofun⟩
  | some bytes =>
    obtain ⟨u, hvalid, rfl⟩ := map_eq_ok.1 h
    refine ⟨hmatches, hclaims.withPending bytes, fun b hb => ?_⟩
    obtain rfl := Option.some.inj hb
    unfold SecureState.validate at hvalid
    rw [ite_error_eq_ok, ite_error_eq_ok] at hvalid
    have hpending := hvalid.2.1
    simp only [Option.all_some, pendingOk, Bool.not_eq_true', Bool.not_eq_false, Bool.and_eq_true,
      decide_eq_true_eq] at hpending
    rw [hpending.1.2]
    exact (matchesAuthority_iff.1 hmatches).2.1

theorem runs_followRecord (hvalid : validateRecord p r none = .ok ())
    {out : Except String (SecureState D)} (hd : d.secure = some s)
    (h : Runs (followRecord p s (verifiedRecord p r)) d out d') :
    (Follows p d.secure d'.secure ∧ d'.nodes = d.nodes ∧ d'.record = d.record) ∧
      ∀ s', out = .ok s' → d'.secure = some s' ∧ s'.matchesAuthority (verifiedRecord p r) = true := by
  unfold followRecord at h
  split at h
  · rename_i hmatches
    refine after_pure h ⟨⟨follows_refl _, rfl, rfl⟩, fun s' hs' => ?_⟩
    cases hs'
    exact ⟨hd, hmatches⟩
  split at h
  · exact after_fail h ⟨⟨follows_refl _, rfl, rfl⟩, nofun⟩
  rename_i hcan
  simp only [Bool.not_eq_true', Bool.not_eq_false] at hcan
  refine after_lift h (fun _ _ => ⟨⟨follows_refl _, rfl, rfl⟩, nofun⟩) fun next hnext h => ?_
  obtain ⟨hmatches, hclaims, -⟩ := stateForAuthority_eq_ok hnext
  have hfollows : Follows p d.secure (some next) := by
    rw [hd]
    exact ⟨hclaims, .inr (succeeds_of_canTransitionTo hvalid hcan hmatches)⟩
  refine after_storeSecure h (fun _ => ⟨⟨follows_refl _, rfl, rfl⟩, nofun⟩) (fun _ => ⟨⟨hfollows, rfl, rfl⟩, nofun⟩)
    fun h => after_pure h ⟨⟨hfollows, rfl, rfl⟩, fun s' hs' => ?_⟩
  cases hs'
  exact ⟨rfl, hmatches⟩

/-- **The last part of a load**: every state it leaves follows the one it found, and once it answers, the state names
the record and nothing is pending. -/
theorem runs_settleState (hvalid : validateRecord p r none = .ok ()) {out : Except String Unit}
    (hd : d.secure = some s) (h : Runs (settleState p s (verifiedRecord p r)) d out d') :
    Follows p d.secure d'.secure ∧ d'.nodes = d.nodes ∧ d'.record = d.record ∧
      (out = .ok () → ∃ s', d'.secure = some s' ∧ s'.matchesAuthority (verifiedRecord p r) = true ∧
        s'.pendingAuthorityRecord = none) := by
  refine after_bind h (fun e t hfirst => ?_) fun s₁ t hfirst hrest => ?_ <;>
    obtain ⟨⟨hfollows, hnodes, hrecord⟩, hok⟩ := runs_followRecord hvalid hd hfirst
  · exact ⟨hfollows, hnodes, hrecord, nofun⟩
  obtain ⟨hsecure, hmatches⟩ := hok s₁ rfl
  have hcleared : Follows p d.secure (some s₁.clearPendingAuthorityRecord) := (hsecure ▸ hfollows).clearPending
  split at hrest
  · obtain ⟨rfl, hne⟩ | rfl := runs_storeSecure hrest
    · exact ⟨hfollows, hnodes, hrecord, fun hout => absurd hout hne⟩
    · exact ⟨hcleared, hnodes, hrecord, fun _ => ⟨_, rfl, hmatches, rfl⟩⟩
  · rename_i hpending
    exact after_pure hrest ⟨hfollows, hnodes, hrecord, fun _ => ⟨s₁, hsecure, hmatches, by simpa using hpending⟩⟩

/-- The secure state and the record file name the same record. -/
def Agrees (p : Platform A D) (d : Disk A D) : Prop :=
  (d.secure = none ∧ d.record = none) ∨ ∃ s bytes r, d.secure = some s ∧ d.record = some bytes ∧
    p.parseRecord bytes = .ok r ∧ NamesRecord p s r ∧ s.pendingAuthorityRecord = none

/-- **A load**, wherever it stops, and what it has achieved when it answers. -/
theorem runs_loadAt {locals : LocalBindings D} {out : Except String (Option (VerifiedAuthority D))}
    (h : Runs (loadAt p locals nowMs) d out d') :
    Moves p d d' ∧ ∀ v, out = .ok v → Agrees p d' := by
  refine after_loadSecure h (fun _ => ⟨.refl _, nofun⟩) fun h => ?_
  refine after_readTarget h (fun _ => ⟨.refl _, nofun⟩) fun target htarget h => ?_
  refine after_bind h (fun e d₁ hrestore => ?_) fun target' d₁ hrestore h => ?_ <;>
    obtain ⟨hsecure, hnodes, hfile, hread⟩ := runs_restorePending htarget hrestore <;>
    have hmoves : Moves p d d₁ := ⟨hsecure ▸ follows_refl _, hnodes, hfile⟩
  · exact ⟨hmoves, nofun⟩
  have htarget' := hread target' rfl
  split at h
  · split at h
    · exact after_fail h ⟨hmoves, nofun⟩
    · rename_i hstate
      refine after_pure h ⟨hmoves, fun _ _ => .inl ⟨?_, htarget'⟩⟩
      rw [hsecure]
      simpa using hstate
  · rename_i t
    obtain ⟨hrecord, hreadt⟩ := htarget'
    obtain ⟨hparse, -, hvalid, -⟩ := readRecord_eq_ok hreadt
    refine after_lift h (fun _ _ => ⟨hmoves, nofun⟩) fun v hverify h => ?_
    obtain ⟨-, -, rfl⟩ := map_eq_ok.1 hverify
    split at h
    · exact after_fail h ⟨hmoves, nofun⟩
    refine after_lift h (fun _ _ => ⟨hmoves, nofun⟩) fun _ _ h => ?_
    split at h
    · exact after_fail h ⟨hmoves, nofun⟩
    rename_i s hs
    refine after_bind h (fun e d₂ hsettle => ?_) fun _ d₂ hsettle h => ?_ <;>
      obtain ⟨hfollows, hn, hr, hok⟩ := runs_settleState hvalid (hsecure.trans hs) hsettle <;>
      have hmoves : Moves p d d₂ := ⟨hsecure ▸ hfollows, hn.trans hnodes, fun hf b hb => hfile hf b (hr ▸ hb)⟩
    · exact ⟨hmoves, nofun⟩
    obtain ⟨s', hs', hmatches, hpending⟩ := hok rfl
    split at h
    · exact after_fail h ⟨hmoves, nofun⟩
    · exact after_pure h ⟨hmoves, fun _ _ => .inr ⟨s', t.bytes, t.record, hs', hr.trans hrecord, hparse,
        ⟨hvalid, hmatches⟩, hpending⟩⟩

/-! ## Installing -/

theorem succeeds_of_validateTransition {current : VerifiedAuthority D} (hvalid : validateRecord p r none = .ok ())
    (h : validateTransition (some current) (verifiedRecord p r) = .ok ())
    (hs : s.matchesAuthority current = true) (hs' : s'.matchesAuthority (verifiedRecord p r) = true) :
    Succeeds p s s' := by
  obtain ⟨-, -, hgeneration, hkey, -, hstatus⟩ := matchesAuthority_iff.1 hs
  obtain ⟨-, -, hgeneration', hkey', -, hstatus'⟩ := matchesAuthority_iff.1 hs'
  unfold validateTransition at h
  rw [ite_error_eq_ok, ite_error_eq_ok, ite_error_eq_ok] at h
  obtain ⟨hactive, hnewer, -, hrest⟩ := h
  refine ⟨?_, by omega, r, ⟨hvalid, hs'⟩, fun hact => ?_⟩
  · rw [hstatus]
    cases hst : current.status with
    | active => rfl
    | revoked => exact absurd hst hactive
  · rw [hstatus'.symm.trans hact] at hrest
    rw [ite_error_eq_ok] at hrest
    have hnames := hrest.1
    push Not at hnames
    exact ⟨hkey ▸ hnames.1, by rw [hkey, hkey']; exact hnames.2⟩

/-- **What an admitted candidate does to the secure state.** -/
theorem follows_of_admitCandidate {current : Option (ReadRecord D)} {state : Option (SecureState D)}
    (hvalid : validateRecord p r none = .ok ())
    (h : admitCandidate current state (verifiedRecord p r) = .ok ()) {next : SecureState D}
    (hnext : next.matchesAuthority (verifiedRecord p r) = true) (hclaims : Carries state next) :
    Follows p state (some next) := by
  have hsame : ∀ s, state = some s → s.matchesAuthority (verifiedRecord p r) = true → Follows p state (some next) := by
    rintro s rfl hs
    obtain ⟨-, hd, hg, hk, -, hst⟩ := matchesAuthority_iff.1 hs
    obtain ⟨-, hd', hg', hk', -, hst'⟩ := matchesAuthority_iff.1 hnext
    exact ⟨hclaims, .inl ⟨hd'.trans hd.symm, hg'.trans hg.symm, hk'.trans hk.symm, hst'.trans hst.symm⟩⟩
  unfold admitCandidate at h
  cases current with
  | some current =>
    simp only at h
    split at h
    · cases h
    rename_i htransition
    rw [ite_error_eq_ok, ite_error_eq_ok] at h
    obtain ⟨hsome, hmatches, -⟩ := h
    cases state with
    | none => exact absurd ⟨rfl, rfl⟩ hsome
    | some s =>
      by_cases hs : s.matchesAuthority (verifiedRecord p r) = true
      · exact hsame s rfl hs
      · simp only [Option.any_some, Bool.not_eq_true] at hmatches hs
        have hcurrent : s.matchesAuthority current.verified = true := by
          by_contra hne
          exact hmatches ⟨by simpa using hne, hs⟩
        exact ⟨hclaims, .inr (succeeds_of_validateTransition hvalid htransition hcurrent hnext)⟩
  | none =>
    simp only at h
    split at h
    · rename_i hany
      obtain ⟨s, rfl, hs⟩ := (Option.any_eq_true _ _).1 hany
      exact hsame s rfl hs
    · split at h
      · cases h
      rename_i htransition
      rw [ite_error_eq_ok] at h
      simp only [validateTransition] at htransition
      split at htransition
      · rename_i hfirst
        obtain rfl : state = none := by simpa using h.1
        obtain ⟨-, -, hg, -, -, hst⟩ := matchesAuthority_iff.1 hnext
        exact ⟨hg.trans hfirst.1, hst.trans hfirst.2, hclaims⟩
      · cases htransition

/-- **The three writes of an install**, wherever they stop. -/
theorem runs_publishCandidate {candidate : ReadRecord D} {out : Except String Unit}
    (hread : readRecord p candidate.bytes nowMs = .ok candidate)
    (hfollows : ∀ next : SecureState D, next.matchesAuthority candidate.verified = true →
      Carries d.secure next → Follows p d.secure (some next))
    (h : Runs (publishCandidate p candidate d.secure) d out d') :
    Moves p d d' ∧ (out = .ok () → Agrees p d') := by
  obtain ⟨hparse, -, hvalid, hverified⟩ := readRecord_eq_ok hread
  refine after_lift h (fun _ _ => ⟨.refl _, nofun⟩) fun next hnext h => ?_
  obtain ⟨hmatches, hclaims, hbytes⟩ := stateForAuthority_eq_ok hnext
  have hpending : Follows p d.secure (some next) := hfollows next hmatches hclaims
  have hcleared : Follows p d.secure (some next.clearPendingAuthorityRecord) := hpending.clearPending
  have hfile : ∀ s, FileOk p ⟨some s, some candidate.bytes, d.nodes⟩ := by
    intro s bytes heq
    obtain rfl := Option.some.inj heq
    exact ⟨_, hparse, (hbytes _ rfl).trans (by rw [hverified]; rfl)⟩
  refine after_storeSecure h (fun _ => ⟨.refl _, nofun⟩) (fun _ => ⟨⟨hpending, rfl, id⟩, nofun⟩) fun h => ?_
  refine after_write h ⟨⟨hpending, rfl, id⟩, nofun⟩ ⟨⟨hpending, rfl, fun _ => hfile _⟩, nofun⟩ fun h => ?_
  obtain ⟨rfl, hne⟩ | rfl := runs_storeSecure h
  · exact ⟨⟨hpending, rfl, fun _ => hfile _⟩, fun hout => absurd hout hne⟩
  · refine ⟨⟨hcleared, rfl, fun _ => hfile _⟩, fun _ => .inr ?_⟩
    exact ⟨_, _, candidate.record, rfl, rfl, hparse, ⟨validateRecord_of_time hvalid, hverified ▸ hmatches⟩, rfl⟩

/-- **An install**, wherever it stops, and what it has achieved when it answers. -/
theorem runs_installRecordAt {locals : LocalBindings D} {file : Option Bytes} {nowMs : Nat}
    {out : Except String Unit} (h : Runs (installRecordAt p locals file nowMs) d out d') :
    Moves p d d' ∧ (out = .ok () → Agrees p d') := by
  unfold installRecordAt at h
  split at h
  · exact after_fail h ⟨.refl _, nofun⟩
  refine after_lift h (fun _ _ => ⟨.refl _, nofun⟩) fun candidate hread hbound => ?_
  obtain ⟨hparse, rfl, hvalid, hverified⟩ := readRecord_eq_ok hread
  refine after_lift hbound (fun _ _ => ⟨.refl _, nofun⟩) fun _ _ h => ?_
  refine after_readTarget h (fun _ => ⟨.refl _, nofun⟩) fun current hcurrent h => ?_
  refine after_loadSecure h (fun _ => ⟨.refl _, nofun⟩) fun hdecide => ?_
  split at hdecide
  · -- the candidate is installed already: only what was pending is cleared
    rename_i installed hinstalled
    obtain ⟨rfl, -⟩ := Option.filter_eq_some_iff.1 hinstalled
    obtain ⟨hrecord, hinstalled⟩ := hcurrent
    obtain ⟨hparse, -, hvalid, hverified⟩ := readRecord_eq_ok hinstalled
    split at hdecide
    · exact after_fail hdecide ⟨.refl _, nofun⟩
    rename_i s hs
    split at hdecide
    · exact after_fail hdecide ⟨.refl _, nofun⟩
    rename_i hmatches
    simp only [Bool.not_eq_true', Bool.not_eq_false, hverified] at hmatches
    have hcleared : Follows p d.secure (some s.clearPendingAuthorityRecord) :=
      (hs ▸ follows_refl _ : Follows p d.secure (some s)).clearPending
    split at hdecide
    · obtain ⟨rfl, hne⟩ | rfl := runs_storeSecure hdecide
      · exact ⟨.refl _, fun hout => absurd hout hne⟩
      · exact ⟨⟨hcleared, rfl, id⟩, fun _ => .inr ⟨_, _, _, rfl, hrecord, hparse, ⟨hvalid, hmatches⟩, rfl⟩⟩
    · rename_i hpending
      exact after_pure hdecide
        ⟨.refl _, fun _ => .inr ⟨s, _, _, hs, hrecord, hparse, ⟨hvalid, hmatches⟩, by simpa using hpending⟩⟩
  · refine after_lift hdecide (fun _ _ => ⟨.refl _, nofun⟩) fun _ hadmit h => ?_
    rw [hverified] at hadmit
    exact runs_publishCandidate hread
      (fun next hnext hclaims =>
        follows_of_admitCandidate (validateRecord_of_time hvalid) hadmit (hverified ▸ hnext) hclaims) h

/-! ## Histories -/

/-- One event of a history: an install or a load with what becomes of its writes, or a change of what was consumed and
observed, as decisions make it. -/
inductive Event (D : Type) where
  | install (locals : LocalBindings D) (file : Option Bytes) (nowMs : Nat) (writes : List WriteOutcome)
  | load (locals : LocalBindings D) (nowMs : Option Nat) (writes : List WriteOutcome)
  | observe (claims : List (Claim D)) (index : Option (ClaimIndexAnchor D)) (floor : Nat)

def SecureState.observe (claims : List (Claim D)) (index : Option (ClaimIndexAnchor D)) (floor : Nat)
    (s : SecureState D) : SecureState D :=
  { s with consumedClaims := claims, claimIndex := index, lastObservedTimeMs := floor }

def Disk.observe (claims : List (Claim D)) (index : Option (ClaimIndexAnchor D)) (floor : Nat) (d : Disk A D) :
    Disk A D :=
  { d with secure := d.secure.map (SecureState.observe claims index floor) }

/-- The installation under a history of events; each is told whether it succeeded. -/
def authorityMachine (p : Platform A D) : Machine (Disk A D) (Event D) (Except String Unit) where
  step d
    | .install locals file nowMs writes =>
      let out := installRecordAt p locals file nowMs d writes
      (out.2.1, out.1)
    | .load locals nowMs writes =>
      let out := loadAt p locals nowMs d writes
      (out.2.1, out.1.map (fun _ => ()))
    | .observe claims index floor => (d.observe claims index floor, .ok ())

theorem Succeeds.advances (h : Succeeds p s s') : Advances s s' := by
  refine ⟨h.newer.le, fun heq => absurd heq h.newer.ne', fun hs => ?_⟩
  rw [h.active] at hs
  cases hs

/-- **A call is a move.** -/
theorem moves_step (d : Disk A D) (e : Event D) (he : ∀ claims index floor, e ≠ .observe claims index floor) :
    Moves p d ((authorityMachine p).step d e).1 := by
  cases e with
  | install locals file nowMs writes => exact (runs_installRecordAt ⟨writes, rfl, rfl⟩).1
  | load locals nowMs writes => exact (runs_loadAt ⟨writes, rfl, rfl⟩).1
  | observe claims index floor => exact absurd rfl (he claims index floor)

/-- **One event**: the authority advances and the record file stays canonical. -/
theorem advances_step (d : Disk A D) (e : Event D) :
    (∀ s, d.secure = some s → ∃ s', ((authorityMachine p).step d e).1.secure = some s' ∧ Advances s s') ∧
      (FileOk p d → FileOk p ((authorityMachine p).step d e).1) := by
  by_cases he : ∀ claims index floor, e ≠ .observe claims index floor
  · obtain ⟨hfollows, -, hfile⟩ := moves_step (p := p) d e he
    refine ⟨fun s hs => ?_, hfile⟩
    rw [hs] at hfollows
    cases hs' : ((authorityMachine p).step d e).1.secure with
    | none => rw [hs'] at hfollows; exact hfollows.elim
    | some s' =>
      rw [hs'] at hfollows
      exact ⟨s', rfl, hfollows.2.elim SameAuthority.advances Succeeds.advances⟩
  · push Not at he
    obtain ⟨claims, index, floor, rfl⟩ := he
    refine ⟨fun s hs => ⟨s.observe claims index floor, ?_, SameAuthority.advances ⟨rfl, rfl, rfl, rfl⟩⟩, id⟩
    simp [authorityMachine, Disk.observe, hs]

/-- **A history**, from any disk. -/
theorem advances_final (d : Disk A D) (events : List (Event D)) (s : SecureState D) (hs : d.secure = some s) :
    ∃ s', ((authorityMachine p).final d events).secure = some s' ∧ Advances s s' := by
  refine (authorityMachine p).final_invariant (fun d' => ∃ s', d'.secure = some s' ∧ Advances s s') ?_ events d
    ⟨s, hs, (SameAuthority.refl s).advances⟩
  rintro d' e ⟨s', hs', hadvances⟩
  obtain ⟨s'', hs'', hstep⟩ := (advances_step (p := p) d' e).1 s' hs'
  exact ⟨s'', hs'', hadvances.trans hstep⟩

theorem fileOk_final (events : List (Event D)) : FileOk p ((authorityMachine p).final Disk.empty events) :=
  (authorityMachine p).final_invariant (FileOk p) (fun d e => (advances_step d e).2) events Disk.empty nofun

/-- The record file is the record the secure state names, or there is neither. -/
def Settled (p : Platform A D) (d : Disk A D) : Prop :=
  (d.secure = none ∧ d.record = none) ∨ ∃ s bytes r, d.secure = some s ∧ d.record = some bytes ∧
    p.digest bytes = s.authorityRecordDigest ∧ p.parseRecord bytes = .ok r ∧ NamesRecord p s r

theorem Agrees.settled (h : Agrees p d) (hfile : FileOk p d) : Settled p d := by
  obtain hnone | ⟨s, bytes, r, hs, hbytes, hparse, hnames, -⟩ := h
  · exact .inl hnone
  · obtain ⟨r', hparse', hdigest⟩ := hfile bytes hbytes
    obtain rfl : r = r' := Except.ok.inj (hparse.symm.trans hparse')
    exact .inr ⟨s, bytes, r, hs, hbytes, hdigest.trans (matchesAuthority_iff.1 hnames.2).2.1.symm, hparse, hnames⟩

/-- **The authority chain.**  From no enrollment and over every history, with every write done, lost or done and not
reported: the generation never falls, a generation has one record and a revoked authority stays revoked; each install
and each load keeps the claims, the index and the time floor and leaves the authority or puts a signed successor in its
place, which when active names the key it replaces and has another; and a load that succeeds leaves the file holding
the record the secure state names. -/
theorem authority_chain (p : Platform A D) (before after : List (Event D)) :
    (∀ s, ((authorityMachine p).final Disk.empty before).secure = some s →
      ∃ s', ((authorityMachine p).final Disk.empty (before ++ after)).secure = some s' ∧
        s.enrollmentGeneration ≤ s'.enrollmentGeneration ∧
        (s'.enrollmentGeneration = s.enrollmentGeneration → s'.authorityRecordDigest = s.authorityRecordDigest) ∧
        (s.status = .revoked → s'.status = .revoked)) ∧
    (∀ e, (∀ claims index floor, e ≠ .observe claims index floor) →
      Follows p ((authorityMachine p).final Disk.empty before).secure
        ((authorityMachine p).final Disk.empty (before ++ [e])).secure) ∧
    (∀ locals nowMs writes v,
      (loadAt p locals nowMs ((authorityMachine p).final Disk.empty before) writes).1 = .ok v →
      Settled p ((authorityMachine p).final Disk.empty (before ++ [.load locals nowMs writes]))) := by
  refine ⟨fun s hs => ?_, fun e he => ?_, fun locals nowMs writes v hv => ?_⟩
  · rw [(authorityMachine p).final_append]
    obtain ⟨s', hs', hadvances⟩ := advances_final (p := p) _ after s hs
    exact ⟨s', hs', hadvances.generation, hadvances.digest, hadvances.revoked⟩
  · rw [(authorityMachine p).final_append]
    exact (moves_step _ e he).follows
  · have hrun : Runs (loadAt p locals nowMs) ((authorityMachine p).final Disk.empty before) _ _ :=
      ⟨writes, rfl, rfl⟩
    have hload := (runs_loadAt hrun).2 v hv
    have hfile := fileOk_final (p := p) (before ++ [.load locals nowMs writes])
    rw [(authorityMachine p).final_append] at hfile ⊢
    exact hload.settled hfile

end

/-- A platform for small runs: a text is its own digest, a record's text is its generation and its status, and a node's
text is its letters and how many children it has. -/
def samplePlatform (record : Bytes → Except String (AuthorityRecord Bytes)) : Platform Bytes Bytes where
  digest bytes := bytes
  letters d := d :: List.replicate 63 []
  length_letters _ := rfl
  letters_injective _ _ h := (List.cons.inj h).1
  digestText d := d
  parseRecord := record
  recordText r := [UInt8.ofNat r.enrollmentGeneration, if r.status = .active then 1 else 0]
  isCanonicalJson _ := true
  rootVerifies _ := true
  nodeText
    | .leaf key _ => 0 :: key.flatten
    | .branch letters children => 1 :: UInt8.ofNat children.keys.card :: letters.flatten

def sampleKey (n : UInt8) : Bytes := n :: List.replicate 31 0

def sampleRecord : Bytes → Except String (AuthorityRecord Bytes)
  | [n, status] =>
    .ok {
      schema := authoritySchema, version := 1, purpose := authorityPurpose, keyAlgorithm := keyAlgorithmEd25519
      keyId := sampleKey n, publicKey := sampleKey n
      workspaceBinding := [1], deviceBinding := [2], installationBinding := [3]
      enrollmentGeneration := n.toNat, previousKeyId := if n = 1 ∨ status = 0 then none else some (sampleKey (n - 1))
      scopeContractVersion := scopeContractV1, scopeBinding := [4], issuedAtMs := 10, expiresAtMs := 20
      status := if status = 1 then .active else .revoked, enrollmentSignature := List.replicate 64 0 }
  | _ => .error "native_workspace_review_authority_invalid"

/-- The second install stops after its first write, and a load completes it. -/
def recoveredEvents : List (Event Bytes) :=
  [.install (.ok ([2], [3])) (some [1, 1]) 15 [], .observe [] none 12,
    .install (.ok ([2], [3])) (some [2, 1]) 15 [.unreported]]

example :
    let d := (authorityMachine (samplePlatform sampleRecord)).final Disk.empty recoveredEvents
    let d' := (authorityMachine (samplePlatform sampleRecord)).final d [.load (.ok ([2], [3])) (some 16) []]
    d.record = some [1, 1] ∧ d.secure.map SecureState.authorityRecordDigest = some [2, 1] ∧
      d'.record = some [2, 1] ∧ d'.secure.map SecureState.lastObservedTimeMs = some 12 := by
  decide +kernel

end Guard.WorkspaceReview
