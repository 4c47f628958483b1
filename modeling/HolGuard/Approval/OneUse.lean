import HolGuard.Approval.ReplayMemory
/-!
# One use of every approval

What one call of the replay memory can do is said once (`registerPending_cases`, `transitionAndEmit_cases`).  From it,
an invariant ties the status of a live entry to the successful claims and consumes of its nonce in the whole history
(`Tracks`), and the one-use property of every run is read off the invariant.  The clock is any sequence of numbers.
-/
namespace Guard
namespace Approval

open Lib (KeyMap Machine)

/-! ## What one call can do -/

variable {m : ApprovalReplayMemory} {entry : ReplayEntry}

namespace ApprovalReplayMemory

theorem get?_prune {now : Nat} {key : ReplayKey} :
    (m.prune now).entries.get? key = some entry ↔
      m.entries.get? key = some entry ∧ now < entry.binding.expiresAtMs := by
  unfold prune
  rw [KeyMap.get?_retain, decide_eq_true_eq]

theorem get?_setStatus (m : ApprovalReplayMemory) (key j : ReplayKey) (status : ReplayStatus) :
    (m.setStatus key status).entries.get? j =
      if j = key then (m.entries.get? j).map (fun entry => { entry with status := status }) else m.entries.get? j :=
  KeyMap.get?_modify _ _ _ _

theorem setStatus_setStatus {key : ReplayKey} (status : ReplayStatus) (h : m.entries.get? key = some entry) :
    (m.setStatus key status).setStatus key entry.status = m := by
  obtain ⟨epoch, poisoned, entries⟩ := m
  simp only [setStatus, mk.injEq, true_and]
  refine KeyMap.modify_modify_of_undo entries key _ _ (fun a ha => ?_)
  obtain rfl : a = entry := Option.some.inj (ha.symm.trans h)
  rfl

end ApprovalReplayMemory

variable {epoch : String}

theorem nonceDigestKey_ok {nonceDigest : String} {key : ReplayKey}
    (h : nonceDigestKey epoch nonceDigest = .ok key) : key = ⟨epoch, nonceDigest⟩ := by
  unfold nonceDigestKey at h
  split at h
  · cases h
  · exact (Except.ok.inj h).symm

/-- **A registration** is refused, at most pruning, or adds one pending entry under a key that was free. -/
theorem registerPending_cases (m : ApprovalReplayMemory) (n : String) (b : ApprovalReplayBinding) (now : Nat) :
    (∃ e, (m.registerPending n b now).2 = .error e ∧
      ((m.registerPending n b now).1 = m ∨ (m.registerPending n b now).1 = m.prune now)) ∨
    (m.poisoned = false ∧ now < b.expiresAtMs ∧ (m.prune now).entries.size < replayMemoryMaxEntries ∧
      (m.prune now).entries.get? ⟨m.epoch, n⟩ = none ∧
      m.registerPending n b now =
        ({ m.prune now with entries := (m.prune now).entries.insert ⟨m.epoch, n⟩ ⟨b, .pending⟩ }, .value [])) := by
  unfold ApprovalReplayMemory.registerPending
  split
  · exact .inl ⟨_, rfl, .inl rfl⟩
  rename_i hexp
  split
  · exact .inl ⟨_, rfl, .inl rfl⟩
  split
  · exact .inl ⟨_, rfl, .inl rfl⟩
  rename_i key hkey
  obtain rfl := nonceDigestKey_ok hkey
  split
  · exact .inl ⟨_, rfl, .inl rfl⟩
  rename_i hp
  split
  · exact .inl ⟨_, rfl, .inr rfl⟩
  rename_i hfull
  split
  · exact .inl ⟨_, rfl, .inr rfl⟩
  rename_i hfree
  refine .inr ⟨by simpa using hp, by omega, by omega, ?_, rfl⟩
  simpa [KeyMap.contains] using hfree

/-- **A transition** is refused or rolled back, at most pruning, or moves the status of a live entry whose binding is
the one presented; a panic of the emission also poisons the memory. -/
theorem transitionAndEmit_cases (m : ApprovalReplayMemory) (epoch n : String) (b : ApprovalReplayBinding) (now : Nat)
    (t : ReplayTransition) (emit : Reply) :
    (∃ e, (m.transitionAndEmit epoch n b now t emit).2 = .error e ∧
      ((m.transitionAndEmit epoch n b now t emit).1 = m ∨
        (m.transitionAndEmit epoch n b now t emit).1 = m.prune now)) ∨
    (∃ entry status, m.poisoned = false ∧ (m.prune now).entries.get? ⟨epoch, n⟩ = some entry ∧ entry.binding = b ∧
      nextStatus t entry.status = .ok status ∧
      ((∃ bytes, emit = .value bytes ∧ m.transitionAndEmit epoch n b now t emit =
          ((m.prune now).setStatus ⟨epoch, n⟩ status, .value bytes)) ∨
        (emit = .panicked ∧ m.transitionAndEmit epoch n b now t emit =
          ({ (m.prune now).setStatus ⟨epoch, n⟩ status with poisoned := true }, .panicked)))) := by
  unfold ApprovalReplayMemory.transitionAndEmit
  split
  · exact .inl ⟨_, rfl, .inl rfl⟩
  rename_i key hkey
  obtain rfl := nonceDigestKey_ok hkey
  split
  · exact .inl ⟨_, rfl, .inl rfl⟩
  rename_i hp
  split
  · exact .inl ⟨_, rfl, .inr rfl⟩
  split
  · exact .inl ⟨_, rfl, .inr rfl⟩
  rename_i entry hentry
  split
  · exact .inl ⟨_, rfl, .inr rfl⟩
  rename_i hb
  split
  · exact .inl ⟨_, rfl, .inr rfl⟩
  rename_i status hstatus
  have hb : entry.binding = b := by simpa using hb
  have hp : m.poisoned = false := by simpa using hp
  cases emit with
  | value bytes => exact .inr ⟨entry, status, hp, hentry, hb, hstatus, .inl ⟨bytes, rfl, rfl⟩⟩
  | error e => exact .inl ⟨e, rfl, .inr (ApprovalReplayMemory.setStatus_setStatus status hentry)⟩
  | panicked => exact .inr ⟨entry, status, hp, hentry, hb, hstatus, .inr ⟨rfl, rfl⟩⟩

/-! ## The history of a nonce -/

def registers (n : String) : Call × Reply → Bool
  | (.registerPending n' _ _, .value _) => n' == n
  | _ => false

def moves (t : ReplayTransition) (n : String) : Call × Reply → Bool
  | (.claimAndEmit _ n' _ _ _, .value _) => t == .claim && n' == n
  | (.consumeAndEmit _ n' _ _ _, .value _) => t == .consume && n' == n
  | _ => false

def Call.transit (t : ReplayTransition) (epoch n : String) (b : ApprovalReplayBinding) (now : Nat) (emit : Reply) :
    Call :=
  match t with
  | .claim => .claimAndEmit epoch n b now emit
  | .consume => .consumeAndEmit epoch n b now emit

theorem step_transit (m : ApprovalReplayMemory) (t : ReplayTransition) (epoch n : String) (b : ApprovalReplayBinding)
    (now : Nat) (emit : Reply) :
    replayMachine.step m (.transit t epoch n b now emit) = m.transitionAndEmit epoch n b now t emit := by
  cases t <;> rfl

theorem Call.cases (c : Call) :
    (∃ n b now, c = .registerPending n b now) ∨ ∃ t epoch n b now emit, c = .transit t epoch n b now emit := by
  cases c with
  | registerPending n b now => exact .inl ⟨n, b, now, rfl⟩
  | claimAndEmit epoch n b now emit => exact .inr ⟨.claim, epoch, n, b, now, emit, rfl⟩
  | consumeAndEmit epoch n b now emit => exact .inr ⟨.consume, epoch, n, b, now, emit, rfl⟩

theorem moves_of_not_value {c : Call} {r : Reply} (hr : ∀ bytes, r ≠ .value bytes) (t : ReplayTransition) (n : String) :
    moves t n (c, r) = false := by
  cases r with
  | value bytes => exact absurd rfl (hr bytes)
  | error e => cases c <;> rfl
  | panicked => cases c <;> rfl

@[simp] theorem moves_transit (t t' : ReplayTransition) (epoch n n' : String) (b : ApprovalReplayBinding) (now : Nat)
    (emit : Reply) (bytes : List UInt8) :
    moves t n (.transit t' epoch n' b now emit, .value bytes) = (t == t' && n' == n) := by
  cases t' <;> rfl

/-- How often each transition of a nonce has succeeded, by the status of its live entry. -/
def ReplayStatus.done : ReplayStatus → ReplayTransition → Nat
  | .pending, _ => 0
  | .claimed, .claim => 1
  | .claimed, .consume => 0
  | .consumed, _ => 1

theorem done_nextStatus {t : ReplayTransition} {s s' : ReplayStatus} (h : nextStatus t s = .ok s')
    (t' : ReplayTransition) : s'.done t' = s.done t' + if t' = t then 1 else 0 := by
  cases t <;> cases s <;> cases h <;> cases t' <;> rfl

theorem done_le_one (s : ReplayStatus) (t : ReplayTransition) : s.done t ≤ 1 := by
  cases s <;> cases t <;> decide

/-- **What the memory knows of the history**: every live entry is a registration of this memory's epoch, and while no
emission has panicked its status counts the transitions of its nonce that succeeded. -/
structure Tracks (epoch : String) (h : List (Call × Reply)) (m : ApprovalReplayMemory) : Prop where
  epochKept : m.epoch = epoch
  entryEpoch : ∀ key entry, m.entries.get? key = some entry → key.epoch = epoch
  entryRegistered : ∀ key entry, m.entries.get? key = some entry →
    ∃ now bytes, (Call.registerPending key.nonceDigest entry.binding now, Reply.value bytes) ∈ h
  entryDone : m.poisoned = false → ∀ key entry, m.entries.get? key = some entry →
    ∀ t, h.countP (moves t key.nonceDigest) = entry.status.done t
  unregistered : ∀ n, h.countP (registers n) = 0 → ∀ t, h.countP (moves t n) = 0
  once : ∀ t n, h.countP (moves t n) ≤ 1

theorem Tracks.new (epoch : String) : Tracks epoch [] (.new epoch) where
  epochKept := rfl
  entryEpoch := by simp [ApprovalReplayMemory.new]
  entryRegistered := by simp [ApprovalReplayMemory.new]
  entryDone := by simp [ApprovalReplayMemory.new]
  unregistered := by simp
  once := by simp

variable {h : List (Call × Reply)}

/-- An event that is no success, after which every entry was an entry before. -/
theorem Tracks.idle {m' : ApprovalReplayMemory} (ht : Tracks epoch h m) {c : Call} {r : Reply}
    (hr : ∀ bytes, r ≠ .value bytes) (hepoch : m'.epoch = m.epoch)
    (hback : ∀ key entry', m'.entries.get? key = some entry' → ∃ entry, m.entries.get? key = some entry ∧
      entry'.binding = entry.binding ∧ (m'.poisoned = false → m.poisoned = false ∧ entry'.status = entry.status)) :
    Tracks epoch (h ++ [(c, r)]) m' where
  epochKept := hepoch.trans ht.epochKept
  entryEpoch key entry' h' := by
    obtain ⟨entry, hentry, -, -⟩ := hback key entry' h'
    exact ht.entryEpoch key entry hentry
  entryRegistered key entry' h' := by
    obtain ⟨entry, hentry, hb, -⟩ := hback key entry' h'
    obtain ⟨now, bytes, hmem⟩ := ht.entryRegistered key entry hentry
    exact ⟨now, bytes, by rw [hb]; exact List.mem_append_left _ hmem⟩
  entryDone hp key entry' h' t := by
    obtain ⟨entry, hentry, -, hs⟩ := hback key entry' h'
    obtain ⟨hp', hs⟩ := hs hp
    rw [List.countP_append, hs, ht.entryDone hp' key entry hentry t]
    simp [moves_of_not_value hr]
  unregistered n hn t := by
    rw [List.countP_append] at hn ⊢
    rw [ht.unregistered n (by omega) t]
    simp [moves_of_not_value hr]
  once t n := by
    rw [List.countP_append]
    have := ht.once t n
    simpa [moves_of_not_value hr] using this

/-- Pruning, on its own, forgets entries and nothing else. -/
theorem Tracks.idle_prune {m' : ApprovalReplayMemory} (ht : Tracks epoch h m) {c : Call}
    {e : String} {now : Nat} (hm : m' = m ∨ m' = m.prune now) :
    Tracks epoch (h ++ [(c, .error e)]) m' := by
  refine ht.idle (fun _ => by simp) ?_ (fun key entry' h' => ⟨entry', ?_, rfl, fun hp => ⟨?_, rfl⟩⟩)
  · rcases hm with rfl | rfl <;> rfl
  · rcases hm with rfl | rfl
    · exact h'
    · exact (ApprovalReplayMemory.get?_prune.1 h').1
  · rcases hm with rfl | rfl <;> exact hp

theorem Tracks.register (ht : Tracks epoch h m) (n : String) (b : ApprovalReplayBinding) (now : Nat)
    (hfirst : h.countP (registers n) = 0) :
    Tracks epoch (h ++ [(.registerPending n b now, .value [])])
      { m.prune now with entries := (m.prune now).entries.insert ⟨m.epoch, n⟩ ⟨b, .pending⟩ } := by
  -- an entry after the registration is the new one, or was there before it
  have hback : ∀ key entry, ((m.prune now).entries.insert ⟨m.epoch, n⟩ ⟨b, .pending⟩).get? key = some entry →
      (key = ⟨m.epoch, n⟩ ∧ entry = ⟨b, .pending⟩) ∨ m.entries.get? key = some entry := by
    intro key entry hk
    rw [KeyMap.get?_insert] at hk
    split at hk
    · rename_i hkey
      exact .inl ⟨hkey, (Option.some.inj hk).symm⟩
    · exact .inr (ApprovalReplayMemory.get?_prune.1 hk).1
  have hmoves : ∀ t n', (h ++ [(Call.registerPending n b now, Reply.value [])]).countP (moves t n') =
      h.countP (moves t n') := by
    intro t n'
    rw [List.countP_append]
    simp [moves]
  refine ⟨ht.epochKept, fun key entry hk => ?_, fun key entry hk => ?_, fun hp key entry hk t => ?_,
    fun n' hn' t => ?_, fun t n' => ?_⟩
  · rcases hback key entry hk with ⟨rfl, rfl⟩ | hk
    · exact ht.epochKept
    · exact ht.entryEpoch key entry hk
  · rcases hback key entry hk with ⟨rfl, rfl⟩ | hk
    · exact ⟨now, [], by simp⟩
    · obtain ⟨now', bytes, hmem⟩ := ht.entryRegistered key entry hk
      exact ⟨now', bytes, List.mem_append_left _ hmem⟩
  · rw [hmoves]
    rcases hback key entry hk with ⟨rfl, rfl⟩ | hk
    · exact ht.unregistered n hfirst t
    · exact ht.entryDone hp key entry hk t
  · rw [hmoves]
    rw [List.countP_append] at hn'
    exact ht.unregistered n' (by omega) t
  · rw [hmoves]
    exact ht.once t n'

theorem Tracks.transit (ht : Tracks epoch h m) (t : ReplayTransition) (epoch' n : String)
    (b : ApprovalReplayBinding) (now : Nat) (emit : Reply) (bytes : List UInt8)
    {status : ReplayStatus} (hp : m.poisoned = false) (hentry : (m.prune now).entries.get? ⟨epoch', n⟩ = some entry)
    (hstatus : nextStatus t entry.status = .ok status) :
    Tracks epoch (h ++ [(.transit t epoch' n b now emit, .value bytes)])
      ((m.prune now).setStatus ⟨epoch', n⟩ status) := by
  have hlive := (ApprovalReplayMemory.get?_prune.1 hentry).1
  have hn := ht.entryEpoch _ _ hlive
  have hmoves : ∀ t' n', (h ++ [(Call.transit t epoch' n b now emit, Reply.value bytes)]).countP (moves t' n') =
      h.countP (moves t' n') + if t' = t ∧ n = n' then 1 else 0 := by
    intro t' n'
    rw [List.countP_append, List.countP_singleton, moves_transit]
    by_cases h1 : t' = t <;> by_cases h2 : n = n' <;> simp [h1, h2]
  -- an entry after the transition has the binding it had before, and its status moved when it is the target
  have hback : ∀ key entry', ((m.prune now).setStatus ⟨epoch', n⟩ status).entries.get? key = some entry' →
      (key = ⟨epoch', n⟩ ∧ entry' = { entry with status := status }) ∨
        (key ≠ ⟨epoch', n⟩ ∧ m.entries.get? key = some entry') := by
    intro key entry' hk
    rw [ApprovalReplayMemory.get?_setStatus] at hk
    split at hk
    · rename_i hkey
      rw [hkey, hentry] at hk
      exact .inl ⟨hkey, (Option.some.inj hk).symm⟩
    · rename_i hkey
      exact .inr ⟨hkey, (ApprovalReplayMemory.get?_prune.1 hk).1⟩
  refine ⟨ht.epochKept, fun key entry' hk => ?_, fun key entry' hk => ?_, fun _ key entry' hk t' => ?_,
    fun n' hn' t' => ?_, fun t' n' => ?_⟩
  · rcases hback key entry' hk with ⟨rfl, rfl⟩ | ⟨-, hk⟩
    · exact hn
    · exact ht.entryEpoch key entry' hk
  · rcases hback key entry' hk with ⟨rfl, rfl⟩ | ⟨-, hk⟩
    · obtain ⟨now', bytes', hmem⟩ := ht.entryRegistered _ _ hlive
      exact ⟨now', bytes', List.mem_append_left _ hmem⟩
    · obtain ⟨now', bytes', hmem⟩ := ht.entryRegistered key entry' hk
      exact ⟨now', bytes', List.mem_append_left _ hmem⟩
  · rw [hmoves]
    rcases hback key entry' hk with ⟨rfl, rfl⟩ | ⟨hkey, hk⟩
    · rw [ht.entryDone hp _ _ hlive t', done_nextStatus hstatus t']
      simp
    · -- both keys carry this memory's epoch, so the other entry is of another nonce
      have hne : n ≠ key.nonceDigest := fun e => hkey (by
        have := ht.entryEpoch key entry' hk
        cases key
        simp_all)
      rw [ht.entryDone hp key entry' hk t']
      simp [hne]
  · rw [hmoves]
    rw [List.countP_append] at hn'
    have hzero : h.countP (registers n') = 0 := by omega
    have hne : n ≠ n' := fun e => by
      obtain ⟨now', bytes', hmem⟩ := ht.entryRegistered _ _ hlive
      refine absurd hzero (Nat.ne_of_gt (List.countP_pos_iff.2 ⟨_, hmem, ?_⟩))
      simpa [registers] using e
    simp [ht.unregistered n' hzero t', hne]
  · rw [hmoves]
    by_cases hc : t' = t ∧ n = n'
    · obtain ⟨rfl, rfl⟩ := hc
      have hd := ht.entryDone hp _ _ hlive t'
      have hs := done_nextStatus hstatus t'
      have hle := done_le_one status t'
      simp only [ite_true] at hs
      simp only at hd
      simp only [and_self, ite_true]
      omega
    · rw [if_neg hc]
      exact ht.once t' n'

/-! ## Runs -/

/-- No nonce digest is registered successfully more than once. -/
def RegisteredOnce (h : List (Call × Reply)) : Prop := ∀ n, h.countP (registers n) ≤ 1

theorem RegisteredOnce.of_append {h' : List (Call × Reply)} (ho : RegisteredOnce (h ++ h')) :
    RegisteredOnce h := by
  intro n
  have := ho n
  rw [List.countP_append] at this
  omega

/-- **One call keeps the invariant**, as long as it registers no nonce a second time. -/
theorem Tracks.step (ht : Tracks epoch h m) (c : Call) (ho : RegisteredOnce (h ++ [(c, (replayMachine.step m c).2)])) :
    Tracks epoch (h ++ [(c, (replayMachine.step m c).2)]) (replayMachine.step m c).1 := by
  obtain ⟨n, b, now, rfl⟩ | ⟨t, epoch', n, b, now, emit, rfl⟩ := c.cases
  · change RegisteredOnce (h ++ [(_, (m.registerPending n b now).2)]) at ho
    change Tracks epoch (h ++ [(_, (m.registerPending n b now).2)]) (m.registerPending n b now).1
    obtain ⟨e, hr, hm⟩ | ⟨hp, hexp, hsize, hfree, heq⟩ := registerPending_cases m n b now
    · rw [hr]
      exact ht.idle_prune hm
    · rw [heq] at ho ⊢
      have hfirst := ho n
      rw [List.countP_append, List.countP_singleton] at hfirst
      simp only [registers, beq_self_eq_true, if_true] at hfirst
      exact ht.register n b now (by omega)
  · rw [step_transit] at ho ⊢
    obtain ⟨e, hr, hm⟩ | ⟨entry, status, hp, hentry, hb, hstatus, ⟨bytes, hemit, heq⟩ | ⟨hemit, heq⟩⟩ :=
      transitionAndEmit_cases m epoch' n b now t emit
    · rw [hr]
      exact ht.idle_prune hm
    · rw [heq]
      exact ht.transit t epoch' n b now emit bytes hp hentry hstatus
    · rw [heq]
      refine ht.idle (fun _ => by simp) rfl (fun key entry' hk => ?_)
      change ((m.prune now).setStatus ⟨epoch', n⟩ status).entries.get? key = some entry' at hk
      rw [ApprovalReplayMemory.get?_setStatus] at hk
      split at hk
      · obtain ⟨entry₀, hentry₀, rfl⟩ := Option.map_eq_some_iff.1 hk
        exact ⟨entry₀, (ApprovalReplayMemory.get?_prune.1 hentry₀).1, rfl, fun hp' => by cases hp'⟩
      · exact ⟨entry', (ApprovalReplayMemory.get?_prune.1 hk).1, rfl, fun hp' => by cases hp'⟩

theorem tracks_run (epoch : String) (calls : List Call) (ho : RegisteredOnce (replayMachine.trace (.new epoch) calls)) :
    Tracks epoch (replayMachine.trace (.new epoch) calls) (replayMachine.final (.new epoch) calls) := by
  have := replayMachine.run_invariant (fun h m => RegisteredOnce h → Tracks epoch h m)
    (fun h m c ih ho => (ih ho.of_append).step c ho) calls [] (.new epoch) (fun _ => Tracks.new epoch)
  simpa using this (by simpa using ho)

/-- A transition that succeeds presents the binding its nonce was registered with, under this memory's epoch and before
its expiry, and takes the one step its status allows. -/
theorem Tracks.success (ht : Tracks epoch h m) {t : ReplayTransition} {epoch' n : String}
    {b : ApprovalReplayBinding} {now : Nat} {emit : Reply} {bytes : List UInt8}
    (hs : (replayMachine.step m (.transit t epoch' n b now emit)).2 = .value bytes) :
    epoch' = epoch ∧ now < b.expiresAtMs ∧
      (∃ now₀ bytes₀, (Call.registerPending n b now₀, Reply.value bytes₀) ∈ h) ∧
      (t = .consume → h.countP (moves .claim n) = 1) := by
  rw [step_transit] at hs
  obtain ⟨e, hr, -⟩ | ⟨entry, status, hp, hentry, rfl, hstatus, -⟩ := transitionAndEmit_cases m epoch' n b now t emit
  · rw [hr] at hs; cases hs
  obtain ⟨hlive, hexp⟩ := ApprovalReplayMemory.get?_prune.1 hentry
  refine ⟨ht.entryEpoch _ _ hlive, hexp, ht.entryRegistered _ _ hlive, fun htc => ?_⟩
  subst htc
  rw [ht.entryDone hp _ _ hlive .claim]
  cases hst : entry.status with
  | pending => rw [hst] at hstatus; cases hstatus
  | claimed => rfl
  | consumed => rfl

/-- **A call whose emission fails leaves every unexpired entry as it was.** -/
theorem get?_of_emit_error (m : ApprovalReplayMemory) (t : ReplayTransition) (epoch n : String)
    (b : ApprovalReplayBinding) (now : Nat) (e : String) {key : ReplayKey}
    (hk : m.entries.get? key = some entry) (hexp : now < entry.binding.expiresAtMs) :
    (replayMachine.step m (.transit t epoch n b now (.error e))).1.entries.get? key = some entry := by
  rw [step_transit]
  obtain ⟨_, -, hm | hm⟩ | ⟨_, _, -, -, -, -, ⟨_, hemit, -⟩ | ⟨hemit, -⟩⟩ :=
    transitionAndEmit_cases m epoch n b now t (.error e)
  · rw [hm]; exact hk
  · rw [hm]; exact ApprovalReplayMemory.get?_prune.2 ⟨hk, hexp⟩
  · cases hemit
  · cases hemit

theorem size_prune_le (m : ApprovalReplayMemory) (now : Nat) : (m.prune now).entries.size ≤ m.entries.size :=
  KeyMap.size_retain_le _ _

theorem size_step (m : ApprovalReplayMemory) (c : Call) (h : m.entries.size ≤ replayMemoryMaxEntries) :
    (replayMachine.step m c).1.entries.size ≤ replayMemoryMaxEntries := by
  have hprune : ∀ now, (m.prune now).entries.size ≤ replayMemoryMaxEntries := fun now =>
    Nat.le_trans (size_prune_le m now) h
  have hidle : ∀ m' now, (m' = m ∨ m' = m.prune now) → m'.entries.size ≤ replayMemoryMaxEntries := by
    rintro m' now (rfl | rfl)
    · exact h
    · exact hprune now
  obtain ⟨n, b, now, rfl⟩ | ⟨t, epoch, n, b, now, emit, rfl⟩ := c.cases
  · change (m.registerPending n b now).1.entries.size ≤ _
    obtain ⟨_, -, hm⟩ | ⟨-, -, hsize, hfree, heq⟩ := registerPending_cases m n b now
    · exact hidle _ now hm
    · rw [heq]
      change ((m.prune now).entries.insert ⟨m.epoch, n⟩ ⟨b, .pending⟩).size ≤ _
      rw [KeyMap.size_insert_of_none _ hfree]
      omega
  · rw [step_transit]
    have hmove : ∀ key status, ((m.prune now).setStatus key status).entries.size ≤ replayMemoryMaxEntries := by
      intro key status
      unfold ApprovalReplayMemory.setStatus
      rw [KeyMap.size_modify]
      exact hprune now
    obtain ⟨_, -, hm⟩ | ⟨_, _, -, -, -, -, ⟨_, -, heq⟩ | ⟨-, heq⟩⟩ := transitionAndEmit_cases m epoch n b now t emit
    · exact hidle _ now hm
    · rw [heq]; exact hmove _ _
    · rw [heq]; exact hmove _ _

theorem size_run (epoch : String) (calls : List Call) :
    (replayMachine.final (.new epoch) calls).entries.size ≤ replayMemoryMaxEntries :=
  replayMachine.final_invariant (fun m => m.entries.size ≤ replayMemoryMaxEntries) size_step calls _ (Nat.zero_le _)

/-- **Approvals are one-use**, over every sequence of calls on one resident's memory, with any clock and any emission
outcomes.  Where no nonce is registered twice, each nonce is claimed at most once and consumed at most once, a consume
comes after a claim, and both present the registered binding under the memory's epoch before it expires.  In every
reachable state a call whose emission fails changes no unexpired entry, and the entries stay within the limit. -/
theorem approvals_are_one_use (epoch : String) (calls : List Call) :
    (RegisteredOnce (replayMachine.trace (.new epoch) calls) →
      (∀ t n, (replayMachine.trace (.new epoch) calls).countP (moves t n) ≤ 1) ∧
      (∀ pre post epoch' n b now emit bytes, replayMachine.trace (.new epoch) calls =
          pre ++ (.consumeAndEmit epoch' n b now emit, .value bytes) :: post → ∃ e ∈ pre, moves .claim n e = true) ∧
      (∀ pre post t epoch' n b now emit bytes, replayMachine.trace (.new epoch) calls =
          pre ++ (.transit t epoch' n b now emit, .value bytes) :: post →
        epoch' = epoch ∧ now < b.expiresAtMs ∧
          ∃ now₀ bytes₀, (Call.registerPending n b now₀, Reply.value bytes₀) ∈ pre)) ∧
    (∀ t epoch' n b now message key entry,
      (replayMachine.final (.new epoch) calls).entries.get? key = some entry → now < entry.binding.expiresAtMs →
        (replayMachine.step (replayMachine.final (.new epoch) calls)
          (.transit t epoch' n b now (.error message))).1.entries.get? key = some entry) ∧
    (replayMachine.final (.new epoch) calls).entries.size ≤ replayMemoryMaxEntries := by
  -- at a successful transition, the prefix before it is a run of its own that the invariant describes
  have hat : RegisteredOnce (replayMachine.trace (.new epoch) calls) → ∀ pre post t epoch' n b now emit bytes,
      replayMachine.trace (.new epoch) calls = pre ++ (.transit t epoch' n b now emit, .value bytes) :: post →
      epoch' = epoch ∧ now < b.expiresAtMs ∧
        (∃ now₀ bytes₀, (Call.registerPending n b now₀, Reply.value bytes₀) ∈ pre) ∧
        (t = .consume → pre.countP (moves .claim n) = 1) := by
    intro ho pre post t epoch' n b now emit bytes htr
    obtain ⟨calls₁, calls₂, -, rfl, hs, -⟩ := replayMachine.trace_split calls (.new epoch) pre _ post htr
    rw [htr] at ho
    exact (tracks_run epoch calls₁ ho.of_append).success hs
  refine ⟨fun ho => ⟨(tracks_run epoch calls ho).once, ?_, ?_⟩, ?_, size_run epoch calls⟩
  · intro pre post epoch' n b now emit bytes htr
    obtain ⟨-, -, -, hclaim⟩ := hat ho pre post .consume epoch' n b now emit bytes htr
    exact List.countP_pos_iff.1 (by rw [hclaim rfl]; exact Nat.one_pos)
  · intro pre post t epoch' n b now emit bytes htr
    obtain ⟨hepoch, hexp, hreg, -⟩ := hat ho pre post t epoch' n b now emit bytes htr
    exact ⟨hepoch, hexp, hreg⟩
  · intro t epoch' n b now message key entry hk hexp
    exact get?_of_emit_error _ t epoch' n b now message hk hexp

/-! A resident that registers, claims and consumes one approval. -/

def sampleDigest : String := "00000000000000000000000000000000000000000000000000000000000000aa"

def sampleBinding : ApprovalReplayBinding where
  requestIdDigest := sampleDigest
  requestDigest := sampleDigest
  actionDigest := sampleDigest
  policyGeneration := 1
  policyDigest := sampleDigest
  ruleDigest := sampleDigest
  runtimeIdentity := sampleDigest
  runtimeBinaryIdentity := sampleDigest
  harness := "test"
  workspaceBinding := some sampleDigest
  deviceBinding := none
  installationBinding := none
  publisherBinding := none
  artifactBinding := none
  scopeContractVersion := "guard-native-scope.v1"
  scopeContractDigest := sampleDigest
  scopeBinding := none
  expiresAtMs := 100

def sampleCalls : List Call :=
  [.registerPending sampleDigest sampleBinding 10,
    .claimAndEmit sampleDigest sampleDigest sampleBinding 12 (.error "transport"),
    .claimAndEmit sampleDigest sampleDigest sampleBinding 11 (.value [1]),
    .consumeAndEmit sampleDigest sampleDigest sampleBinding 13 (.value [2])]

theorem trace_sampleCalls : replayMachine.trace (.new sampleDigest) sampleCalls =
    sampleCalls.zip [.value [], .error "transport", .value [1], .value [2]] := by decide

theorem approvals_are_one_use_sample :
    RegisteredOnce (replayMachine.trace (.new sampleDigest) sampleCalls) ∧
      (replayMachine.trace (.new sampleDigest) sampleCalls).countP (moves .consume sampleDigest) = 1 ∧
      ∀ t n, (replayMachine.trace (.new sampleDigest) sampleCalls).countP (moves t n) ≤ 1 := by
  have ho : RegisteredOnce (replayMachine.trace (.new sampleDigest) sampleCalls) := by
    intro n
    rw [trace_sampleCalls]
    by_cases hn : sampleDigest = n <;> simp [sampleCalls, registers, hn]
  exact ⟨ho, by rw [trace_sampleCalls]; decide, ((approvals_are_one_use sampleDigest sampleCalls).1 ho).1⟩

end Approval
end Guard
