import HolGuard.Lib.IntentLog
import HolGuard.Publisher.Transaction
/-!
# Generations of the publisher

The three files are an intent log over snapshots ranked by their generation: pending is the announced value, the cache
the installed one, the generation state the mark.  Every write of a call, recovery included, is a move such a log
allows, so stopping a call after any write changes nothing about what later calls may do: the stored generation never
decreases, and one generation has one snapshot.
-/
namespace Guard
namespace Publisher

open Lib (Json Bytes Hash isHexDigest Machine IntentLog)
open Policy (PolicySnapshotV3 PolicyAuthorityRecordV3)

/-! ## The files as an intent log -/

def Write.move : Write → IntentLog.Move PolicySnapshotV3
  | .pending s => .announce s
  | .cache s => .install s
  | .generation g => .commit g.generation
  | .clearPending => .withdraw

structure Represents (files : Files) (log : IntentLog PolicySnapshotV3) : Prop where
  pending : files.pending = log.intent.map snapshotText
  cache : files.cache = log.installed.map snapshotText
  mark : files.storedGeneration = log.mark

abbrev rank : PolicySnapshotV3 → Nat := PolicySnapshotV3.generation

theorem represents_empty : Represents .empty .empty := ⟨rfl, rfl, rfl⟩

variable {files : Files} {log : IntentLog PolicySnapshotV3}

theorem represents_apply (h : Represents files log) (w : Write) :
    Represents (files.apply w) (log.next w.move) := by
  cases w with
  | pending s => exact ⟨rfl, h.cache, h.mark⟩
  | cache s => exact ⟨h.pending, rfl, h.mark⟩
  | generation g => exact ⟨h.pending, h.cache, rfl⟩
  | clearPending => exact ⟨rfl, h.cache, h.mark⟩

theorem represents_perform : ∀ (writes : List Write) {files : Files} {log : IntentLog PolicySnapshotV3},
    Represents files log → Represents (files.perform writes) (log.after (writes.map Write.move))
  | [], _, _, h => h
  | w :: writes, _, _, h => represents_perform writes (represents_apply h w)

/-! ## Reading back what was written -/

variable {writes : List Write} {s : PolicySnapshotV3}

section

variable {Config : Type} {sha : Hash} {read : String → Option Json} {ctx : PublisherContext Config}

/-- No authority record has the text of a snapshot. -/
theorem authority_text_ne (record : PolicyAuthorityRecordV3) (s : PolicySnapshotV3) :
    (PolicyAuthorityRecordV3.codec.encode record).text ≠ snapshotText s := by
  intro h
  -- a snapshot has no member `floor_mac`
  have hmembers : record.members = s.members := Lib.JsonTree.obj.inj (Json.text_injective h)
  have hlookup := congrArg (List.lookup "floor_mac") hmembers
  simp [PolicySnapshotV3.members, PolicySnapshotV3.membersBefore, PolicySnapshotV3.membersAfter,
    PolicyAuthorityRecordV3.members, List.lookup_append, Json.lookup_member, Json.lookup_someMember] at hlookup

variable {key : Bytes}

/-- **A snapshot file that can be read gives the snapshot that was written.** -/
theorem readSnapshotFile_written {file : Option PolicySnapshotV3} {r : Option (PolicySnapshotV3 × String)}
    (h : readSnapshotFile sha read ctx (file.map snapshotText) key = .ok r) :
    r = file.map (fun s => (s, snapshotText s)) := by
  cases file with
  | none => exact (Except.ok.inj h).symm
  | some s =>
    simp only [Option.map_some, readSnapshotFile, Lib.ite_error_eq_ok] at h ⊢
    obtain ⟨-, h⟩ := h
    split at h
    · cases h
    rename_i value _
    split at h
    · -- an authority record would have to have the snapshot's text
      obtain ⟨t, ht, -⟩ := Lib.bind_eq_ok.1 h
      simp only [authoritySnapshot] at ht
      split at ht
      · cases ht
      rename_i record _
      split at ht
      · cases ht
      rw [Lib.ite_error_eq_ok] at ht
      exact absurd (not_not.1 (fun hne => ht.1 (.inl hne))) (authority_text_ne record s)
    · split at h
      · cases h
      rename_i t _
      obtain ⟨canonical, hc, h⟩ := Lib.bind_eq_ok.1 h
      rw [Lib.ite_error_eq_ok, Lib.ite_error_eq_ok, not_not] at h
      obtain ⟨rfl, -, h⟩ := h
      rw [← Except.ok.inj h, snapshotText_injective (snapshotBytes_ok hc)]

theorem readGenerationState_ok {file r : Option GenerationState} (h : readGenerationState file = .ok r) : r = file := by
  cases file with
  | none => exact (Except.ok.inj h).symm
  | some state =>
    rw [readGenerationState, Lib.ite_error_eq_ok] at h
    exact (Except.ok.inj h.2).symm

/-! ## Recovery -/

/-- Recovery installs nothing but the pending snapshot. -/
theorem recoverCache_ok {pending : PolicySnapshotV3} {bytes : String} {cached : Option (PolicySnapshotV3 × String)}
    (h : recoverCache sha ctx pending bytes cached = .ok writes) :
    writes = [] ∨ writes = [.cache pending] := by
  cases cached with
  | none =>
    obtain ⟨_, -, h⟩ := Lib.bind_eq_ok.1 h
    exact .inr (Except.ok.inj h).symm
  | some c =>
    simp only [recoverCache] at h
    split at h
    · exact .inl (Except.ok.inj h).symm
    · rw [Lib.ite_error_eq_ok] at h
      obtain ⟨_, -, h⟩ := Lib.bind_eq_ok.1 h.2
      exact .inr (Except.ok.inj h).symm

/-- Completing an announced snapshot is legal, with or without writing the cache again. -/
theorem complete_legal {cacheWrites stateWrites : List Write} (hintent : log.intent = some s)
    (hcache : cacheWrites = [] ∨ cacheWrites = [.cache s])
    (hstate : (stateWrites = [] ∧ log.mark = rank s) ∨ ∃ d, stateWrites = [.generation ⟨s.generation, d⟩]) :
    IntentLog.Legal rank log ((cacheWrites ++ stateWrites ++ [Write.clearPending]).map Write.move) ∧
      (log.after ((cacheWrites ++ stateWrites ++ [Write.clearPending]).map Write.move)).intent = none := by
  have hclear : ∀ l : IntentLog PolicySnapshotV3, l.intent = some s →
      (stateWrites = [] ∧ l.mark = rank s) ∨ (∃ d, stateWrites = [.generation ⟨s.generation, d⟩]) →
      IntentLog.Legal rank l ((stateWrites ++ [Write.clearPending]).map Write.move) ∧
        (l.after ((stateWrites ++ [Write.clearPending]).map Write.move)).intent = none := by
    rintro l hl (⟨rfl, hmark⟩ | ⟨d, rfl⟩)
    · exact ⟨⟨.withdraw s hl hmark, trivial⟩, rfl⟩
    · exact ⟨⟨.commit s hl, .withdraw s hl rfl, trivial⟩, rfl⟩
  rcases hcache with rfl | rfl
  · exact hclear log hintent hstate
  · obtain ⟨hlegal, hnone⟩ := hclear (log.next (.install s)) hintent hstate
    exact ⟨⟨.install s hintent, hlegal⟩, hnone⟩

/-- **Recovery is legal and leaves nothing pending.** -/
theorem recoverTransaction_legal {seen : List PolicySnapshotV3} (hrep : Represents files log)
    (hsound : IntentLog.Sound rank seen log) (h : recoverTransaction sha read ctx files key = .ok writes) :
    IntentLog.Legal rank log (writes.map Write.move) ∧ (log.after (writes.map Write.move)).intent = none := by
  obtain ⟨pending, hpending, h⟩ := Lib.bind_eq_ok.1 h
  rw [hrep.pending] at hpending
  rw [readSnapshotFile_written hpending] at h
  cases hintent : log.intent with
  | none =>
    rw [hintent] at h
    rw [← Except.ok.inj h]
    exact ⟨trivial, hintent⟩
  | some s =>
    rw [hintent] at h
    simp only [Option.map_some, Lib.ite_error_eq_ok] at h
    obtain ⟨-, h⟩ := h
    obtain ⟨current, hcurrent, h⟩ := Lib.bind_eq_ok.1 h
    have hstored : current.elim 0 GenerationState.generation = log.mark := by
      rw [readGenerationState_ok hcurrent, ← hrep.mark, Files.storedGeneration]
    have hle : log.mark ≤ rank s := (hsound.announced s hintent).1
    split at h
    · -- no generation above the pending one is ever committed
      rename_i hnewer
      cases current with
      | none => cases hnewer
      | some c =>
        have hlt : s.generation < c.generation := of_decide_eq_true hnewer
        exact absurd (Nat.lt_of_lt_of_le hlt (Nat.le_trans (Nat.le_of_eq hstored) hle)) (Nat.lt_irrefl _)
    · rw [Lib.ite_error_eq_ok] at h
      obtain ⟨-, h⟩ := h
      obtain ⟨cached, -, h⟩ := Lib.bind_eq_ok.1 h
      obtain ⟨cacheWrites, hcache, h⟩ := Lib.bind_eq_ok.1 h
      rw [← Except.ok.inj h]
      refine complete_legal hintent (recoverCache_ok hcache) ?_
      split
      · exact .inr ⟨_, rfl⟩
      · rename_i hall
        refine .inl ⟨rfl, ?_⟩
        cases current with
        | none => exact absurd rfl hall
        | some c =>
          have hge : ¬ c.generation < s.generation := fun hlt => hall (decide_eq_true hlt)
          exact Nat.le_antisymm hle (hstored ▸ Nat.not_lt.1 hge)

/-! ## Allocation -/

theorem nextSnapshotGeneration_gt {current : Option GenerationState} {digest : String} {renewAfter : Option Nat}
    {rustState : Bool} {generation : Nat}
    (h : nextSnapshotGeneration current digest renewAfter rustState = .ok generation) :
    current.elim 0 GenerationState.generation < generation := by
  have hfor : ∀ force, (current.any (fun c => c.policyDigest == digest && !force &&
      renewAfter.all (fun m => decide (m ≤ c.generation)))) = false →
      generationForPolicy current digest force renewAfter rustState = .ok generation →
      current.elim 0 GenerationState.generation < generation := by
    intro force hreuse hgen
    simp only [generationForPolicy, hreuse, Bool.false_eq_true, if_false, Lib.ite_error_eq_ok] at hgen
    obtain ⟨-, -, -, hgen⟩ := hgen
    cases current with
    | none =>
      simp only [Lib.ite_error_eq_ok] at hgen
      rw [← Except.ok.inj hgen.2]
      exact Nat.lt_of_lt_of_le Nat.zero_lt_one (Nat.le_max_left _ _)
    | some c =>
      rw [← Except.ok.inj hgen]
      exact Nat.lt_of_lt_of_le (Nat.lt_succ_self _) (Nat.le_max_left _ _)
  rw [nextSnapshotGeneration] at h
  split at h
  · rw [Lib.ite_error_eq_ok] at h
    exact hfor true (by cases current <;> simp) h.2
  · rename_i hdigest
    exact hfor false (by cases current <;> simp_all) h

/-- **A new snapshot is published legally**, above the mark and with nothing pending. -/
theorem materializeSnapshot_legal {call : Call Config} {inputs : SnapshotInputs} {generation : Nat}
    (hnone : log.intent = none) (hlt : log.mark < generation)
    (h : materializeSnapshot sha ctx call inputs key generation = .ok (writes, s)) :
    IntentLog.Legal rank log (writes.map Write.move) ∧ (log.after (writes.map Write.move)).installed = some s := by
  obtain ⟨built, hbuilt, h⟩ := Lib.bind_eq_ok.1 h
  obtain ⟨_, -, h⟩ := Lib.bind_eq_ok.1 h
  obtain ⟨rfl, rfl⟩ := Prod.mk.inj (Except.ok.inj h)
  obtain rfl := buildPolicySnapshot_generation hbuilt
  exact ⟨⟨.announce built hnone hlt, .install built rfl, .commit built rfl, .withdraw built rfl rfl, trivial⟩, rfl⟩

theorem cachedSnapshot_installed {current : Option GenerationState} {call : Call Config}
    {inputs : SnapshotInputs} {renewAfter : Option Nat} (hrep : Represents files log)
    (h : cachedSnapshot sha read ctx files key current call inputs = .ok (some s, renewAfter)) :
    log.installed = some s := by
  obtain ⟨cached, hcached, h⟩ := Lib.bind_eq_ok.1 h
  rw [hrep.cache] at hcached
  rw [readSnapshotFile_written hcached] at h
  cases hinstalled : log.installed with
  | none => rw [hinstalled] at h; cases h
  | some t =>
    rw [hinstalled] at h
    simp only [Option.map_some] at h
    repeat' split at h
    all_goals cases h
    rfl

theorem answerCall_legal {call : Call Config} {inputs : SnapshotInputs}
    (hrep : Represents files log) (hnone : log.intent = none)
    (h : answerCall sha read ctx files key call inputs = .ok (writes, s)) :
    IntentLog.Legal rank log (writes.map Write.move) ∧ (log.after (writes.map Write.move)).installed = some s := by
  obtain ⟨current, hcurrent, h⟩ := Lib.bind_eq_ok.1 h
  obtain ⟨⟨cached, renewAfter⟩, hcached, h⟩ := Lib.bind_eq_ok.1 h
  cases cached with
  | some t =>
    obtain ⟨rfl, rfl⟩ := Prod.mk.inj (Except.ok.inj h)
    exact ⟨trivial, cachedSnapshot_installed hrep hcached⟩
  | none =>
    obtain ⟨generation, hgeneration, h⟩ := Lib.bind_eq_ok.1 h
    refine materializeSnapshot_legal hnone ?_ h
    have hlt := nextSnapshotGeneration_gt hgeneration
    rwa [readGenerationState_ok hcurrent, ← Files.storedGeneration, hrep.mark] at hlt

/-! ## Calls and histories -/

variable (sha read ctx) in
/-- **A call is legal, and what it returns is installed.** -/
theorem nativePolicySnapshot_legal {seen : List PolicySnapshotV3} (hrep : Represents files log)
    (hsound : IntentLog.Sound rank seen log) (call : Call Config) :
    IntentLog.Legal rank log ((nativePolicySnapshot sha read ctx files call).1.map Write.move) ∧
      ∀ s, (nativePolicySnapshot sha read ctx files call).2 = .ok s →
        (log.after ((nativePolicySnapshot sha read ctx files call).1.map Write.move)).installed = some s := by
  rw [nativePolicySnapshot]
  split
  · exact ⟨trivial, fun s hs => (nomatch hs)⟩
  · rename_i key inputs recovery hprepared
    simp only [Lib.bind_eq_ok, Except.ok.injEq, Prod.mk.injEq] at hprepared
    obtain ⟨-, -, _, -, _, -, recovery, hrecovery, rfl, rfl, rfl⟩ := hprepared
    obtain ⟨hlegal, hnone⟩ := recoverTransaction_legal hrep hsound hrecovery
    split
    · exact ⟨hlegal, fun s hs => (nomatch hs)⟩
    · rename_i writes s hanswer
      obtain ⟨hlegal', hinstalled⟩ := answerCall_legal (represents_perform recovery hrep) hnone hanswer
      simp only [List.map_append, IntentLog.legal_append, IntentLog.after_append]
      refine ⟨⟨hlegal, hlegal'⟩, fun t ht => ?_⟩
      cases ht
      exact hinstalled

variable (sha read ctx) in
/-- Stopping a call after some of its writes is legal too. -/
theorem attempt_legal {seen : List PolicySnapshotV3} (hrep : Represents files log)
    (hsound : IntentLog.Sound rank seen log) (a : Attempt Config) :
    IntentLog.Legal rank log ((attempt sha read ctx files a).performed.map Write.move) ∧
      ∀ s, (attempt sha read ctx files a).result = some (.ok s) →
        (log.after ((attempt sha read ctx files a).performed.map Write.move)).installed = some s := by
  obtain ⟨hlegal, hreturned⟩ := nativePolicySnapshot_legal sha read ctx hrep hsound a.call
  rw [attempt]
  cases a.stopAfter with
  | none => exact ⟨hlegal, fun s hs => hreturned s (Option.some.inj hs)⟩
  | some k =>
    refine ⟨?_, fun s hs => (nomatch hs)⟩
    rw [← List.take_append_drop k (nativePolicySnapshot sha read ctx files a.call).1, List.map_append,
      IntentLog.legal_append] at hlegal
    exact hlegal.1

end

section

variable {Config : Type}

def performed (history : List (Attempt Config × Outcome)) : List Write := history.flatMap (fun e => e.2.performed)

def published (history : List (Attempt Config × Outcome)) : List PolicySnapshotV3 :=
  history.flatMap (fun e => e.2.published)

/-- The files are what the writes so far made them, these writes are legal, and what was published was installed. -/
structure Follows (history : List (Attempt Config × Outcome)) (files : Files) : Prop where
  files_eq : files = Files.empty.perform (performed history)
  legal : IntentLog.Legal rank .empty ((performed history).map Write.move)
  published_mem : ∀ s ∈ published history, s ∈ IntentLog.installs ((performed history).map Write.move)

theorem perform_append (files : Files) (ws vs : List Write) :
    files.perform (ws ++ vs) = (files.perform ws).perform vs :=
  List.foldl_append

theorem sound_of_legal (h : IntentLog.Legal rank .empty (writes.map Write.move)) :
    IntentLog.Sound rank (IntentLog.installs (writes.map Write.move)) (IntentLog.empty.after (writes.map Write.move)) :=
  IntentLog.sound_after h IntentLog.sound_empty

theorem mem_installs_of_cache (h : Write.cache s ∈ writes) :
    s ∈ IntentLog.installs (writes.map Write.move) :=
  List.mem_filterMap.2 ⟨.install s, List.mem_map.2 ⟨.cache s, h, rfl⟩, rfl⟩

/-- **One attempt keeps a history following its log.** -/
theorem follows_step (sha : Hash) (read : String → Option Json) (ctx : PublisherContext Config)
    {history : List (Attempt Config × Outcome)} (h : Follows history files) (a : Attempt Config) :
    Follows (history ++ [(a, attempt sha read ctx files a)])
      (files.perform (attempt sha read ctx files a).performed) := by
  have hsound := sound_of_legal h.legal
  have hrep := h.files_eq ▸ represents_perform (performed history) represents_empty
  obtain ⟨hlegal, hreturned⟩ := attempt_legal sha read ctx hrep hsound a
  have hperformed : performed (history ++ [(a, attempt sha read ctx files a)]) =
      performed history ++ (attempt sha read ctx files a).performed := by simp [performed]
  have hall : IntentLog.Legal rank .empty
      ((performed history ++ (attempt sha read ctx files a).performed).map Write.move) := by
    rw [List.map_append, IntentLog.legal_append]
    exact ⟨h.legal, hlegal⟩
  refine ⟨?_, hperformed ▸ hall, fun s hs => ?_⟩
  · rw [hperformed, perform_append, ← h.files_eq]
  · rw [hperformed]
    rw [published, List.flatMap_append, List.mem_append] at hs
    rcases hs with hs | hs
    · rw [List.map_append, IntentLog.installs_append]
      exact List.mem_append_left _ (h.published_mem s hs)
    · simp only [List.flatMap_cons, List.flatMap_nil, List.append_nil, Outcome.published, List.mem_append] at hs
      rcases hs with hs | hs
      · obtain ⟨w, hw, hws⟩ := List.mem_filterMap.1 hs
        cases w with
        | cache t =>
          cases hws
          exact mem_installs_of_cache (List.mem_append_right _ hw)
        | _ => cases hws
      · -- a returned snapshot is the installed one at the end of the call
        split at hs
        · rename_i t ht
          rw [List.mem_singleton.1 hs]
          refine (sound_of_legal hall).installed_mem t ?_
          rw [List.map_append, IntentLog.after_append]
          exact hreturned t ht
        · cases hs

/-- **The publisher never reuses a generation.**  Along every history of calls, each stopped after any of its writes or
run to its end, the generation on disk never decreases from one write to a later one, and two snapshots cached or
returned under one generation have the same bytes. -/
theorem publisher_generation_has_one_snapshot (sha : Hash) (read : String → Option Json) (ctx : PublisherContext Config)
    (attempts : List (Attempt Config)) :
    let history := (publisherMachine sha read ctx).trace .empty attempts
    (publisherMachine sha read ctx).final .empty attempts = Files.empty.perform (performed history) ∧
    (∀ before between after, performed history = before ++ between ++ after →
      (Files.empty.perform before).storedGeneration ≤ (Files.empty.perform (before ++ between)).storedGeneration) ∧
    (∀ s ∈ published history, ∀ t ∈ published history, s.generation = t.generation →
      snapshotText s = snapshotText t) := by
  intro history
  have hrun : Follows ([] ++ history) ((publisherMachine sha read ctx).final .empty attempts) :=
    (publisherMachine sha read ctx).run_invariant Follows (fun _ _ a h => follows_step sha read ctx h a) attempts
    [] .empty
      ⟨rfl, trivial, fun _ h => (nomatch h)⟩
  rw [List.nil_append] at hrun
  refine ⟨hrun.files_eq, fun before between after hsplit => ?_, fun s hs t ht hst => ?_⟩
  · have hlegal := hrun.legal
    rw [hsplit, List.map_append, List.map_append, IntentLog.legal_append, IntentLog.legal_append] at hlegal
    obtain ⟨⟨hbefore, hbetween⟩, -⟩ := hlegal
    have hmark := IntentLog.mark_le_after hbetween (sound_of_legal hbefore)
    rw [(represents_perform before represents_empty).mark,
      (represents_perform (before ++ between) represents_empty).mark, List.map_append, IntentLog.after_append]
    exact hmark
  · rw [(sound_of_legal hrun.legal).unique s (hrun.published_mem s hs) t (hrun.published_mem t ht) hst]

end

end Publisher
end Guard
