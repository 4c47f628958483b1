import HolGuard.Policy.Store
/-!
# The store never goes back

A position is a generation with its digest and, where they are known, its canonical bytes.  Memory, the record on disk
and every acknowledgement have one, and `Ordered` says how they stand to each other at any point of a run: the
acknowledgements precede both memory and disk, and memory precedes disk, which is ahead of it only after a fault at the
directory sync.
-/
namespace Guard
namespace Policy

open Lib (Json Hash)

structure Position where
  generation : Nat
  digest : Option String
  bytes : Option String

namespace Position

def Agrees (p q : Position) : Prop :=
  p.generation = q.generation → p.digest = q.digest ∧ ∀ b c, p.bytes = some b → q.bytes = some c → b = c

def Precedes (p q : Position) : Prop := p.generation ≤ q.generation ∧ p.Agrees q

/-- The same position, with the bytes possibly unknown. -/
def Restricts (p q : Position) : Prop :=
  p.generation = q.generation ∧ p.digest = q.digest ∧ (p.bytes = none ∨ p.bytes = q.bytes)

variable {p q r : Position}

theorem Agrees.refl (p : Position) : Agrees p p :=
  fun _ => ⟨rfl, fun _ _ hb hc => Option.some.inj (hb.symm.trans hc)⟩

instance : Std.Symm Agrees where
  symm _ _ h hg := ⟨(h hg.symm).1.symm, fun b c hb hc => ((h hg.symm).2 c b hc hb).symm⟩

theorem Restricts.refl (p : Position) : Restricts p p := ⟨rfl, rfl, .inr rfl⟩

theorem Precedes.of_lt (h : p.generation < q.generation) : Precedes p q :=
  ⟨Nat.le_of_lt h, fun he => absurd he (Nat.ne_of_lt h)⟩

theorem Restricts.precedes (h : Restricts p q) : Precedes p q := by
  obtain ⟨hg, hd, hb⟩ := h
  refine ⟨Nat.le_of_eq hg, fun _ => ⟨hd, fun b c hpb hqc => ?_⟩⟩
  rcases hb with hb | hb
  · rw [hb] at hpb; cases hpb
  · rw [hb, hqc] at hpb
    exact (Option.some.inj hpb).symm

theorem Precedes.restrict_right (h : Precedes p q) (hr : Restricts r q) : Precedes p r := by
  obtain ⟨hg, hd, hb⟩ := hr
  refine ⟨hg ▸ h.1, fun he => ?_⟩
  obtain ⟨hdig, hbytes⟩ := h.2 (he.trans hg)
  refine ⟨hdig.trans hd.symm, fun b c hpb hrc => ?_⟩
  rcases hb with hb | hb
  · rw [hb] at hrc; cases hrc
  · exact hbytes b c hpb (hb ▸ hrc)

theorem Precedes.restrict_left (h : Precedes p q) (hr : Restricts r p) : Precedes r q := by
  obtain ⟨hg, hd, hb⟩ := hr
  refine ⟨hg ▸ h.1, fun he => ?_⟩
  obtain ⟨hdig, hbytes⟩ := h.2 (hg.symm.trans he)
  refine ⟨hd.trans hdig, fun b c hrb hqc => ?_⟩
  rcases hb with hb | hb
  · rw [hb] at hrb; cases hrb
  · exact hbytes b c (hb ▸ hrb) hqc

end Position

def PolicySnapshotV3.text (s : PolicySnapshotV3) : String := (PolicySnapshotV3.codec.encode s).text

def PolicyState.position (st : PolicyState) : Position :=
  ⟨st.generationFloor, st.policyDigest, st.snapshot.map (·.text)⟩

def PolicyAuthorityRecordV3.position (r : PolicyAuthorityRecordV3) : Position :=
  ⟨r.generationFloor, some r.policyDigest, r.snapshot.map (·.text)⟩

/-- What an acknowledged push reported: an accepted one, the bytes of its own snapshot too. -/
def ackPosition : StoreInput × StoreOutput → Option Position
  | (.push q, .answered (.ok ack)) => some ⟨ack.generation, some ack.policyDigest,
      if ack.status = "accepted" then (PolicySnapshotPushV1.fromValue q.value).map (·.snapshot.text) else none⟩
  | _ => none

/-! ## What loading and pushing do -/

/-- The file is the canonical text of a value that reads as the record. -/
def HoldsRecord (disk : Option String) (r : PolicyAuthorityRecordV3) : Prop :=
  ∃ value : Json, disk = some value.text ∧ PolicyAuthorityRecordV3.codec.decode value = some r

theorem HoldsRecord.unique {disk : Option String} {r r' : PolicyAuthorityRecordV3} (h : HoldsRecord disk r)
    (h' : HoldsRecord disk r') : r = r' := by
  obtain ⟨v, hv, hr⟩ := h
  obtain ⟨v', hv', hr'⟩ := h'
  rw [Json.text_injective (Option.some.inj (hv.symm.trans hv')), hr'] at hr
  exact (Option.some.inj hr).symm

theorem holdsRecord_encode (r : PolicyAuthorityRecordV3) :
    HoldsRecord (some (PolicyAuthorityRecordV3.codec.encode r).text) r :=
  ⟨_, rfl, PolicyAuthorityRecordV3.codec.decode_encode r⟩

variable {s : PolicySnapshotV3} {bytes : String}

theorem snapshotBytes_ok (h : snapshotBytes s = .ok bytes) : bytes = s.text := by
  unfold snapshotBytes at h
  simp only at h
  split at h
  · cases h
  · exact (Except.ok.inj h).symm

theorem snapshotBytes_of_le (h : s.text.utf8ByteSize ≤ snapshotMaxBytes) :
    snapshotBytes s = .ok s.text := if_neg (Nat.not_lt.2 h)

/-- A state whose snapshot, when it has one, is the one its floor and digest are of. -/
def PolicyState.Consistent (st : PolicyState) : Prop :=
  ∀ s, st.snapshot = some s →
    s.generation = st.generationFloor ∧ st.policyDigest = some s.policyDigest ∧ st.canonicalBytes = s.text

section

variable {sha : Hash} {reader : Json.Reader} {admission : PolicySnapshotV3 → Except String Unit} {ctx : StoreContext}

/-- What a load takes from a record. -/
structure LoadedFrom (sha : Hash) (ctx : StoreContext) (r : PolicyAuthorityRecordV3) (l : LoadedAuthority) : Prop where
  schema : r.schema = authorityRecordSchema
  floor_ne : r.generationFloor ≠ 0
  digest_hex : Lib.isHexDigest r.policyDigest = true
  mac : authorityFloorMac sha r.generationFloor r.policyDigest r.commandControlFloor ctx.verifierKey = .ok r.floorMac
  floor : l.generationFloor = r.generationFloor
  digest : l.policyDigest = some r.policyDigest
  controls : l.commandControlFloor = r.commandControlFloor
  snapshot : l.snapshot = none ∨ ∃ s, l.snapshot = some s ∧ r.snapshot = some s ∧ s.generation = r.generationFloor ∧
    s.policyDigest = r.policyDigest ∧ l.canonicalBytes = s.text ∧
    nextFloor sha r.commandControlFloor s = .ok r.commandControlFloor

theorem loadCombinedAuthority_ok {value : Json} {now : Except String Nat} {l : LoadedAuthority}
    (h : loadCombinedAuthority sha ctx value bytes now = .ok l) :
    ∃ r, PolicyAuthorityRecordV3.codec.decode value = some r ∧ bytes = value.text ∧ LoadedFrom sha ctx r l := by
  unfold loadCombinedAuthority at h
  split at h
  · cases h
  rename_i r hr
  rw [Lib.ite_error_eq_ok] at h
  obtain ⟨hhead, h⟩ := h
  push Not at hhead
  obtain ⟨hbytes, hschema, hfloor, hdigest, -⟩ := hhead
  simp only [ne_eq, Bool.not_eq_false] at hdigest
  split at h
  · cases h
  rename_i mac hmac
  rw [Lib.ite_error_eq_ok, not_not] at h
  obtain ⟨rfl, h⟩ := h
  refine ⟨r, hr, hbytes, ?_⟩
  simp only at h
  repeat' split at h
  all_goals cases h
  any_goals exact ⟨hschema, hfloor, hdigest, hmac, rfl, rfl, rfl, .inl rfl⟩
  rename_i s hs hcand _ _ _ _ canonical hc
  push Not at hcand
  obtain ⟨hgen, hpd, hnext⟩ := hcand
  refine ⟨hschema, hfloor, hdigest, hmac, rfl, rfl, rfl, .inr ⟨s, rfl, hs, hgen, hpd, snapshotBytes_ok hc, ?_⟩⟩
  cases hn : nextFloor sha r.commandControlFloor s with
  | error e => rw [hn] at hnext; cases hnext
  | ok c => rw [hn] at hnext; rw [Option.some.inj hnext]

/-- **A load, unpacked**: no file gives the empty state, and a file gives what its record says, the snapshot only when
it is the record's own. -/
theorem loadCurrentAuthority_ok {disk : Option String} {now : Except String Nat} {l : LoadedAuthority}
    (h : loadCurrentAuthority sha reader ctx disk now = .ok l) :
    (disk = none ∧ l = ⟨none, "", 0, none, false, false, none⟩) ∨ ∃ r, HoldsRecord disk r ∧ LoadedFrom sha ctx r l := by
  unfold loadCurrentAuthority at h
  repeat' split at h
  any_goals cases h
  · exact .inl ⟨rfl, rfl⟩
  · obtain ⟨r, hr, hbytes, hl⟩ := loadCombinedAuthority_ok h
    exact .inr ⟨r, ⟨_, by rw [hbytes], hr⟩, hl⟩

variable {st : PolicyState}

theorem encodeRequiresNewGeneration_ok {residentGeneration : Nat} {ack : PolicySnapshotAckV1}
    (h : encodeRequiresNewGeneration st residentGeneration = .ok ack) :
    ∃ digest, st.policyDigest = some digest ∧
      ack = ⟨ackRequiresNewGeneration, st.generationFloor, digest, false, residentGeneration⟩ := by
  unfold encodeRequiresNewGeneration at h
  repeat' split at h
  all_goals cases h
  rename_i digest hd _
  exact ⟨digest, hd, rfl⟩

/-- **The comparison with the state, unpacked**: a repeat of the snapshot in memory, an answer from a floor without a
snapshot, or a newer snapshot to persist. -/
theorem compareWithState_ok {plan : PushPlan} (h : compareWithState sha admission ctx st s bytes = .ok plan) :
    (∃ current, st.snapshot = some current ∧ s.generation = current.generation ∧ bytes = st.canonicalBytes ∧
      plan = .answer (encodeAck current true ctx.residentGeneration)) ∨
    (st.snapshot = none ∧ ∃ digest, st.policyDigest = some digest ∧
      plan = .answer ⟨ackRequiresNewGeneration, st.generationFloor, digest, false, ctx.residentGeneration⟩) ∨
    (∃ controls, plan = .persist s bytes controls ∧ nextFloor sha st.commandControlFloor s = .ok controls ∧
      (∀ current, st.snapshot = some current → current.generation < s.generation) ∧
      (st.snapshot = none → st.generationFloor < s.generation)) := by
  simp only [compareWithState] at h
  repeat' split at h
  any_goals cases h
  · rename_i current hcur _ heq hbytes
    exact .inl ⟨current, hcur, heq, not_not.1 hbytes, rfl⟩
  · rename_i current hcur hge hne _ controls hnext _ _
    refine .inr (.inr ⟨controls, rfl, hnext, fun c hc => ?_, fun hnone => (nomatch hcur.symm.trans hnone)⟩)
    obtain rfl : current = c := Option.some.inj (hcur.symm.trans hc)
    omega
  · rename_i hnone _
    obtain ⟨ack, ha, rfl⟩ := Lib.map_eq_ok.1 h
    obtain ⟨digest, hd, rfl⟩ := encodeRequiresNewGeneration_ok ha
    exact .inr (.inl ⟨hnone, digest, hd, rfl⟩)
  · rename_i hnone hlt _ controls hnext _ _
    exact .inr (.inr ⟨controls, rfl, hnext, fun c hc => (nomatch hnone.symm.trans hc), fun _ => by omega⟩)

/-- **The checks before that, unpacked.** -/
theorem planPush_ok {q : PushRequest} {plan : PushPlan} (h : planPush sha admission ctx st q = .ok plan) :
    ∃ request now, PolicySnapshotPushV1.fromValue q.value = some request ∧
      snapshotBytes request.snapshot = .ok request.snapshot.text ∧
      validateV3 sha request.snapshot (minimumGeneration st request.snapshot) ctx.runtimeIdentity ctx.ruleDigest
        ctx.verifierKey now = .ok () ∧
      request.snapshot.scopeContract.scopeDigest = ctx.scopeDigest ∧
      compareWithState sha admission ctx st request.snapshot request.snapshot.text = .ok plan := by
  unfold planPush at h
  repeat' split at h
  any_goals cases h
  rename_i request hreq _ _ _ _ bytes hbytes _ now _ _ _ hvalid hscope
  obtain rfl := snapshotBytes_ok hbytes
  exact ⟨request, now, hreq, hbytes, hvalid, not_not.1 hscope, h⟩

/-- **A push, unpacked**: nothing changes, or a planned snapshot replaced the record, and memory with it unless the
directory sync failed. -/
theorem push_cases (sha : Hash) (admission : PolicySnapshotV3 → Except String Unit) (ctx : StoreContext)
    (st : PolicyState) (disk : Option String) (q : PushRequest) :
    (∃ e, push sha admission ctx st disk q = (disk, st, .error e)) ∨
    (∃ ack, planPush sha admission ctx st q = .ok (.answer ack) ∧ push sha admission ctx st disk q =
      (disk, st, .ok ack)) ∨
    ∃ s bytes controls record, planPush sha admission ctx st q = .ok (.persist s bytes controls) ∧
      authorityBytes sha s.generation s.policyDigest (some s) ctx.verifierKey controls = .ok record ∧
      record.utf8ByteSize ≤ authorityRecordMaxBytes ∧
      ((q.fault = some .directorySync ∧ push sha admission ctx st disk q =
          (some record, st, .error "native_policy_snapshot_authority_persistence_failed")) ∨
        push sha admission ctx st disk q =
          (some record, ⟨some s, bytes, s.generation, some s.policyDigest, false, controls⟩,
            .ok (encodeAck s false ctx.residentGeneration))) := by
  unfold push
  cases hplan : planPush sha admission ctx st q with
  | error e => exact .inl ⟨e, rfl⟩
  | ok plan =>
    cases plan with
    | answer ack => exact .inr (.inl ⟨ack, rfl, rfl⟩)
    | persist s bytes controls =>
      cases hrec : authorityBytes sha s.generation s.policyDigest (some s) ctx.verifierKey controls with
      | error e => exact .inl ⟨e, by simp only [hrec]⟩
      | ok record =>
        simp only [hrec]
        unfold persistPrivateBytes
        by_cases hsize : record = "" ∨ authorityRecordMaxBytes < record.utf8ByteSize
        · rw [if_pos hsize]
          exact .inl ⟨_, rfl⟩
        · rw [if_neg hsize]
          have hle : record.utf8ByteSize ≤ authorityRecordMaxBytes := Nat.le_of_not_lt (fun h => hsize (.inr h))
          cases hf : q.fault with
          | none => exact .inr (.inr ⟨s, bytes, controls, record, rfl, hrec, hle, .inr rfl⟩)
          | some b =>
            cases b with
            | directorySync => exact .inr (.inr ⟨s, bytes, controls, record, rfl, hrec, hle, .inl ⟨rfl, rfl⟩⟩)
            | temporaryCreate | write | fileSync | rename => exact .inl ⟨_, rfl⟩

theorem authorityBytes_ok {generation : Nat} {digest : String} {snapshot : Option PolicySnapshotV3}
    {key : Lib.Bytes} {controls : Option CommandControlFloor}
    (h : authorityBytes sha generation digest snapshot key controls = .ok bytes) :
    ∃ mac, authorityFloorMac sha generation digest controls key = .ok mac ∧
      bytes = (PolicyAuthorityRecordV3.codec.encode
        ⟨authorityRecordSchema, generation, digest, snapshot, mac, controls⟩).text := by
  unfold authorityBytes at h
  repeat' split at h
  all_goals cases h
  rename_i mac hmac
  exact ⟨mac, hmac, rfl⟩

/-! ## The order of acknowledgements, memory and disk -/

/-- How the state in memory stands to the acknowledgements and to the file. -/
structure Between (acks : List Position) (disk : Option String) (st : PolicyState) : Prop where
  consistent : st.Consistent
  noFile : disk = none → st.policyDigest = none
  behindDisk : ∀ r, HoldsRecord disk r → st.position.Precedes r.position
  behindMemory : ∀ p ∈ acks, p.Precedes st.position

/-- **How a run stands at any point**: the acknowledgements so far precede each other, the record on disk and the state
in memory, and the state in memory precedes the record on disk. -/
structure Ordered (acks : List Position) (w : World) : Prop where
  pairwise : acks.Pairwise Position.Precedes
  disk : ∀ p ∈ acks, w.disk ≠ none ∧ ∀ r, HoldsRecord w.disk r → p.Precedes r.position
  memory : ∀ ctx st, w.running = some (ctx, st) → Between acks w.disk st

theorem floor_lt_of_persist (hst : st.Consistent)
    (hcur : ∀ current, st.snapshot = some current → current.generation < s.generation)
    (hnone : st.snapshot = none → st.generationFloor < s.generation) :
    st.generationFloor < s.generation := by
  cases hs : st.snapshot with
  | none => exact hnone hs
  | some current => rw [← (hst current hs).1]; exact hcur current hs

theorem ackPosition_answer {q : PushRequest} {ack : PolicySnapshotAckV1} (hst : st.Consistent)
    (h : planPush sha admission ctx st q = .ok (.answer ack)) :
    ∃ p, ackPosition (.push q, .answered (.ok ack)) = some p ∧ p.Restricts st.position ∧ p.digest ≠ none := by
  obtain ⟨request, now, hreq, -, -, -, hcmp⟩ := planPush_ok h
  refine ⟨_, rfl, ?_, Option.some_ne_none _⟩
  obtain ⟨current, hcur, -, hbytes, hack⟩ | ⟨hnone, digest, hd, hack⟩ | ⟨controls, hack, -⟩ := compareWithState_ok hcmp
  · cases hack
    obtain ⟨hg, hdigest, hcanon⟩ := hst current hcur
    refine ⟨hg, hdigest.symm, .inr ?_⟩
    simp only [encodeAck, if_true, hreq, Option.map_some, PolicyState.position, hcur]
    rw [hbytes, hcanon]
  · cases hack
    exact ⟨rfl, hd.symm, .inl (by simp [ackRequiresNewGeneration])⟩
  · cases hack

/-- A snapshot that is persisted is at one position in the record, in memory and in its acknowledgement, beyond memory
before it. -/
theorem persist_positions {q : PushRequest} {record : String}
    {controls : Option CommandControlFloor} (hst : st.Consistent)
    (h : planPush sha admission ctx st q = .ok (.persist s bytes controls))
    (hrec : authorityBytes sha s.generation s.policyDigest (some s) ctx.verifierKey controls = .ok record) :
    bytes = s.text ∧ st.generationFloor < s.generation ∧
      (∀ r, HoldsRecord (some record) r → r.position = ⟨s.generation, some s.policyDigest, some s.text⟩) ∧
      ackPosition (.push q, .answered (.ok (encodeAck s false ctx.residentGeneration))) =
        some ⟨s.generation, some s.policyDigest, some s.text⟩ := by
  obtain ⟨request, now, hreq, -, -, -, hcmp⟩ := planPush_ok h
  obtain ⟨_, -, -, -, hplan⟩ | ⟨-, _, -, hplan⟩ | ⟨_, hplan, -, hcur, hnone⟩ := compareWithState_ok hcmp
  · cases hplan
  · cases hplan
  cases hplan
  refine ⟨rfl, floor_lt_of_persist hst hcur hnone, fun r hr => ?_, ?_⟩
  · obtain ⟨mac, -, rfl⟩ := authorityBytes_ok hrec
    rw [hr.unique (holdsRecord_encode _)]
    rfl
  · simp [ackPosition, encodeAck, hreq]

theorem Ordered.push {acks : List Position} {disk : Option String} (h : Ordered acks ⟨disk, some (ctx, st)⟩)
    (q : PushRequest) :
    Ordered (acks ++ (ackPosition (.push q, .answered (Policy.push sha admission ctx st disk q).2.2)).toList)
      ⟨(Policy.push sha admission ctx st disk q).1, some (ctx, (Policy.push sha admission ctx st disk q).2.1)⟩ := by
  have hmem := h.memory ctx st rfl
  obtain ⟨e, hp⟩ | ⟨ack, hplan, hp⟩ | ⟨s, bytes, controls, record, hplan, hrec, -, ⟨-, hp⟩ | hp⟩ :=
    push_cases sha admission ctx st disk q <;> rw [hp]
  · exact (List.append_nil acks).symm ▸ h
  · obtain ⟨p, hack, hres, hdig⟩ := ackPosition_answer hmem.consistent hplan
    rw [hack, Option.toList_some]
    refine ⟨List.pairwise_append.2 ⟨h.pairwise, List.pairwise_singleton _ _, fun a ha => List.forall_mem_singleton.2
        ((hmem.behindMemory a ha).restrict_right hres)⟩,
      List.forall_mem_append.2 ⟨h.disk, List.forall_mem_singleton.2 ⟨fun hnone => hdig ?_,
        fun r hr => (hmem.behindDisk r hr).restrict_left hres⟩⟩, ?_⟩
    · rw [hres.2.1]
      exact hmem.noFile hnone
    · rintro _ _ ⟨rfl, rfl⟩
      exact { hmem with
        behindMemory := List.forall_mem_append.2 ⟨hmem.behindMemory, List.forall_mem_singleton.2 hres.precedes⟩ }
  · -- the record was replaced, but the push failed: memory stays where it was, behind the new record
    obtain ⟨-, hlt, hpos, -⟩ := persist_positions hmem.consistent hplan hrec
    have hbehind : ∀ {p : Position}, p.generation ≤ st.generationFloor →
        ∀ r, HoldsRecord (some record) r → p.Precedes r.position := by
      intro p hle r hr
      rw [hpos r hr]
      exact .of_lt (Nat.lt_of_le_of_lt hle hlt)
    change Ordered (acks ++ []) _
    rw [List.append_nil]
    refine ⟨h.pairwise, fun a ha => ⟨Option.some_ne_none _, hbehind (hmem.behindMemory a ha).1⟩, ?_⟩
    rintro _ _ ⟨rfl, rfl⟩
    exact { hmem with noFile := fun hnone => (nomatch hnone), behindDisk := hbehind (Nat.le_refl _) }
  · obtain ⟨hbytes, hlt, hpos, hack⟩ := persist_positions hmem.consistent hplan hrec
    rw [hack, Option.toList_some]
    have hold : ∀ a ∈ acks, a.Precedes ⟨s.generation, some s.policyDigest, some s.text⟩ :=
      fun a ha => .of_lt (Nat.lt_of_le_of_lt (hmem.behindMemory a ha).1 hlt)
    have hself := (Position.Restricts.refl ⟨s.generation, some s.policyDigest, some s.text⟩).precedes
    have hnew := List.forall_mem_append.2 ⟨hold, List.forall_mem_singleton.2 hself⟩
    refine ⟨List.pairwise_append.2 ⟨h.pairwise, List.pairwise_singleton _ _,
      fun a ha => List.forall_mem_singleton.2 (hold a ha)⟩,
      fun a ha => ⟨Option.some_ne_none _, fun r hr => hpos r hr ▸ hnew a ha⟩, ?_⟩
    rintro _ _ ⟨rfl, rfl⟩
    refine ⟨fun s' hs => ?_, fun hnone => (nomatch hnone), fun r hr => hpos r hr ▸ hself, hnew⟩
    cases hs
    exact ⟨rfl, rfl, hbytes⟩

theorem start_eq (admission : PolicySnapshotV3 → Except String Unit) (l : LoadedAuthority) :
    (PolicyState.start admission l).generationFloor = l.generationFloor ∧
      (PolicyState.start admission l).policyDigest = l.policyDigest ∧
      (PolicyState.start admission l).canonicalBytes = l.canonicalBytes ∧
      (PolicyState.start admission l).commandControlFloor = l.commandControlFloor ∧
      ((PolicyState.start admission l).snapshot = none ∨ (PolicyState.start admission l).snapshot = l.snapshot) := by
  unfold PolicyState.start
  cases hs : l.snapshot with
  | none => exact ⟨rfl, rfl, rfl, rfl, .inl rfl⟩
  | some s =>
    by_cases ha : (admission s).toBool = true
    · simp [ha]
    · simp [ha]

theorem between_start {acks : List Position} {w : World} (h : Ordered acks w) {now : Except String Nat}
    {l : LoadedAuthority} (hload : loadCurrentAuthority sha reader ctx w.disk now = .ok l) :
    Between acks w.disk (.start admission l) := by
  obtain ⟨hfloor, hdigest, hcanon, -, hsnap⟩ := start_eq admission l
  obtain ⟨hnone, rfl⟩ | ⟨r, hr, hl⟩ := loadCurrentAuthority_ok hload
  · refine ⟨fun s hs => (nomatch hs), fun _ => rfl, fun r hr => ?_, fun p hp => absurd hnone (h.disk p hp).1⟩
    obtain ⟨v, hv, -⟩ := hr
    cases hnone.symm.trans hv
  -- the snapshot that is left is the record's own
  have hkept : ∀ s, (PolicyState.start admission l).snapshot = some s → r.snapshot = some s ∧
      s.generation = r.generationFloor ∧ s.policyDigest = r.policyDigest ∧ l.canonicalBytes = s.text := by
    intro s hs
    have hls : l.snapshot = some s := by
      rcases hsnap with h1 | h1
      · cases h1.symm.trans hs
      · exact h1.symm.trans hs
    rcases hl.snapshot with hn | ⟨s', hls', hrs, hg, hpd, hcb, -⟩
    · cases hn.symm.trans hls
    · obtain rfl := Option.some.inj (hls'.symm.trans hls)
      exact ⟨hrs, hg, hpd, hcb⟩
  have hres : (PolicyState.start admission l).position.Restricts r.position := by
    refine ⟨hfloor.trans hl.floor, hdigest.trans hl.digest, ?_⟩
    cases hs : (PolicyState.start admission l).snapshot with
    | none => exact .inl (by simp [PolicyState.position, hs])
    | some s => exact .inr (by simp [PolicyState.position, PolicyAuthorityRecordV3.position, hs, (hkept s hs).1])
  refine ⟨fun s hs => ?_, fun hnone => ?_, fun r' hr' => ?_, fun p hp => ((h.disk p hp).2 r hr).restrict_right hres⟩
  · obtain ⟨-, hg, hpd, hcb⟩ := hkept s hs
    exact ⟨by rw [hfloor, hl.floor, hg], by rw [hdigest, hl.digest, hpd], by rw [hcanon, hcb]⟩
  · obtain ⟨v, hv, -⟩ := hr
    cases hnone.symm.trans hv
  · rw [hr'.unique hr]
    exact hres.precedes

/-- **One step keeps the order.** -/
theorem ordered_step {acks : List Position} {w : World} (h : Ordered acks w) (i : StoreInput) :
    Ordered (acks ++ (ackPosition (i, ((storeMachine sha reader admission).step w i).2)).toList)
      ((storeMachine sha reader admission).step w i).1 := by
  cases i with
  | restart ctx now =>
    change Ordered (acks ++ []) _
    rw [List.append_nil]
    simp only [storeMachine]
    cases hload : loadCurrentAuthority sha reader ctx w.disk now with
    | error e => exact ⟨h.pairwise, h.disk, fun _ _ hrun => (nomatch hrun)⟩
    | ok l =>
      refine ⟨h.pairwise, h.disk, ?_⟩
      rintro _ _ ⟨rfl, rfl⟩
      exact between_start h hload
  | push q =>
    obtain ⟨disk, running⟩ := w
    cases running with
    | none => exact (List.append_nil acks).symm ▸ h
    | some cs => exact h.push q

/-- **The resident never goes back.**  Whatever the file holds at first, over every run of pushes, faults at any
boundary of the replacement, and restarts in any context: the generations of acknowledgements never decrease; two
acknowledgements of one generation report one digest, and one text where both accepted a snapshot; and the state in
memory is never older than anything acknowledged. -/
theorem policy_store_never_rolls_back (sha : Hash) (reader : Json.Reader)
    (admission : PolicySnapshotV3 → Except String Unit) (disk : Option String) (run : List StoreInput) :
    let acks := ((storeMachine sha reader admission).trace ⟨disk, none⟩ run).filterMap ackPosition
    acks.Pairwise (fun p q => p.generation ≤ q.generation) ∧
    (∀ p ∈ acks, ∀ q ∈ acks, p.generation = q.generation →
      p.digest = q.digest ∧ ∀ b c, p.bytes = some b → q.bytes = some c → b = c) ∧
    ∀ ctx st, ((storeMachine sha reader admission).final ⟨disk, none⟩ run).running = some (ctx, st) →
      (∀ s, st.snapshot = some s → s.generation = st.generationFloor ∧ st.policyDigest = some s.policyDigest ∧
        st.canonicalBytes = s.text) ∧
      ∀ p ∈ acks, p.generation ≤ st.generationFloor ∧
        (p.generation = st.generationFloor → st.policyDigest = p.digest ∧
          ∀ b s, p.bytes = some b → st.snapshot = some s → s.text = b) := by
  have hall := (storeMachine sha reader admission).run_invariant (fun h => Ordered (h.filterMap ackPosition))
    (fun h w i hi => List.filterMap_append ▸ ordered_step hi i) run [] ⟨disk, none⟩
    ⟨List.Pairwise.nil, fun p hp => absurd hp List.not_mem_nil, fun _ _ hrun => (nomatch hrun)⟩
  rw [List.nil_append] at hall
  refine ⟨hall.pairwise.imp (fun hpq => hpq.1), fun p hp q hq hg => ?_,
    fun ctx st hrun => ⟨(hall.memory ctx st hrun).consistent, ?_⟩⟩
  · have hagree : (((storeMachine sha reader admission).trace ⟨disk, none⟩ run).filterMap ackPosition).Pairwise
        Position.Agrees := hall.pairwise.imp (fun hpq => hpq.2)
    exact hagree.forall_of_forall (fun a _ => Position.Agrees.refl a) hp hq hg
  · intro p hp
    obtain ⟨hle, heq⟩ := (hall.memory ctx st hrun).behindMemory p hp
    refine ⟨hle, fun hg => ⟨((heq hg).1).symm, fun b s hb hs => ?_⟩⟩
    exact ((heq hg).2 b s.text hb (by simp [PolicyState.position, hs])).symm

end

end Policy
end Guard
