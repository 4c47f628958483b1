import HolGuard.Policy.AntiRollback
import HolGuard.Policy.FloorHistory
/-!
# Reloading what was persisted

An acknowledged push leaves a record that the next start reads back whole.  The reader has limits of its own, so the
first part shows that a record made of a valid snapshot is within them; the second follows the file through runs.
-/
namespace Guard
namespace Policy

open Lib (Json Codec Hash SortedMap fitsU64)
open Lib.Json (shaped shaped_record keys_someMember forall_someMember shaped_str)
open Contracts (NativeExtensionControlV1 NativeExtensionControlLayerV1 NativeCommandControlAuthorityV1
  NativeCommandControlBindingV1 NativeCommandControlRecoveryV1 validateLayers)

/-! ## The shape of a valid record -/

variable {sha : Hash} {s : PolicySnapshotV3} {controls : Option CommandControlFloor}

section Shape

variable (levels : Nat)

theorem shaped_controlLayer {l : NativeExtensionControlLayerV1} (h : l.controls.length ≤ 512) :
    shaped 4096 (levels + 3) (NativeExtensionControlLayerV1.codec.encode l) = true := by
  have hcontrol : ∀ c ∈ l.controls, shaped 4096 (levels + 1) (NativeExtensionControlV1.codec.encode c) = true := by
    intro c _
    refine shaped_record ["state", "target_id", "target_kind"] (List.Sublist.refl _) (by decide) (by decide) ?_
    simp
  refine shaped_record ["catalog_digest", "controls", "global_lockdown", "kind", "schema_version"]
    (List.Sublist.refl _) (by decide) (by decide) ?_
  simpa using Json.shaped_list _ (by omega) hcontrol

theorem shaped_authority {a : NativeCommandControlAuthorityV1} (h : NativeCommandControlAuthorityV1.fits a = true) :
    shaped 4096 (levels + 2) (NativeCommandControlAuthorityV1.codec.encode a) = true := by
  simp only [NativeCommandControlAuthorityV1.fits, Bool.and_eq_true] at h
  obtain ⟨⟨hepoch, hmutation⟩, hrecovery⟩ := h
  have hrec : ∀ r, a.recovery = some r →
      shaped 4096 (levels + 1) (NativeCommandControlRecoveryV1.codec.encode r) = true := by
    intro r hr
    rw [hr] at hrecovery
    simp only [Option.all_some, Bool.and_eq_true] at hrecovery
    refine shaped_record ["nonce", "previous_authority_key_id", "previous_epoch", "previous_floor_digest",
      "previous_mutation_revision", "schema"] (List.Sublist.refl _) (by decide) (by decide) ?_
    simpa using hrecovery
  refine shaped_record ["authority_key_id", "epoch", "mutation_revision", "recovery"] (List.Sublist.refl _)
    (by decide) (by decide) ?_
  have := Json.shaped_nullable _ NativeCommandControlRecoveryV1.encode_ne_null hrec
  simp [hepoch, hmutation, this]

theorem validateLayers_ok {catalog : String} : ∀ {seen : List String} {ls : List NativeExtensionControlLayerV1},
    validateLayers catalog seen ls = .ok () → ∀ l ∈ ls, l.controls.length ≤ 512
  | _, [], _ => nofun
  | seen, m :: ls, h => by
    unfold validateLayers at h
    rw [Lib.ite_error_eq_ok] at h
    obtain ⟨hm, h⟩ := h
    push Not at hm
    split at h
    · cases h
    exact List.forall_mem_cons.2 ⟨hm.2.2.2.2, validateLayers_ok h⟩

theorem shaped_binding {b : NativeCommandControlBindingV1} (hv : NativeCommandControlBindingV1.validate sha b = .ok ())
    (hfits : NativeCommandControlBindingV1.fits b = true) :
    shaped 4096 (levels + 5) (NativeCommandControlBindingV1.codec.encode b) = true := by
  simp only [NativeCommandControlBindingV1.fits, Bool.and_eq_true] at hfits
  obtain ⟨⟨hrevision, hmanaged⟩, hauthority⟩ := hfits
  unfold NativeCommandControlBindingV1.validate at hv
  rw [Lib.ite_error_eq_ok] at hv
  obtain ⟨hhead, hv⟩ := hv
  push Not at hhead
  split at hv
  · cases hv
  split at hv
  · cases hv
  rename_i hlayers
  have hlist : shaped 4096 (levels + 4) ((Codec.list NativeExtensionControlLayerV1.codec).encode b.layers) = true :=
    Json.shaped_list _ (by have := hhead.2.2.2; omega) (fun l hl =>
      shaped_controlLayer _ (validateLayers_ok hlayers l hl))
  have hauth : ∀ a, b.authority = some a →
      shaped 4096 (levels + 4) (NativeCommandControlAuthorityV1.optionCodec.encode (some a)) = true := by
    intro a ha
    rw [ha] at hauthority
    exact shaped_authority (levels + 2) hauthority
  refine shaped_record ["authority", "catalog_digest", "effective_digest", "health", "layers", "managed_revision",
    "program_digest", "revision", "schema", "trust_digest"] ?_ (by decide) (by decide) ?_
  · rw [List.map_append]
    exact (keys_someMember _ _ _).append (List.Sublist.refl _)
  · rw [List.forall_mem_append]
    refine ⟨forall_someMember hauth, ?_⟩
    simp [hlist, hrevision, hmanaged]

theorem shaped_actionMap {m : SortedMap String} (h : m.pairs.length ≤ 4096) :
    shaped 4096 (levels + 1) (actionMap.encode m) = true :=
  Json.shaped_sortedMap _ h (fun _ _ => shaped_str _)

theorem validateActionMap_length {m : SortedMap String} {maximum : Nat} (h : validateActionMap m maximum = true) :
    m.pairs.length ≤ maximum := by
  simp only [validateActionMap, Bool.and_eq_true, decide_eq_true_eq] at h
  exact h.1

theorem shaped_policy {p : EffectiveNativePolicyV3} (hv : p.validate = true) :
    shaped 4096 (levels + 3) (EffectiveNativePolicyV3.codec.encode p) = true := by
  simp only [EffectiveNativePolicyV3.validate, validateRiskActionMap, validateHarnessActionMap, Bool.and_eq_true,
    validateMcpToolActions, validateMcpProviderActions, maxMapEntries, maxMcpToolActions, maxHarnessEntries] at hv
  obtain ⟨⟨⟨⟨⟨⟨⟨⟨⟨⟨-, hrisk⟩, hharness⟩, hpublisher⟩, hartifact⟩, htool⟩, hprovider⟩, -⟩, hcount⟩, hinner⟩, -⟩ := hv
  have hmap : ∀ {m : SortedMap String}, validateActionMap m 256 = true →
      shaped 4096 (levels + 2) (actionMap.encode m) = true := fun hm =>
    shaped_actionMap _ (Nat.le_trans (validateActionMap_length hm) (by decide))
  have hinnerMap : ∀ q ∈ p.harnessRiskActions.pairs, shaped 4096 (levels + 1) (actionMap.encode q.2) = true := by
    intro q hq
    have := List.all_eq_true.1 hinner q hq
    simp only [Bool.and_eq_true] at this
    exact shaped_actionMap _ (Nat.le_trans (validateActionMap_length this.2.1) (by decide))
  have hriskMap : shaped 4096 (levels + 2) (riskMap.encode p.harnessRiskActions) = true :=
    Json.shaped_sortedMap _ (Nat.le_trans (of_decide_eq_true hcount) (by decide)) hinnerMap
  have hmcp : ∀ {m : SortedMap String}, m.pairs.length ≤ 1024 →
      shaped 4096 (levels + 2) ((SortedMap.codec Codec.string).encode m) = true := fun hm =>
    shaped_actionMap _ (Nat.le_trans hm (by decide))
  have hhash : ∀ d, p.mcpProviderCatalogHash = some d →
      shaped 4096 (levels + 2) (hashOption.encode (some d)) = true := fun d _ => shaped_str d
  refine shaped_record ["artifact_actions", "changed_hash_action", "default_action", "harness_actions",
    "harness_risk_actions", "mcp_provider_actions", "mcp_provider_catalog_hash", "mcp_tool_actions",
    "new_network_domain_action", "protection_posture", "publisher_actions", "receipt_redaction_level", "risk_actions",
    "sandbox_analysis", "security_level", "subprocess_action", "unknown_publisher_action"] ?_ (by decide) (by decide) ?_
  · simp only [EffectiveNativePolicyV3.members, List.map_append]
    exact ((((List.Sublist.refl ["artifact_actions", "changed_hash_action", "default_action", "harness_actions",
      "harness_risk_actions"]).append (Json.keys_mapMember _ _ _)).append (keys_someMember _ _ _)).append
      (Json.keys_mapMember _ _ _)).append (List.Sublist.refl _)
  · rw [EffectiveNativePolicyV3.members, List.forall_mem_append, List.forall_mem_append, List.forall_mem_append,
      List.forall_mem_append]
    refine ⟨⟨⟨⟨?_, Json.forall_mapMember (hmcp (of_decide_eq_true hprovider.1))⟩, forall_someMember hhash⟩,
      Json.forall_mapMember (hmcp (of_decide_eq_true htool.1))⟩, ?_⟩
    · simp [hmap hartifact, hmap hharness.1, hriskMap]
    · simp [hmap hpublisher, hmap hrisk.1]

theorem shaped_snapshot {minimum now : Nat} {runtime rule : String} {key : Lib.Bytes}
    (hv : validateV3 sha s minimum runtime rule key now = .ok ()) (hfits : s.fits = true) :
    shaped 4096 (levels + 6) (PolicySnapshotV3.codec.encode s) = true := by
  simp only [PolicySnapshotV3.fits, Bool.and_eq_true] at hfits
  obtain ⟨⟨⟨hgeneration, hissued⟩, hexpires⟩, hcontrols⟩ := hfits
  simp only [validateV3, Lib.ite_error_eq_ok] at hv
  obtain ⟨-, -, -, -, -, -, -, -, -, -, hpolicy, hbinding, -⟩ := hv
  simp only [Bool.not_eq_true', Bool.not_eq_false] at hpolicy
  have hbind : ∀ b, s.commandExtensions = some b →
      shaped 4096 (levels + 5) (bindingOption.encode (some b)) = true := by
    intro b hb
    rw [hb] at hbinding hcontrols
    have hvalid : NativeCommandControlBindingV1.validate sha b = .ok () := by
      cases hvb : NativeCommandControlBindingV1.validate sha b with
      | ok u => rfl
      | error e => simp [hvb, Except.toBool] at hbinding
    exact shaped_binding levels hvalid hcontrols
  have hscope : shaped 4096 (levels + 5) (ScopeContractV3.codec.encode s.scopeContract) = true := by
    refine shaped_record ["kind", "schema", "scope_digest", "workspace_binding"] (List.Sublist.refl _) (by decide)
      (by decide) ?_
    simp
  have hintegrity : shaped 4096 (levels + 5) (SnapshotIntegrityV3.codec.encode s.integrity) = true := by
    refine shaped_record ["algorithm", "key_id", "mac"] (List.Sublist.refl _) (by decide) (by decide) ?_
    simp
  have hversion : ∀ n : Fin 65536, shaped 4096 (levels + 5) ((Codec.fin 65536).encode n) = true := by
    intro n
    have := n.isLt
    rw [Codec.fin, Json.shaped_num]
    exact decide_eq_true (by omega)
  refine shaped_record ["command_extensions", "config_digest", "effective_policy", "expires_at_ms", "generation",
    "integrity", "issued_at_ms", "mode", "policy_digest", "protocol_version", "rule_digest", "runtime_identity",
    "schema",
    "scope_contract", "version"] ?_ (by decide) (by decide) ?_
  · simp only [PolicySnapshotV3.members, PolicySnapshotV3.membersBefore, List.map_append, List.append_assoc]
    exact (keys_someMember _ _ _).append (List.Sublist.refl _)
  · rw [PolicySnapshotV3.members, PolicySnapshotV3.membersBefore, List.append_assoc, List.append_assoc,
      List.forall_mem_append]
    refine ⟨forall_someMember hbind, ?_⟩
    have := shaped_policy (levels + 2) hpolicy
    simp [PolicySnapshotV3.membersAfter, hgeneration, hissued, hexpires, hscope, hintegrity, hversion, this]

/-- The numbers of the floor are numbers of 64 bits. -/
def CommandControlFloor.fits (f : CommandControlFloor) : Bool :=
  fitsU64 f.revision && fitsU64 f.managedRevision && f.authority.all NativeCommandControlAuthorityV1.fits

theorem shaped_floor {f : CommandControlFloor} (h : f.fits = true) :
    shaped 4096 (levels + 3) (CommandControlFloor.codec.encode f) = true := by
  simp only [CommandControlFloor.fits, Bool.and_eq_true] at h
  obtain ⟨⟨hrevision, hmanaged⟩, hauthority⟩ := h
  have hauth : ∀ a, f.authority = some a →
      shaped 4096 (levels + 2) (NativeCommandControlAuthorityV1.optionCodec.encode (some a)) = true := by
    intro a ha
    rw [ha] at hauthority
    exact shaped_authority levels hauthority
  have hprevious : ∀ d, f.previousFloorDigest = some d →
      shaped 4096 (levels + 2) (hashOption.encode (some d)) = true := fun d _ => shaped_str d
  refine shaped_record ["authority", "effective_digest", "managed_revision", "previous_floor_digest", "revision"] ?_
    (by decide) (by decide) ?_
  · simp only [CommandControlFloor.members, List.map_append]
    exact (((keys_someMember _ _ _).append (List.Sublist.refl ["effective_digest", "managed_revision"])).append
      (keys_someMember _ _ _)).append (List.Sublist.refl _)
  · rw [CommandControlFloor.members, List.forall_mem_append, List.forall_mem_append, List.forall_mem_append]
    refine ⟨⟨⟨forall_someMember hauth, ?_⟩, forall_someMember hprevious⟩, ?_⟩
    · simp [hmanaged]
    · simp [hrevision]

/-- **A record made of a valid snapshot is within the reader's limits.** -/
theorem shaped_authorityRecord {minimum now : Nat} {runtime rule : String} {key : Lib.Bytes}
    (mac : String) (hv : validateV3 sha s minimum runtime rule key now = .ok ())
    (hfits : s.fits = true) (hcontrols : controls.all CommandControlFloor.fits = true) :
    shaped 4096 32 (PolicyAuthorityRecordV3.codec.encode
      ⟨authorityRecordSchema, s.generation, s.policyDigest, some s, mac, controls⟩) = true := by
  have hgeneration : fitsU64 s.generation = true := by
    simp only [PolicySnapshotV3.fits, Bool.and_eq_true] at hfits
    exact hfits.1.1.1
  have hfloor : ∀ f, controls = some f →
      shaped 4096 31 (CommandControlFloor.optionCodec.encode (some f)) = true := by
    intro f hf
    rw [hf] at hcontrols
    exact shaped_floor 28 hcontrols
  have hsnapshot : shaped 4096 31 (PolicySnapshotV3.optionCodec.encode (some s)) = true :=
    shaped_snapshot 25 hv hfits
  refine shaped_record ["command_control_floor", "floor_mac", "generation_floor", "policy_digest", "schema",
    "snapshot"] ?_ (by decide) (by decide) ?_
  · simp only [PolicyAuthorityRecordV3.members, List.map_append]
    exact (keys_someMember _ _ _).append (List.Sublist.refl _)
  · rw [PolicyAuthorityRecordV3.members, List.forall_mem_append]
    refine ⟨forall_someMember hfloor, ?_⟩
    simp [hgeneration, hsnapshot]

end Shape

/-! ## One reload -/

variable {generation : Nat}

theorem authorityFloorMac_hex {digest mac : String} {key : Lib.Bytes}
    (h : authorityFloorMac sha generation digest controls key = .ok mac) :
    Lib.isHexDigest mac = true := by
  unfold authorityFloorMac at h
  split at h
  · rw [← Except.ok.inj h]
    exact sha.isHexDigest_hmacHex _ _ _
  rw [Lib.ite_error_eq_ok] at h
  obtain ⟨-, h⟩ := h
  split at h
  · cases h
  rw [Lib.ite_error_eq_ok] at h
  rw [← Except.ok.inj h.2]
  exact sha.isHexDigest_hmacHex _ _ _

variable {st : PolicyState}

section

variable {sha : Hash} {reader : Json.Reader} {admission : PolicySnapshotV3 → Except String Unit} {ctx : StoreContext}

/-- **A persisted record loads back whole**, up to the time its snapshot expires. -/
theorem load_persisted {minimum now now' : Nat} {record : String}
    (hv : validateV3 sha s minimum ctx.runtimeIdentity ctx.ruleDigest ctx.verifierKey now = .ok ())
    (hscope : s.scopeContract.scopeDigest = ctx.scopeDigest) (hbytes : snapshotBytes s = .ok s.text)
    (hfits : s.fits = true) (hcontrols : controls.all CommandControlFloor.fits = true)
    (hnext : nextFloor sha controls s = .ok controls)
    (hrec : authorityBytes sha s.generation s.policyDigest (some s) ctx.verifierKey controls = .ok record)
    (hsize : record.utf8ByteSize ≤ authorityRecordMaxBytes) (hnow : now' < s.expiresAtMs) :
    loadCurrentAuthority sha reader ctx (some record) (.ok now') =
      .ok ⟨some s, s.text, s.generation, some s.policyDigest, false, false, controls⟩ := by
  obtain ⟨mac, hmac, rfl⟩ := authorityBytes_ok hrec
  set r : PolicyAuthorityRecordV3 :=
    ⟨authorityRecordSchema, s.generation, s.policyDigest, some s, mac, controls⟩ with hr
  have hshape : shaped 4096 32 (PolicyAuthorityRecordV3.codec.encode r) = true :=
    shaped_authorityRecord mac hv hfits hcontrols
  have hstrings := Json.stringsWithin_text (Nat.le_trans hsize (by decide : authorityRecordMaxBytes ≤ 1024 * 1024))
  have hread : strictJsonValue reader (PolicyAuthorityRecordV3.codec.encode r).text =
      some (PolicyAuthorityRecordV3.codec.encode r) := by
    rw [strictJsonValue, reader.read_text (by decide) hshape, Option.filter, hshape, hstrings]
    rfl
  have hlookup : r.members.lookup "schema" = some (.str authorityRecordSchema) := by
    simp [hr, PolicyAuthorityRecordV3.members, List.lookup_append, Json.lookup_member, Json.lookup_someMember]
  have hvalid := validateV3_later hv (Nat.le_refl s.generation) hnow
  simp only [validateV3, Lib.ite_error_eq_ok] at hv
  obtain ⟨-, -, hgen, -, hhex, -⟩ := hv
  have hdigest : Lib.isHexDigest s.policyDigest = true := by
    simp only [List.any_cons, Bool.or_eq_true, not_or, Bool.not_eq_true', Bool.not_eq_false] at hhex
    exact hhex.1
  have hload : loadCombinedAuthority sha ctx (PolicyAuthorityRecordV3.codec.encode r)
      (PolicyAuthorityRecordV3.codec.encode r).text (.ok now') =
      .ok ⟨some s, s.text, s.generation, some s.policyDigest, false, false, controls⟩ := by
    unfold loadCombinedAuthority
    rw [PolicyAuthorityRecordV3.codec.decode_encode]
    simp [hr, hgen, hdigest, authorityFloorMac_hex hmac, hmac, hnext, hvalid, hscope, hbytes, Except.toOption,
      Except.toBool]
  unfold loadCurrentAuthority
  simp only [Nat.not_lt.2 hsize, if_false, hread]
  unfold PolicyAuthorityRecordV3.codec at hload ⊢
  simp only [hlookup, ne_eq, not_true_eq_false, if_false, hload]

/-! ## Runs -/

/-- Whether memory and the file are as one after an event: a start and a persisted push make them so, and a fault at the
directory sync may part them. -/
def syncedAfter (before : Bool) : StoreInput × StoreOutput → Bool
  | (.restart _ _, _) => true
  | (.push _, .answered (.ok ack)) => before || (ack.status == "accepted" && !ack.idempotent)
  | (.push q, .answered (.error _)) => before && q.fault != some .directorySync
  | (.push _, _) => before

/-- No push since the last start or persisted push failed at the directory sync. -/
def synced (history : List (StoreInput × StoreOutput)) : Bool := history.foldl syncedAfter true

theorem synced_append (history : List (StoreInput × StoreOutput)) (e : StoreInput × StoreOutput) :
    synced (history ++ [e]) = syncedAfter (synced history) e := by
  simp [synced]

/-- The state's snapshot is the one in the record on disk. -/
def InSync (sha : Hash) (w : World) : Prop :=
  ∀ ctx st s, w.running = some (ctx, st) → st.snapshot = some s → ∃ record, w.disk = some record ∧
    authorityBytes sha s.generation s.policyDigest (some s) ctx.verifierKey st.commandControlFloor = .ok record

/-- **What the file and the floors keep over a run.** -/
structure Reloadable (sha : Hash) (history : List (StoreInput × StoreOutput)) (w : World) : Prop where
  file : ∀ bytes, w.disk = some bytes → bytes.utf8ByteSize ≤ authorityRecordMaxBytes ∧
    ∃ r, bytes = (PolicyAuthorityRecordV3.codec.encode r).text ∧
      r.commandControlFloor.all CommandControlFloor.fits = true
  consistent : ∀ ctx st, w.running = some (ctx, st) → st.Consistent
  floor : ∀ ctx st, w.running = some (ctx, st) → st.commandControlFloor.all CommandControlFloor.fits = true
  again : ∀ ctx st s, w.running = some (ctx, st) → st.snapshot = some s →
    nextFloor sha st.commandControlFloor s = .ok st.commandControlFloor
  inSync : synced history = true → InSync sha w

theorem fits_of_fromValue {value : Json} {request : PolicySnapshotPushV1}
    (h : PolicySnapshotPushV1.fromValue value = some request) : request.snapshot.fits = true := by
  unfold PolicySnapshotPushV1.fromValue at h
  split at h
  · split at h
    · cases h
    simp only [Option.bind_eq_bind, Option.bind_eq_some_iff] at h
    obtain ⟨schema, -, s, -, h⟩ := h
    split at h
    · rename_i hfits
      rw [← Option.some.inj h]
      exact hfits
    · cases h
  · cases h

theorem nextFloor_fits {current next : Option CommandControlFloor}
    (h : nextFloor sha current s = .ok next) (hs : s.fits = true)
    (hcurrent : current.all CommandControlFloor.fits = true) :
    next.all CommandControlFloor.fits = true := by
  obtain ⟨-, ⟨-, rfl⟩ | ⟨c, -, hc, rfl, -⟩⟩ := nextFloor_ok h
  · exact hcurrent
  obtain ⟨b, hb, hp⟩ := snapshotFloor_some hc
  simp only [PolicySnapshotV3.fits, hb, Option.all_some, Bool.and_eq_true, NativeCommandControlBindingV1.fits] at hs
  simp only [snapshotFloor, hb, hp, if_true, Option.some.injEq] at hc
  simp only [Option.all_some, ← hc, CommandControlFloor.fits, hs.2, Bool.and_self]

theorem persist_plan {q : PushRequest} {bytes : String}
    (h : planPush sha admission ctx st q = .ok (.persist s bytes controls)) :
    ∃ request now, PolicySnapshotPushV1.fromValue q.value = some request ∧ request.snapshot = s ∧ bytes = s.text ∧
      snapshotBytes s = .ok s.text ∧
      validateV3 sha s (minimumGeneration st s) ctx.runtimeIdentity ctx.ruleDigest ctx.verifierKey now = .ok () ∧
      s.scopeContract.scopeDigest = ctx.scopeDigest ∧ nextFloor sha st.commandControlFloor s = .ok controls := by
  obtain ⟨request, now, hreq, hbytes, hvalid, hscope, hcmp⟩ := planPush_ok h
  obtain ⟨_, -, -, -, hplan⟩ | ⟨-, _, -, hplan⟩ | ⟨_, hplan, hnext, -⟩ := compareWithState_ok hcmp
  · cases hplan
  · cases hplan
  cases hplan
  exact ⟨request, now, hreq, rfl, rfl, hbytes, hvalid, hscope, hnext⟩

theorem Reloadable.push {history : List (StoreInput × StoreOutput)} {disk : Option String}
    (h : Reloadable sha history ⟨disk, some (ctx, st)⟩) (q : PushRequest) :
    Reloadable sha (history ++ [(.push q, .answered (Policy.push sha admission ctx st disk q).2.2)])
      ⟨(Policy.push sha admission ctx st disk q).1, some (ctx, (Policy.push sha admission ctx st disk q).2.1)⟩ := by
  have hfloor := h.floor ctx st rfl
  obtain ⟨e, hp⟩ | ⟨ack, hplan, hp⟩ | ⟨s, bytes, controls, record, hplan, hrec, hsize, hpersisted⟩ :=
    push_cases sha admission ctx st disk q
  · rw [hp]
    refine ⟨h.file, h.consistent, h.floor, h.again, fun hs => h.inSync ?_⟩
    simp only [synced_append, syncedAfter, Bool.and_eq_true] at hs
    exact hs.1
  · rw [hp]
    refine ⟨h.file, h.consistent, h.floor, h.again, fun hs => ?_⟩
    -- an answer without a write is a repeat, or there is no snapshot in memory
    obtain ⟨request, now, -, -, -, -, hcmp⟩ := planPush_ok hplan
    obtain ⟨current, -, -, -, hack⟩ | ⟨hnone, digest, -, hack⟩ | ⟨controls, hack, -⟩ := compareWithState_ok hcmp
    · cases hack
      simp only [synced_append, syncedAfter, encodeAck, Bool.not_true, Bool.and_false, Bool.or_false] at hs
      exact h.inSync hs
    · rintro _ _ s ⟨rfl, rfl⟩ hsome
      rw [hnone] at hsome; cases hsome
    · cases hack
  · obtain ⟨request, now, hreq, rfl, rfl, hbytes, hvalid, hscope, hnext⟩ := persist_plan hplan
    have hcontrols := nextFloor_fits hnext (fits_of_fromValue hreq) hfloor
    have hfile : ∀ bytes, some record = some bytes → bytes.utf8ByteSize ≤ authorityRecordMaxBytes ∧
        ∃ r, bytes = (PolicyAuthorityRecordV3.codec.encode r).text ∧
          r.commandControlFloor.all CommandControlFloor.fits = true := by
      rintro _ ⟨rfl⟩
      obtain ⟨mac, -, hrecord⟩ := authorityBytes_ok hrec
      exact ⟨hsize, _, hrecord, hcontrols⟩
    rcases hpersisted with ⟨hfault, hp⟩ | hp
    · rw [hp]
      refine ⟨hfile, h.consistent, h.floor, h.again, fun hs => ?_⟩
      simp [synced_append, syncedAfter, hfault] at hs
    · rw [hp]
      refine ⟨hfile, ?_, ?_, ?_, fun _ => ?_⟩
      · rintro _ _ ⟨rfl, rfl⟩ s' hs'
        cases hs'
        exact ⟨rfl, rfl, rfl⟩
      · rintro _ _ ⟨rfl, rfl⟩
        exact hcontrols
      · rintro _ _ s' ⟨rfl, rfl⟩ hs'
        cases hs'
        exact nextFloor_again hnext
      · rintro _ _ s' ⟨rfl, rfl⟩ hs'
        cases hs'
        exact ⟨record, rfl, hrec⟩

theorem Reloadable.restart {history : List (StoreInput × StoreOutput)} {w : World} (h : Reloadable sha history w)
    (ctx : StoreContext) (now : Except String Nat) :
    Reloadable sha (history ++ [(.restart ctx now, ((storeMachine sha reader admission).step w (.restart ctx now)).2)])
      ((storeMachine sha reader admission).step w (.restart ctx now)).1 := by
  simp only [storeMachine]
  cases hload : loadCurrentAuthority sha reader ctx w.disk now with
  | error e => exact ⟨h.file, by simp, by simp, by simp, fun _ => by simp [InSync]⟩
  | ok l =>
    obtain ⟨hfloor, hdigest, hcanon, hcontrols, hsnap⟩ := start_eq admission l
    obtain ⟨-, rfl⟩ | ⟨r, hr, hl⟩ := loadCurrentAuthority_ok hload
    · have hempty : (PolicyState.start admission ⟨none, "", 0, none, false, false, none⟩).snapshot = none := rfl
      refine ⟨h.file, ?_, ?_, ?_, fun _ => ?_⟩
      · rintro _ _ ⟨rfl, rfl⟩ s hs
        rw [hempty] at hs; cases hs
      · rintro _ _ ⟨rfl, rfl⟩
        rfl
      · rintro _ _ s ⟨rfl, rfl⟩ hs
        rw [hempty] at hs; cases hs
      · rintro _ _ s ⟨rfl, rfl⟩ hs
        rw [hempty] at hs; cases hs
    · -- the snapshot that was loaded is the record's, and the record is the one the file is the text of
      have hsome : ∀ s, (PolicyState.start admission l).snapshot = some s → r.snapshot = some s ∧
          s.generation = r.generationFloor ∧ s.policyDigest = r.policyDigest ∧ l.canonicalBytes = s.text ∧
          nextFloor sha r.commandControlFloor s = .ok r.commandControlFloor := by
        intro s hs
        rcases hsnap with h1 | h1
        · rw [h1] at hs; cases hs
        · rw [h1] at hs
          obtain hnone | ⟨s', hls, hrest⟩ := hl.snapshot
          · rw [hnone] at hs; cases hs
          · rw [hls] at hs
            cases hs
            exact hrest
      obtain ⟨v, hv, hdecode⟩ := hr
      obtain ⟨-, r', hr', hfits⟩ := h.file _ hv
      obtain rfl : r' = r := (holdsRecord_encode r').unique ⟨v, congrArg some hr'.symm, hdecode⟩
      refine ⟨h.file, ?_, ?_, ?_, fun _ => ?_⟩
      · rintro _ _ ⟨rfl, rfl⟩ s hs
        obtain ⟨-, hg, hpd, hcb, -⟩ := hsome s hs
        exact ⟨by rw [hfloor, hl.floor, hg], by rw [hdigest, hl.digest, hpd], by rw [hcanon, hcb]⟩
      · rintro _ _ ⟨rfl, rfl⟩
        rw [hcontrols, hl.controls]
        exact hfits
      · rintro _ _ s ⟨rfl, rfl⟩ hs
        rw [hcontrols, hl.controls]
        exact (hsome s hs).2.2.2.2
      · rintro _ _ s ⟨rfl, rfl⟩ hs
        obtain ⟨hrs, hg, hpd, -, -⟩ := hsome s hs
        refine ⟨_, hv, ?_⟩
        rw [hcontrols, hl.controls, hg, hpd, hr']
        unfold authorityBytes
        have hself : (some s).any (fun s => s.generation != r'.generationFloor || s.policyDigest != r'.policyDigest) =
            false := by simp [hg, hpd]
        simp only [hl.floor_ne, hl.digest_hex, hself, hl.mac, Bool.true_eq_false, Bool.false_eq_true, or_self, if_false]
        rw [← hl.schema, ← hrs]

theorem reloadable_step {history : List (StoreInput × StoreOutput)} {w : World} (h : Reloadable sha history w)
    (i : StoreInput) : Reloadable sha (history ++ [(i, ((storeMachine sha reader admission).step w i).2)])
      ((storeMachine sha reader admission).step w i).1 := by
  cases i with
  | restart ctx now => exact h.restart ctx now
  | push q =>
    obtain ⟨disk, running⟩ := w
    cases running with
    | none => exact ⟨h.file, h.consistent, h.floor, h.again, fun _ => by simp [InSync, storeMachine]⟩
    | some cs => exact h.push q

/-- **An acknowledged push is reloaded whole.**  After every run that starts without a file, a push that is acknowledged
as accepted, and is not a repeat of the snapshot in memory while a fault at the directory sync has parted memory from
the file, leaves a file from which a start in the same context, before the snapshot expires, loads exactly that snapshot
with its bytes, generation floor, digest and command-control floor, valid and without a migration. -/
theorem acknowledged_push_reloads (sha : Hash) (reader : Json.Reader)
    (admission : PolicySnapshotV3 → Except String Unit)
    (run : List StoreInput) (ctx : StoreContext) (st : PolicyState) (q : PushRequest) (request : PolicySnapshotPushV1)
    (ack : PolicySnapshotAckV1) (disk : Option String) (st' : PolicyState) (now : Nat)
    (hrun : ((storeMachine sha reader admission).final ⟨none, none⟩ run).running = some (ctx, st))
    (hpush : push sha admission ctx st ((storeMachine sha reader admission).final ⟨none, none⟩ run).disk q =
      (disk, st', .ok ack))
    (hreq : PolicySnapshotPushV1.fromValue q.value = some request) (haccepted : ack.status = "accepted")
    (hsynced : ack.idempotent = true → synced ((storeMachine sha reader admission).trace ⟨none, none⟩ run) = true)
    (hnow : now < request.snapshot.expiresAtMs) :
    st'.snapshot = some request.snapshot ∧
      loadCurrentAuthority sha reader ctx disk (.ok now) =
        .ok ⟨some request.snapshot, st'.canonicalBytes, st'.generationFloor, st'.policyDigest, false, false,
          st'.commandControlFloor⟩ := by
  have hstart : Reloadable sha [] ⟨none, none⟩ := ⟨by simp, by simp, by simp, by simp, fun _ => by simp [InSync]⟩
  have hall :=
    (storeMachine sha reader admission).run_invariant (Reloadable sha) (fun _ _ i hi => reloadable_step hi i) run
    [] _ hstart
  rw [List.nil_append] at hall
  have hfits := fits_of_fromValue hreq
  obtain ⟨e, hp⟩ | ⟨ack', hplan, hp⟩ | ⟨s, bytes, controls, record, hplan, hrec, hsize, ⟨-, hp⟩ | hp⟩ :=
    push_cases sha admission ctx st ((storeMachine sha reader admission).final ⟨none, none⟩ run).disk q
  · rw [hp] at hpush
    cases hpush
  · -- a repeat: the snapshot in memory is the one that was pushed
    rw [hp] at hpush
    cases hpush
    obtain ⟨request', now', hreq', hbytes, hvalid, hscope, hcmp⟩ := planPush_ok hplan
    obtain rfl : request = request' := Option.some.inj (hreq.symm.trans hreq')
    obtain ⟨current, hcur, -, htext, hack⟩ | ⟨-, _, -, hack⟩ | ⟨_, hack, -⟩ := compareWithState_ok hcmp
    · cases hack
      obtain ⟨hg, hd, hcanon⟩ := hall.consistent ctx st hrun current hcur
      obtain rfl : request.snapshot = current :=
        PolicySnapshotV3.codec.encode_injective (Json.text_injective (htext.trans hcanon))
      obtain ⟨record, hdisk, hrec⟩ := hall.inSync (hsynced rfl) ctx st _ hrun hcur
      refine ⟨hcur, ?_⟩
      rw [hdisk, ← htext, ← hg, hd]
      exact load_persisted hvalid hscope hbytes hfits (hall.floor ctx st hrun) (hall.again ctx st _ hrun hcur) hrec
        (hall.file _ hdisk).1 hnow
    · cases hack
      simp [ackRequiresNewGeneration] at haccepted
    · cases hack
  · rw [hp] at hpush
    cases hpush
  · rw [hp] at hpush
    cases hpush
    obtain ⟨request', now', hreq', rfl, rfl, hbytes, hvalid, hscope, hnext⟩ := persist_plan hplan
    obtain rfl : request = request' := Option.some.inj (hreq.symm.trans hreq')
    exact ⟨rfl, load_persisted hvalid hscope hbytes hfits (nextFloor_fits hnext hfits (hall.floor ctx st hrun))
      (nextFloor_again hnext) hrec hsize hnow⟩

end

/-! ## Concrete runs -/

theorem push_answer {admission : PolicySnapshotV3 → Except String Unit} {ctx : StoreContext}
    {q : PushRequest} {ack : PolicySnapshotAckV1} (disk : Option String)
    (h : planPush sha admission ctx st q = .ok (.answer ack)) :
    push sha admission ctx st disk q = (disk, st, .ok ack) := by
  unfold push
  rw [h]

theorem compareWithState_repeat (sha : Hash) (admission : PolicySnapshotV3 → Except String Unit)
    (ctx : StoreContext) (hs : st.snapshot = some s) (hbytes : st.canonicalBytes = s.text) :
    compareWithState sha admission ctx st s s.text = .ok (.answer (encodeAck s true ctx.residentGeneration)) := by
  unfold compareWithState
  simp [hs, hbytes]

def sampleContext : StoreContext := ⟨zeroDigest, zeroDigest, zeroDigest, [], 7⟩

def samplePush (generation : Nat) (fault : Option PersistBoundary) : PushRequest :=
  ⟨.obj [("schema", .str pushSchema), ("snapshot", PolicySnapshotV3.codec.encode (sampleSnapshot generation none))],
    .ok (), .ok 50, fault⟩

def sampleRecord (generation : Nat) : String :=
  (PolicyAuthorityRecordV3.codec.encode ⟨authorityRecordSchema, generation, zeroDigest,
    some (sampleSnapshot generation none), zeroDigest, none⟩).text

def sampleState (generation : Nat) : PolicyState :=
  ⟨some (sampleSnapshot generation none), (sampleSnapshot generation none).text, generation, some zeroDigest,
    false, none⟩

theorem fromValue_samplePush (fault : Option PersistBoundary) (h : generation < 4) :
    PolicySnapshotPushV1.fromValue (samplePush generation fault).value =
      some ⟨pushSchema, sampleSnapshot generation none⟩ := by
  have hfits : (sampleSnapshot generation none).fits = true := by
    have hgeneration : fitsU64 generation = true := decide_eq_true (by omega)
    have htimes : fitsU64 1 = true ∧ fitsU64 100 = true := by decide
    simp [PolicySnapshotV3.fits, sampleSnapshot, hgeneration, htimes]
  simp [PolicySnapshotPushV1.fromValue, samplePush, Json.onlyMembers, Json.required, Json.lookup_member, Codec.string,
    Codec.decode_encode, hfits]

theorem sampleRecord_size (h : generation < 4) :
    (sampleRecord generation).utf8ByteSize ≤ authorityRecordMaxBytes ∧
      (sampleSnapshot generation none).text.utf8ByteSize ≤ snapshotMaxBytes := by
  have hbound : ∀ g, g < 4 → 4 * (Lib.JsonTree.write Json.longestText (Nat.toDigits 10)
        (PolicyAuthorityRecordV3.codec.encode ⟨authorityRecordSchema, g, zeroDigest, some (sampleSnapshot g none),
          zeroDigest, none⟩)).length ≤ 262144 ∧
      4 * (Lib.JsonTree.write Json.longestText (Nat.toDigits 10)
        (PolicySnapshotV3.codec.encode (sampleSnapshot g none))).length ≤ 262144 := by
    decide +kernel
  exact ⟨Nat.le_trans (Json.utf8ByteSize_text _) (Nat.le_trans (hbound _ h).1 (by decide)),
    Nat.le_trans (Json.utf8ByteSize_text _) (hbound _ h).2⟩

theorem planPush_sample (hpos : generation ≠ 0) (h : generation < 4)
    (fault : Option PersistBoundary) (hvalid : st.invalidOnStartup = false)
    (hmin : minimumGeneration st (sampleSnapshot generation none) ≤ generation) :
    planPush .zero (fun _ => .ok ()) sampleContext st (samplePush generation fault) =
      compareWithState .zero (fun _ => .ok ()) sampleContext st (sampleSnapshot generation none)
        (sampleSnapshot generation none).text := by
  have hbytes : snapshotBytes (sampleSnapshot generation none) = .ok (sampleSnapshot generation none).text :=
    snapshotBytes_of_le (sampleRecord_size h).2
  have hv := validateV3_sample hpos hmin (by decide : 50 < 100)
  have hscope : (sampleSnapshot generation none).scopeContract.scopeDigest = sampleContext.scopeDigest := rfl
  unfold planPush
  rw [fromValue_samplePush fault h]
  simp only [samplePush, hbytes, hvalid]
  simp [sampleContext, hv, hscope]

theorem persist_sampleRecord (h : generation < 4) (disk : Option String) :
    persistPrivateBytes disk (sampleRecord generation) none = (some (sampleRecord generation), .ok ()) ∧
      persistPrivateBytes disk (sampleRecord generation) (some .directorySync) = (some (sampleRecord generation),
        .error "native_policy_snapshot_authority_persistence_failed") := by
  have hempty : sampleRecord generation ≠ "" := by
    intro he
    have := congrArg String.toList he
    rw [sampleRecord, Json.text, String.toList_ofList] at this
    cases this
  have hsize : ¬ (sampleRecord generation = "" ∨ authorityRecordMaxBytes < (sampleRecord generation).utf8ByteSize) := by
    rintro (he | hlt)
    · exact hempty he
    · exact Nat.not_lt.2 (sampleRecord_size h).1 hlt
  unfold persistPrivateBytes
  rw [if_neg hsize, if_neg hsize]
  exact ⟨rfl, rfl⟩

theorem authorityBytes_sample (hpos : generation ≠ 0) :
    authorityBytes .zero generation zeroDigest (some (sampleSnapshot generation none)) [] none =
      .ok (sampleRecord generation) := by
  have hmac : authorityFloorMac .zero generation zeroDigest none [] = .ok zeroDigest :=
    congrArg Except.ok hexEncode_zero
  unfold authorityBytes
  simp [hpos, isHexDigest_zeroDigest, sampleSnapshot, hmac, sampleRecord]

theorem push_sample (hpos : generation ≠ 0) (h : generation < 4)
    (hvalid : st.invalidOnStartup = false) (hcontrols : st.commandControlFloor = none)
    (hfloor : st.generationFloor < generation)
    (hcurrent : ∀ c, st.snapshot = some c → c.generation < generation) (disk : Option String) :
    push .zero (fun _ => .ok ()) sampleContext st disk (samplePush generation none) =
        (some (sampleRecord generation), sampleState generation, .ok ⟨"accepted", generation, zeroDigest, false, 7⟩) ∧
      push .zero (fun _ => .ok ()) sampleContext st disk (samplePush generation (some .directorySync)) =
        (some (sampleRecord generation), st, .error "native_policy_snapshot_authority_persistence_failed") := by
  have hmin : minimumGeneration st (sampleSnapshot generation none) ≤ generation := by
    have hone : 1 ≤ generation := Nat.one_le_iff_ne_zero.2 hpos
    unfold minimumGeneration
    split
    · exact hone
    · exact Nat.max_le.2 ⟨Nat.le_of_lt hfloor, hone⟩
  have hcompare : compareWithState .zero (fun _ => .ok ()) sampleContext st (sampleSnapshot generation none)
      (sampleSnapshot generation none).text =
      .ok (.persist (sampleSnapshot generation none) (sampleSnapshot generation none).text none) := by
    have hnext : nextFloor .zero none (sampleSnapshot generation none) = .ok none := rfl
    have hgen : (sampleSnapshot generation none).generation = generation := rfl
    unfold compareWithState
    cases hs : st.snapshot with
    | none => simp [hcontrols, hnext, hgen, Nat.not_le.2 hfloor]
    | some c =>
      have := hcurrent c hs
      simp [hcontrols, hnext, hgen, Nat.not_lt.2 (Nat.le_of_lt this), Nat.ne_of_gt this]
  have hrecord := authorityBytes_sample hpos
  obtain ⟨hdone, hfault⟩ := persist_sampleRecord h disk
  have hgen : (sampleSnapshot generation none).generation = generation := rfl
  have hdigest : (sampleSnapshot generation none).policyDigest = zeroDigest := rfl
  constructor
  · unfold push
    rw [planPush_sample hpos h none hvalid hmin, hcompare]
    simp only [hgen, hdigest, sampleContext, hrecord, samplePush, hdone, sampleState, encodeAck]
  · unfold push
    rw [planPush_sample hpos h _ hvalid hmin, hcompare]
    simp only [hgen, hdigest, sampleContext, hrecord, samplePush, hfault]

theorem sampleState_current {next : Nat} (h : generation < next) :
    ∀ c, (sampleState generation).snapshot = some c → c.generation < next := by
  rintro _ ⟨rfl⟩
  exact h

def sampleRun : List StoreInput :=
  [.restart sampleContext (.ok 40), .push (samplePush 1 none), .push (samplePush 2 (some .directorySync))]

theorem final_sampleRun : (storeMachine .zero .canonical (fun _ => .ok ())).final ⟨none, none⟩ sampleRun =
    ⟨some (sampleRecord 2), some (sampleContext, sampleState 1)⟩ := by
  have hfirst : push .zero (fun _ => .ok ()) sampleContext ⟨none, "", 0, none, false, none⟩ none (samplePush 1 none) =
      (some (sampleRecord 1), sampleState 1, .ok ⟨"accepted", 1, zeroDigest, false, 7⟩) :=
    (push_sample (by decide) (by decide) rfl rfl (by decide) (by simp) none).1
  have hcurrent := sampleState_current (Nat.lt_succ_self 1)
  have hsecond : push .zero (fun _ => .ok ()) sampleContext (sampleState 1) (some (sampleRecord 1))
      (samplePush 2 (some .directorySync)) =
      (some (sampleRecord 2), sampleState 1, .error "native_policy_snapshot_authority_persistence_failed") :=
    (push_sample (by decide) (by decide) rfl rfl (Nat.lt_succ_self 1) hcurrent _).2
  have hstart : (storeMachine .zero .canonical (fun _ => .ok ())).step ⟨none, none⟩ (.restart sampleContext (.ok 40)) =
      (⟨none, some (sampleContext, ⟨none, "", 0, none, false, none⟩)⟩, .started (.ok ())) := rfl
  rw [sampleRun, Lib.Machine.final_cons, hstart, Lib.Machine.final_cons, Lib.Machine.final_cons, Lib.Machine.final_nil]
  simp only [storeMachine, hfirst, hsecond]

/-- After a fault at the directory sync, a repeat of the snapshot in memory is acknowledged while the file holds the
next one, which is what a restart loads. -/
theorem acknowledged_repeat_loads_another :
    ((storeMachine .zero .canonical (fun _ => .ok ())).final ⟨none, none⟩ sampleRun).running =
        some (sampleContext, sampleState 1) ∧
      push .zero (fun _ => .ok ()) sampleContext (sampleState 1)
          ((storeMachine .zero .canonical (fun _ => .ok ())).final ⟨none, none⟩ sampleRun).disk (samplePush 1 none) =
        (some (sampleRecord 2), sampleState 1, .ok ⟨"accepted", 1, zeroDigest, true, 7⟩) ∧
      loadCurrentAuthority .zero .canonical sampleContext (some (sampleRecord 2)) (.ok 60) =
        .ok ⟨some (sampleSnapshot 2 none), (sampleSnapshot 2 none).text, 2, some zeroDigest, false, false, none⟩ ∧
      sampleSnapshot 1 none ≠ sampleSnapshot 2 none := by
  rw [final_sampleRun]
  refine ⟨rfl, ?_, ?_, ?_⟩
  · have hmin : minimumGeneration (sampleState 1) (sampleSnapshot 1 none) ≤ 1 := by
      simp [minimumGeneration, sampleState]
    have hplan := planPush_sample (by decide) (by decide) none rfl hmin
    rw [compareWithState_repeat _ _ _ rfl rfl] at hplan
    exact push_answer _ hplan
  · have hsize := (sampleRecord_size (by decide : 2 < 4))
    have hfits := fits_of_fromValue (fromValue_samplePush none (by decide : 2 < 4))
    exact load_persisted (validateV3_sample (by decide) (Nat.le_refl 2) (by decide : 50 < 100)) rfl
      (snapshotBytes_of_le hsize.2) hfits rfl rfl (authorityBytes_sample (by decide)) hsize.1 (by decide)
  · intro h
    exact absurd (congrArg PolicySnapshotV3.generation h) (by simp [sampleSnapshot])

/-- The third snapshot is persisted in that run, and loads back. -/
theorem acknowledged_push_reloads_sample :
    push .zero (fun _ => .ok ()) sampleContext (sampleState 1)
        ((storeMachine .zero .canonical (fun _ => .ok ())).final ⟨none, none⟩ sampleRun).disk (samplePush 3 none) =
      (some (sampleRecord 3), sampleState 3, .ok ⟨"accepted", 3, zeroDigest, false, 7⟩) ∧
    loadCurrentAuthority .zero .canonical sampleContext (some (sampleRecord 3)) (.ok 60) =
      .ok ⟨some (sampleSnapshot 3 none), (sampleSnapshot 3 none).text, 3, some zeroDigest, false, false, none⟩ := by
  have hrun : ((storeMachine .zero .canonical (fun _ => .ok ())).final ⟨none, none⟩ sampleRun).running =
      some (sampleContext, sampleState 1) := by rw [final_sampleRun]
  have hpush := (push_sample (by decide) (by decide : 3 < 4) rfl rfl (by decide : 1 < 3)
    (sampleState_current (by decide : 1 < 3))
    ((storeMachine .zero .canonical (fun _ => .ok ())).final ⟨none, none⟩ sampleRun).disk).1
  exact ⟨hpush, (acknowledged_push_reloads .zero .canonical (fun _ => .ok ()) sampleRun sampleContext (sampleState 1)
    (samplePush 3 none) ⟨pushSchema, sampleSnapshot 3 none⟩ _ _ _ 60 hrun hpush
    (fromValue_samplePush none (by decide)) rfl (fun h => by cases h) (by decide)).2⟩

end Policy
end Guard
