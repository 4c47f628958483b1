import HolGuard.Policy.Store
/-!
# Older policy files

`policy_store_migration.rs`: a resident that finds no combined record reads what earlier versions left, a bare snapshot
and a separate file with the generation floor.  `load_legacy_authority` takes the larger of the two generations before
it authenticates the snapshot, and keeps it when the snapshot turns out to be expired, foreign or damaged.

So the floor it returns is an authenticated generation exactly when no unauthenticated snapshot is newer than the floor
file (`legacy_generation_floor_trusted_iff`).
-/
namespace Guard
namespace Policy

open Lib (Json Codec Bytes Hash isHexDigest fitsU64)

def generationFloorSchema : String := "guard-policy-snapshot-generation-floor.v1"

def maxFloorBytes : Nat := 8 * 1024

/-! ## The floor file -/

structure GenerationFloorV1 where
  schema : String
  generation : Nat
  policyDigest : String
  mac : String
  deriving DecidableEq

namespace GenerationFloorV1

def members (f : GenerationFloorV1) : List (String × Json) :=
  [("generation", .num f.generation), ("mac", .str f.mac), ("policy_digest", .str f.policyDigest),
    ("schema", .str f.schema)]

def codec : Codec GenerationFloorV1 where
  encode f := .obj f.members
  decode
    | .obj ms => if !Json.onlyMembers ms ["schema", "generation", "policy_digest", "mac"] then none else do
        let schema ← Json.required .string ms "schema"
        let generation ← Json.required .nat ms "generation"
        let policyDigest ← Json.required .string ms "policy_digest"
        let mac ← Json.required .string ms "mac"
        some ⟨schema, generation, policyDigest, mac⟩
    | _ => none
  decode_encode f := by
    simp [members, Json.onlyMembers, Json.required, List.lookup, Codec.string, Codec.nat]

/-- `serde_json::from_value`, which also refuses a generation above 64 bits. -/
def fromValue (value : Json) : Option GenerationFloorV1 :=
  (codec.decode value).filter (fun f => fitsU64 f.generation)

end GenerationFloorV1

/-- `serde_json::from_value` of a snapshot. -/
def PolicySnapshotV3.fromValue (value : Json) : Option PolicySnapshotV3 :=
  (PolicySnapshotV3.codec.decode value).filter PolicySnapshotV3.fits

section

variable (sha : Hash) (reader : Json.Reader)

/-- `read_private_json` of a readable file. -/
def readPrivateJson (maximumBytes : Nat) (kind : String) (file : Option String) :
    Except String (Option (Json × String)) :=
  match file with
  | none => .ok none
  | some bytes =>
    if maximumBytes < bytes.utf8ByteSize then .error ("native_policy_snapshot_" ++ kind ++ "_invalid")
    else match strictJsonValue reader bytes with
      | none => .error ("native_policy_snapshot_" ++ kind ++ "_invalid")
      | some value => .ok (some (value, bytes))

def GenerationFloorV1.Authentic (f : GenerationFloorV1) (key : Bytes) : Prop :=
  generationFloorMac sha f.generation f.policyDigest key = f.mac

instance (f : GenerationFloorV1) (key : Bytes) : Decidable (f.Authentic sha key) := decEq _ _

def readGenerationFloor (file : Option String) (key : Bytes) : Except String (Option GenerationFloorV1) :=
  match readPrivateJson reader maxFloorBytes "floor" file with
  | .error e => .error e
  | .ok none => .ok none
  | .ok (some (value, bytes)) =>
    match GenerationFloorV1.fromValue value with
    | none => .error "native_policy_snapshot_floor_invalid"
    | some floor =>
      if bytes ≠ value.text ∨ floor.schema ≠ generationFloorSchema ∨ floor.generation = 0 ∨
          isHexDigest floor.policyDigest = false ∨ isHexDigest floor.mac = false ∨ ¬ floor.Authentic sha key then
        .error "native_policy_snapshot_floor_invalid"
      else .ok (some floor)

/-! ## The load -/

def parseLegacySnapshot (value : Json) (bytes : String) : Except String (PolicySnapshotV3 × String) :=
  match PolicySnapshotV3.fromValue value with
  | none => .error "native_policy_snapshot_state_invalid"
  | some snapshot =>
    if bytes ≠ value.text then .error "native_policy_snapshot_state_noncanonical" else .ok (snapshot, value.text)

/-- `Option::transpose` of the parse. -/
def parsedLegacySnapshot : Option (Json × String) → Except String (Option (PolicySnapshotV3 × String))
  | none => .ok none
  | some (value, bytes) => (parseLegacySnapshot value bytes).map some

/-- What is loaded when only the floor is known. -/
def floorAlone (floor : GenerationFloorV1) (invalidOnStartup : Bool) : LoadedAuthority :=
  ⟨none, "", floor.generation, some floor.policyDigest, invalidOnStartup, true, none⟩

/-- The part of `load_legacy_authority` after both files are parsed. -/
def combineLegacy (ctx : StoreContext) (floor : Option GenerationFloorV1) (snapshot : PolicySnapshotV3)
    (bytes : String) (now : Except String Nat) : Except String LoadedAuthority :=
  let floorGeneration := floor.elim 0 GenerationFloorV1.generation
  -- taken before the snapshot is authenticated, and kept by all three outcomes
  let generationFloor := max floorGeneration snapshot.generation
  let discarded (invalidOnStartup : Bool) : LoadedAuthority :=
    ⟨none, "", generationFloor, floor.map GenerationFloorV1.policyDigest, invalidOnStartup, true, none⟩
  if snapshot.generation < floorGeneration ∨
      (snapshot.generation = floorGeneration ∧ floor.any (fun f => f.policyDigest != snapshot.policyDigest)) then
    .ok (discarded true)
  else match now with
    | .error e => .error e
    | .ok now =>
      if (validateV3 sha snapshot (max floorGeneration 1) ctx.runtimeIdentity ctx.ruleDigest ctx.verifierKey
            now).toBool ∧
          snapshot.scopeContract.scopeDigest = ctx.scopeDigest then
        .ok ⟨some snapshot, bytes, max generationFloor snapshot.generation, some snapshot.policyDigest, false,
          true, none⟩
      else .ok (discarded floor.isNone)

def loadLegacyAuthority (ctx : StoreContext) (legacySnapshot : Option (Json × String)) (floorFile : Option String)
    (now : Except String Nat) : Except String LoadedAuthority :=
  match readGenerationFloor sha reader floorFile ctx.verifierKey with
  | .error e => .error e
  | .ok floor =>
    match parsedLegacySnapshot legacySnapshot, floor with
    | .error _, some floor => .ok (floorAlone floor true)
    | .error e, none => .error e
    | .ok none, none => .ok ⟨none, "", 0, none, false, false, none⟩
    | .ok none, some floor => .ok (floorAlone floor false)
    | .ok (some (snapshot, bytes)), floor => combineLegacy sha ctx floor snapshot bytes now

end

/-! ## Which generations can become the floor -/

section

variable (sha : Hash) (reader : Json.Reader)

def PolicySnapshotV3.Authentic (s : PolicySnapshotV3) (key : Bytes) : Prop := integrityMac sha s key = s.integrity.mac

def FloorRecord (floorFile : Option String) (f : GenerationFloorV1) : Prop :=
  ∃ bytes value, floorFile = some bytes ∧ strictJsonValue reader bytes = some value ∧
    GenerationFloorV1.fromValue value = some f

def SnapshotRecord (legacySnapshot : Option (Json × String)) (s : PolicySnapshotV3) : Prop :=
  ∃ value bytes, legacySnapshot = some (value, bytes) ∧ PolicySnapshotV3.fromValue value = some s

/-- A floor that only rests on authenticated generations and is no step back. -/
structure TrustedFloor (key : Bytes) (legacySnapshot : Option (Json × String)) (floorFile : Option String)
    (generation : Nat) : Prop where
  authenticated : generation = 0 ∨
    (∃ f, FloorRecord reader floorFile f ∧ f.Authentic sha key ∧ generation = f.generation) ∨
    ∃ s, SnapshotRecord legacySnapshot s ∧ s.Authentic sha key ∧ generation = s.generation
  notLower : ∀ f, FloorRecord reader floorFile f → f.Authentic sha key → f.generation ≤ generation

/-- A snapshot in canonical form that is newer than the floor file's authentic record is itself authentic. -/
def NewerIsAuthentic (key : Bytes) (legacySnapshot : Option (Json × String)) (floorFile : Option String) : Prop :=
  ∀ value s, legacySnapshot = some (value, value.text) → PolicySnapshotV3.fromValue value = some s →
    s.Authentic sha key ∨ s.generation = 0 ∨
      ∃ f, FloorRecord reader floorFile f ∧ f.Authentic sha key ∧ s.generation ≤ f.generation

end

variable {s : PolicySnapshotV3}

section

variable {sha : Hash} {reader : Json.Reader}

theorem FloorRecord.unique {file : Option String} {f g : GenerationFloorV1} (hf : FloorRecord reader file f)
    (hg : FloorRecord reader file g) : f = g := by
  obtain ⟨bytes, value, rfl, hvalue, hf⟩ := hf
  obtain ⟨_, value', hbytes, hvalue', hg⟩ := hg
  cases hbytes
  rw [hvalue] at hvalue'
  cases hvalue'
  rw [hf] at hg
  exact Option.some.inj hg

/-- What `read_generation_floor` answers: the record of the file, which is authentic, or nothing for want of a file. -/
theorem readGenerationFloor_cases {file : Option String} {key : Bytes} {answer : Option GenerationFloorV1}
    (h : readGenerationFloor sha reader file key = .ok answer) :
    (file = none ∧ answer = none) ∨
      ∃ f, answer = some f ∧ FloorRecord reader file f ∧ f.Authentic sha key := by
  cases file with
  | none => exact .inl ⟨rfl, by simpa [readGenerationFloor, readPrivateJson] using h.symm⟩
  | some bytes =>
    refine .inr ?_
    unfold readGenerationFloor readPrivateJson at h
    by_cases hsize : maxFloorBytes < bytes.utf8ByteSize
    · simp [hsize] at h
    cases hvalue : strictJsonValue reader bytes with
    | none => simp [hsize, hvalue] at h
    | some value =>
      cases hf : GenerationFloorV1.fromValue value with
      | none => simp [hsize, hvalue, hf] at h
      | some f =>
        simp only [hsize, hvalue, hf, if_false, Lib.ite_error_eq_ok, not_or, not_not] at h
        exact ⟨f, (Except.ok.inj h.2).symm, ⟨bytes, value, rfl, hvalue, hf⟩, h.1.2.2.2.2.2⟩

theorem readGenerationFloor_bounds {file : Option String} {key : Bytes} {floor : Option GenerationFloorV1}
    {f : GenerationFloorV1} (h : readGenerationFloor sha reader file key = .ok floor)
    (hf : FloorRecord reader file f) : f.generation ≤ floor.elim 0 GenerationFloorV1.generation := by
  rcases readGenerationFloor_cases h with ⟨rfl, -⟩ | ⟨g, rfl, hg, -⟩
  · obtain ⟨_, _, hnone, -⟩ := hf
    cases hnone
  · rw [hf.unique hg]
    exact Nat.le_refl _

/-- The generation the snapshot file claims, `0` without a snapshot that parses. -/
def claimedGeneration (legacySnapshot : Option (Json × String)) : Nat :=
  match parsedLegacySnapshot legacySnapshot with
  | .ok (some (s, _)) => s.generation
  | _ => 0

theorem combineLegacy_generationFloor {ctx : StoreContext} {floor : Option GenerationFloorV1}
    {bytes : String} {now : Except String Nat} {loaded : LoadedAuthority}
    (h : combineLegacy sha ctx floor s bytes now = .ok loaded) :
    loaded.generationFloor = max (floor.elim 0 GenerationFloorV1.generation) s.generation := by
  unfold combineLegacy at h
  simp only at h
  split at h
  · cases h; rfl
  cases now with
  | error e => cases h
  | ok now =>
    simp only at h
    split at h
    · cases h; simp
    · cases h; rfl

/-- Whatever becomes of the snapshot, the floor is the larger of the two generations. -/
theorem loadLegacyAuthority_generationFloor {ctx : StoreContext} {legacySnapshot : Option (Json × String)}
    {floorFile : Option String} {now : Except String Nat} {loaded : LoadedAuthority}
    (h : loadLegacyAuthority sha reader ctx legacySnapshot floorFile now = .ok loaded) :
    ∃ floor, readGenerationFloor sha reader floorFile ctx.verifierKey = .ok floor ∧
      loaded.generationFloor =
        max (floor.elim 0 GenerationFloorV1.generation) (claimedGeneration legacySnapshot) := by
  unfold loadLegacyAuthority at h
  cases hfloor : readGenerationFloor sha reader floorFile ctx.verifierKey with
  | error e => simp [hfloor] at h
  | ok floor =>
    refine ⟨floor, rfl, ?_⟩
    simp only [hfloor] at h
    unfold claimedGeneration
    cases hparsed : parsedLegacySnapshot legacySnapshot with
    | error e =>
      cases floor with
      | none => simp [hparsed] at h
      | some f => simp only [hparsed] at h; cases h; simp [floorAlone]
    | ok parsed =>
      cases parsed with
      | none => cases floor <;> simp only [hparsed] at h <;> cases h <;> simp [floorAlone]
      | some p => simp only [hparsed] at h; exact combineLegacy_generationFloor h

theorem claimedGeneration_of_canonical {value : Json} (hs : PolicySnapshotV3.fromValue value = some s) :
    claimedGeneration (some (value, value.text)) = s.generation := by
  simp [claimedGeneration, parsedLegacySnapshot, parseLegacySnapshot, hs, Except.map]

/-- A claimed generation above zero is that of a snapshot in canonical form. -/
theorem claimedGeneration_cases (legacySnapshot : Option (Json × String)) :
    claimedGeneration legacySnapshot = 0 ∨
      ∃ value s, legacySnapshot = some (value, value.text) ∧ PolicySnapshotV3.fromValue value = some s := by
  rcases legacySnapshot with - | ⟨value, bytes⟩
  · exact .inl rfl
  cases hs : PolicySnapshotV3.fromValue value with
  | none => exact .inl (by simp [claimedGeneration, parsedLegacySnapshot, parseLegacySnapshot, hs, Except.map])
  | some s =>
    by_cases hbytes : bytes = value.text
    · exact .inr ⟨value, s, by rw [hbytes], hs⟩
    · exact .inl (by simp [claimedGeneration, parsedLegacySnapshot, parseLegacySnapshot, hs, hbytes, Except.map])

/-- **The floor taken over from older files rests on authenticated generations, and is no step back, exactly when every
snapshot newer than the floor file is authentic.** -/
theorem legacy_generation_floor_trusted_iff {ctx : StoreContext} {legacySnapshot : Option (Json × String)}
    {floorFile : Option String} {now : Except String Nat} {loaded : LoadedAuthority}
    (h : loadLegacyAuthority sha reader ctx legacySnapshot floorFile now = .ok loaded) :
    TrustedFloor sha reader ctx.verifierKey legacySnapshot floorFile loaded.generationFloor ↔
      NewerIsAuthentic sha reader ctx.verifierKey legacySnapshot floorFile := by
  obtain ⟨floor, hread, hloaded⟩ := loadLegacyAuthority_generationFloor h
  rw [hloaded]
  have hfloor : floor.elim 0 GenerationFloorV1.generation = 0 ∨ ∃ f, FloorRecord reader floorFile f ∧
      f.Authentic sha ctx.verifierKey ∧ floor.elim 0 GenerationFloorV1.generation = f.generation := by
    rcases readGenerationFloor_cases hread with ⟨-, rfl⟩ | ⟨g, rfl, hg, hauth⟩
    · exact .inl rfl
    · exact .inr ⟨g, hg, hauth, rfl⟩
  constructor
  · intro htrusted value s hsnapshot hs
    subst hsnapshot
    rw [claimedGeneration_of_canonical hs] at htrusted
    rcases htrusted.authenticated with hzero | ⟨f, hf, hauth, heq⟩ | ⟨s', hs', hauth, -⟩
    · exact .inr (.inl (by omega))
    · exact .inr (.inr ⟨f, hf, hauth, by omega⟩)
    · obtain ⟨_, _, hrecord, hs'⟩ := hs'
      cases hrecord
      rw [hs] at hs'
      cases hs'
      exact .inl hauth
  · intro hnewer
    refine ⟨?_, fun f hf _ => Nat.le_trans (readGenerationFloor_bounds hread hf) (Nat.le_max_left _ _)⟩
    by_cases hle : claimedGeneration legacySnapshot ≤ floor.elim 0 GenerationFloorV1.generation
    · rw [Nat.max_eq_left hle]
      exact hfloor.imp_right .inl
    -- a claimed generation above the floor: only an authentic snapshot can claim it
    obtain hzero | ⟨value, s, rfl, hs⟩ := claimedGeneration_cases legacySnapshot
    · omega
    rw [claimedGeneration_of_canonical hs] at hle ⊢
    rw [Nat.max_eq_right (by omega)]
    rcases hnewer value s rfl hs with hauth | hzero | ⟨f, hf, -, hgen⟩
    · exact .inr (.inr ⟨s, ⟨value, _, rfl, hs⟩, hauth, rfl⟩)
    · omega
    · exact absurd (Nat.le_trans hgen (readGenerationFloor_bounds hread hf)) hle

end

/-! ## Concrete files -/

def legacyFloor : GenerationFloorV1 := ⟨generationFloorSchema, 1, zeroDigest, zeroDigest⟩

def legacyFloorFile : Option String := some (GenerationFloorV1.codec.encode legacyFloor).text

theorem readGenerationFloor_sample :
    readGenerationFloor .zero .canonical legacyFloorFile [] = .ok (some legacyFloor) := by
  have hshape : Json.shaped 4096 32 (GenerationFloorV1.codec.encode legacyFloor) = true := by decide +kernel
  have hstrings : Json.stringsWithin (1024 * 1024) (GenerationFloorV1.codec.encode legacyFloor) = true := by
    decide +kernel
  have hvalue : strictJsonValue .canonical (GenerationFloorV1.codec.encode legacyFloor).text =
      some (GenerationFloorV1.codec.encode legacyFloor) := by
    rw [strictJsonValue, Json.Reader.canonical.read_text (by decide) hshape, Option.filter, hshape, hstrings]
    rfl
  have hsize : ¬ maxFloorBytes < (GenerationFloorV1.codec.encode legacyFloor).text.utf8ByteSize := by decide +kernel
  have hfrom : GenerationFloorV1.fromValue (GenerationFloorV1.codec.encode legacyFloor) = some legacyFloor := by
    rw [GenerationFloorV1.fromValue, Codec.decode_encode]
    rfl
  have hmac : GenerationFloorV1.Authentic .zero ⟨generationFloorSchema, 1, zeroDigest, zeroDigest⟩ [] := hexEncode_zero
  rw [readGenerationFloor, legacyFloorFile]
  simp only [readPrivateJson, hsize, hvalue, hfrom, if_false]
  simp [legacyFloor, isHexDigest_zeroDigest, hmac]

def snapshotFile (s : PolicySnapshotV3) : Option (Json × String) :=
  some (PolicySnapshotV3.codec.encode s, (PolicySnapshotV3.codec.encode s).text)

theorem fromValue_encode (hfits : s.fits = true) :
    PolicySnapshotV3.fromValue (PolicySnapshotV3.codec.encode s) = some s := by
  rw [PolicySnapshotV3.fromValue, Codec.decode_encode, Option.filter, hfits]
  rfl

theorem loadLegacyAuthority_sample (hfits : s.fits = true) (ctx : StoreContext)
    (hkey : ctx.verifierKey = []) (now : Except String Nat) :
    loadLegacyAuthority .zero .canonical ctx (snapshotFile s) legacyFloorFile now =
      combineLegacy .zero ctx (some legacyFloor) s (PolicySnapshotV3.codec.encode s).text now := by
  rw [loadLegacyAuthority, hkey, readGenerationFloor_sample]
  simp [parsedLegacySnapshot, snapshotFile, parseLegacySnapshot, fromValue_encode hfits, Except.map]

def legacyContext : StoreContext := ⟨zeroDigest, zeroDigest, zeroDigest, [], 7⟩

theorem loadLegacyAuthority_authentic :
    loadLegacyAuthority .zero .canonical legacyContext (snapshotFile (sampleSnapshot 2 none)) legacyFloorFile (.ok 3) =
      .ok ⟨some (sampleSnapshot 2 none), (PolicySnapshotV3.codec.encode (sampleSnapshot 2 none)).text, 2,
        some zeroDigest, false, true, none⟩ := by
  have hvalid : validateV3 .zero (sampleSnapshot 2 none) 1 zeroDigest zeroDigest [] 3 = .ok () :=
    validateV3_sample (by decide) (by decide) (by decide)
  rw [loadLegacyAuthority_sample rfl legacyContext rfl]
  have hnewer : ¬ ((sampleSnapshot 2 none).generation < 1 ∨ ((sampleSnapshot 2 none).generation = 1 ∧
      (some legacyFloor).any (fun f => f.policyDigest != (sampleSnapshot 2 none).policyDigest) = true)) := by
    simp [sampleSnapshot]
  simp only [combineLegacy, Option.elim_some, legacyFloor, legacyContext, Nat.max_self, hvalid] at hnewer ⊢
  rw [if_neg hnewer]
  simp [Except.toBool, sampleSnapshot]

theorem authentic_snapshot_trusted :
    TrustedFloor .zero .canonical [] (snapshotFile (sampleSnapshot 2 none)) legacyFloorFile 2 := by
  refine (legacy_generation_floor_trusted_iff loadLegacyAuthority_authentic).2 ?_
  intro value s hfile hs
  cases hfile
  rw [fromValue_encode rfl] at hs
  cases hs
  exact .inl hexEncode_zero

/-- A snapshot of generation 1000 with a MAC that nobody computed. -/
def forgedSnapshot : PolicySnapshotV3 :=
  { sampleSnapshot 1000 none with integrity := ⟨integrityAlgorithm, zeroDigest, "forged"⟩ }

theorem not_authentic_forgedSnapshot : ¬ forgedSnapshot.Authentic .zero [] := by
  show ¬ Lib.hexEncode (List.replicate 32 0) = "forged"
  rw [hexEncode_zero]
  decide +kernel

theorem validateV3_authentic {sha : Hash} {minimum now : Nat} {runtime rule : String} {key : Bytes}
    (h : (validateV3 sha s minimum runtime rule key now).toBool = true) : s.Authentic sha key := by
  have hok : validateV3 sha s minimum runtime rule key now = .ok () := by
    cases hv : validateV3 sha s minimum runtime rule key now with
    | error e => simp [hv, Except.toBool] at h
    | ok u => rfl
  simp only [validateV3, Lib.ite_error_eq_ok, not_not] at hok
  exact hok.2.2.2.2.2.2.2.2.2.2.2.2.2.2.2.2.1

/-- Beside an authentic floor of generation 1, the forged snapshot is discarded and its generation kept. -/
theorem forged_generation_becomes_floor :
    loadLegacyAuthority .zero .canonical legacyContext (snapshotFile forgedSnapshot) legacyFloorFile (.ok 3) =
      .ok ⟨none, "", 1000, some zeroDigest, false, true, none⟩ ∧
    ¬ TrustedFloor .zero .canonical [] (snapshotFile forgedSnapshot) legacyFloorFile 1000 := by
  constructor
  · rw [loadLegacyAuthority_sample rfl legacyContext rfl]
    have hinvalid : ¬ ((validateV3 .zero forgedSnapshot 1 zeroDigest zeroDigest [] 3).toBool = true ∧
        forgedSnapshot.scopeContract.scopeDigest = zeroDigest) :=
      fun h => not_authentic_forgedSnapshot (validateV3_authentic h.1)
    simp only [combineLegacy, Option.elim_some, legacyFloor, legacyContext, Nat.max_self, hinvalid]
    simp [forgedSnapshot, sampleSnapshot]
  · intro htrusted
    rcases htrusted.authenticated with hzero | ⟨f, hf, -, hgen⟩ | ⟨s, hs, hauth, -⟩
    · exact absurd hzero (by decide)
    · obtain ⟨_, hbad⟩ | ⟨g, hread, hg, -⟩ := readGenerationFloor_cases readGenerationFloor_sample
      · cases hbad
      · cases hread
        rw [hf.unique hg] at hgen
        exact absurd hgen (by decide)
    · obtain ⟨_, _, hfile, hs⟩ := hs
      cases hfile
      rw [fromValue_encode rfl] at hs
      cases hs
      exact not_authentic_forgedSnapshot hauth

end Policy
end Guard
