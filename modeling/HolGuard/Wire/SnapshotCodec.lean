import HolGuard.Lib.PythonJson
import HolGuard.Wire.StrictJson
/-!
# The canonical bytes of a policy snapshot

The snapshot's MAC is computed over canonical JSON by the Python writer and checked over canonical JSON by the native
one.  For a value without floats the two write the same bytes, and each side's strict reader takes them back
(`canonical_json_bytes_agree`).
-/
namespace Guard.Wire

open Lib JsonReader
open Lib.KeyOrder (bytes codes)

/-! ## The native encoder -/

section

variable (B : Binary64)

def numberText : Number B.F → List Char
  | .int i => intText i.val
  | .float f => B.display f

/-- The keys of every object are sorted by their bytes; a string is written as serde writes it. -/
def writeCanonicalJson (value : NativeValue B.F) : List Char :=
  (value.sorted bytes).write writeString (numberText B)

/-- No step of the writer fails. -/
def canonicalJsonBytes (value : NativeValue B.F) : Except String Bytes :=
  .ok (utf8 (String.ofList (writeCanonicalJson B value)))

/-! ## The Python encoder -/

/-- The size of a string's UTF-8 text, if it has one. -/
def utf8SizeV3 (codes : List Nat) : Option Nat := (scalarString codes).map String.utf8ByteSize

def sizeWithin (codes : List Nat) : Bool := (utf8SizeV3 codes).any (· ≤ maxJsonStringBytes)

def checkDepthV3 (depth : Nat) (rest : Except String Unit) : Except String Unit :=
  if maxJsonDepth < depth then .error "native_policy_snapshot_nested_depth_exceeded" else rest

mutual

/-- Mirrors the resident's limits.  A tree holds itself nowhere, so no nested cycle is met. -/
def validateJsonLimitsV3 (depth : Nat) : PyValue B.F → Except String Unit
  | .str codes => checkDepthV3 depth
      (if ¬ sizeWithin codes then .error "native_policy_snapshot_string_too_large" else .ok ())
  | .null => checkDepthV3 depth (.ok ())
  | .bool _ => checkDepthV3 depth (.ok ())
  | .num (.int _) => checkDepthV3 depth (.ok ())
  | .num (.float f) => checkDepthV3 depth
      (if ¬ B.isFinite f then .error "native_policy_snapshot_number_invalid" else .ok ())
  | .obj members => checkDepthV3 depth
      (if maxJsonCollectionItems < members.length then .error "native_policy_snapshot_object_too_wide"
       else validateMembersV3 (depth + 1) members)
  | .arr items => checkDepthV3 depth
      (if maxJsonCollectionItems < items.length then .error "native_policy_snapshot_array_too_wide"
       else validateItemsV3 (depth + 1) items)

def validateItemsV3 (depth : Nat) : List (PyValue B.F) → Except String Unit
  | [] => .ok ()
  | v :: vs => (validateJsonLimitsV3 depth v).bind (fun _ => validateItemsV3 depth vs)

def validateMembersV3 (depth : Nat) : List (List Nat × PyValue B.F) → Except String Unit
  | [] => .ok ()
  | (key, v) :: ms =>
    if ¬ sizeWithin key then .error "native_policy_snapshot_key_too_large"
    else (validateJsonLimitsV3 depth v).bind (fun _ => validateMembersV3 depth ms)

end

/-- Past the limits no string holds a surrogate, so the text encodes. -/
def canonicalJsonBytesV3 (value : PyValue B.F) : Except String Bytes :=
  (validateJsonLimitsV3 B 0 value).bind (fun _ =>
    match pyDumps B unicodeString value with
    | .error _ => .error "native_policy_snapshot_serialization_failed"
    | .ok text => .ok (utf8 (String.ofList text)))

/-! ## The Python decoder -/

/-- The pairs after the keys already set. -/
def rejectDuplicatePairsFrom {F : Type} (keys : List (List Nat)) :
    List (List Nat × PyValue F) → Except String (List (List Nat × PyValue F))
  | [] => .ok []
  | (key, value) :: pairs =>
    if key ∈ keys then .error "native_policy_snapshot_duplicate_key"
    else (rejectDuplicatePairsFrom (key :: keys) pairs).map ((key, value) :: ·)

def rejectDuplicatePairs {F : Type} : PairsHook F := rejectDuplicatePairsFrom []

/-- Bytes and texts that are not JSON are reported; an integer `int()` does not read is raised as it is. -/
def strictJsonLoadsV3 (payload : Bytes) : Except String (PyValue B.F) :=
  match decodeUtf8 payload with
  | none => .error "native_policy_snapshot_json_invalid"
  | some text => match pyLoads B rejectDuplicatePairs text with
    | .error e => if e = "JSONDecodeError" then .error "native_policy_snapshot_json_invalid" else .error e
    | .ok value => .ok value

end

theorem rejectDuplicatePairsFrom_of_nodup {F : Type} : ∀ (ms : List (List Nat × PyValue F)) (keys : List (List Nat)),
    (ms.map Prod.fst).Nodup → (ms.map Prod.fst).Disjoint keys → rejectDuplicatePairsFrom keys ms = .ok ms
  | [], _, _, _ => rfl
  | (k, v) :: ms, keys, hnodup, hfresh => by
    obtain ⟨hk, hnodup⟩ := List.nodup_cons.1 hnodup
    obtain ⟨hnew, hfresh⟩ := List.disjoint_cons_left.1 hfresh
    rw [rejectDuplicatePairsFrom, if_neg hnew,
      rejectDuplicatePairsFrom_of_nodup ms (k :: keys) hnodup (List.disjoint_cons_right.2 ⟨hk, hfresh⟩)]
    rfl

theorem keepsDistinct_rejectDuplicatePairs {F : Type} : KeepsDistinct (rejectDuplicatePairs (F := F)) := fun ms h =>
  rejectDuplicatePairsFrom_of_nodup ms [] h (List.disjoint_nil_right _)

/-! ## One value on both sides -/

/-- A JSON value without floats, its integers in native range, members in any order. -/
abbrev IntegerValue := JsonTree String NativeInt

namespace IntegerValue

def native (B : Binary64) (v : IntegerValue) : NativeValue B.F := (v.map id Number.int).sorted bytes

def python (B : Binary64) (v : IntegerValue) : PyValue B.F := v.map codePoints (fun i => .int i.val)

def text (v : IntegerValue) : String :=
  String.ofList ((v.sorted bytes).write writeString (fun i => intText i.val))

end IntegerValue

section

variable {B : Binary64}

theorem legible_integers :
    Legible writeString (fun i : NativeInt => intText i.val) codePoints (fun i => intToken i.val) where
  str_scan := scanString_writeString
  num_head i := intText_head i.val
  num_read i _ hr := readNumber_intText i.val hr

variable {v : IntegerValue}

theorem writeCanonicalJson_native (hv : v.Distinct) :
    String.ofList (writeCanonicalJson B (v.native B)) = v.text := by
  have hsort : ((v.map id Number.int).sorted bytes : NativeValue B.F) =
      (v.sorted bytes).map id Number.int := JsonTree.sorted_map (fun _ _ => rfl) v
  have hordered : (v.native B).Ordered bytes :=
    JsonTree.ordered_sorted _ ((JsonTree.distinct_map Function.injective_id v).2 hv)
  rw [writeCanonicalJson, JsonTree.sorted_of_ordered _ hordered, IntegerValue.native, hsort, JsonTree.write_map]
  rfl

theorem sorted_python (v : IntegerValue) :
    (v.python B).sorted codes = IntegerValue.python B (v.sorted bytes) :=
  JsonTree.sorted_map bytes_le_eq v

theorem pyDumps_python (v : IntegerValue) : pyDumps B unicodeString (v.python B) = .ok v.text.toList := by
  have hfinite : (v.python B).EveryNumber (PyNumber.Finite B) :=
    (JsonTree.everyNumber_map v).2 (JsonTree.everyNumber_of_forall (fun _ => trivial) v)
  rw [pyDumps, if_pos hfinite, sorted_python, IntegerValue.python, JsonTree.write_map, IntegerValue.text,
    String.toList_ofList]
  simp only [unicodeString_codePoints, pyNumberText]

/-! ## The limits of both sides are the same -/

theorem checkDepthV3_eq_ok {depth : Nat} {rest : Except String Unit} :
    checkDepthV3 depth rest = .ok () ↔ depth ≤ maxJsonDepth ∧ rest = .ok () := by
  rw [checkDepthV3, ite_error_eq_ok, Nat.not_lt]

theorem sizeWithin_codePoints (s : String) :
    sizeWithin (codePoints s) = true ↔ s.utf8ByteSize ≤ maxJsonStringBytes := by
  rw [sizeWithin, utf8SizeV3, scalarString_codePoints]
  simp

mutual

theorem validateJsonLimitsV3_python : ∀ (v : IntegerValue) (depth : Nat),
    validateJsonLimitsV3 B depth (v.python B) = .ok () ↔ depth ≤ maxJsonDepth ∧ Within depth v
  | .null, depth => by simp [IntegerValue.python, JsonTree.map, validateJsonLimitsV3, checkDepthV3_eq_ok, Within]
  | .bool _, depth => by simp [IntegerValue.python, JsonTree.map, validateJsonLimitsV3, checkDepthV3_eq_ok, Within]
  | .num _, depth => by simp [IntegerValue.python, JsonTree.map, validateJsonLimitsV3, checkDepthV3_eq_ok, Within]
  | .str s, depth => by
    simp only [IntegerValue.python, JsonTree.map, validateJsonLimitsV3, checkDepthV3_eq_ok, Within, ite_error_eq_ok,
      sizeWithin_codePoints, Classical.not_not, and_true]
  | .arr vs, depth => by
    simp only [IntegerValue.python, JsonTree.map, validateJsonLimitsV3, checkDepthV3_eq_ok, Within, ite_error_eq_ok,
      Nat.not_lt, validateItemsV3_python vs]
    rw [JsonTree.mapItems_eq, List.length_map]
  | .obj ms, depth => by
    simp only [IntegerValue.python, JsonTree.map, validateJsonLimitsV3, checkDepthV3_eq_ok, Within, ite_error_eq_ok,
      Nat.not_lt, validateMembersV3_python ms]
    rw [JsonTree.mapMembers_eq, List.length_map]

theorem validateItemsV3_python : ∀ (vs : List IntegerValue) (depth : Nat),
    validateItemsV3 B depth (JsonTree.mapItems codePoints (fun i => .int i.val) vs) = .ok () ↔ WithinItems depth vs
  | [], _ => iff_of_true rfl trivial
  | v :: vs, depth => by
    have hv := validateJsonLimitsV3_python v depth
    have hvs := validateItemsV3_python vs depth
    rw [JsonTree.mapItems, validateItemsV3, WithinItems, ← hvs, ← and_assoc, ← hv]
    exact bind_eq_ok.trans ⟨fun ⟨_, h, hs⟩ => ⟨h, hs⟩, fun ⟨h, hs⟩ => ⟨(), h, hs⟩⟩

theorem validateMembersV3_python : ∀ (ms : List (String × IntegerValue)) (depth : Nat),
    validateMembersV3 B depth (JsonTree.mapMembers codePoints (fun i => .int i.val) ms) = .ok () ↔
      WithinMembers depth ms
  | [], _ => iff_of_true rfl trivial
  | (k, v) :: ms, depth => by
    have hv := validateJsonLimitsV3_python v depth
    have hms := validateMembersV3_python ms depth
    rw [JsonTree.mapMembers, validateMembersV3, ite_error_eq_ok, Classical.not_not, sizeWithin_codePoints,
      WithinMembers, ← hms]
    constructor
    · rintro ⟨hk, h⟩
      obtain ⟨_, h, hs⟩ := bind_eq_ok.1 h
      obtain ⟨hdepth, hw⟩ := hv.1 h
      exact ⟨hdepth, hk, hw, hs⟩
    · rintro ⟨hdepth, hk, hw, hs⟩
      exact ⟨hk, bind_eq_ok.2 ⟨(), hv.2 ⟨hdepth, hw⟩, hs⟩⟩

end

/-! ## What each side does with the canonical text -/

theorem canonicalJsonBytes_native (hv : v.Distinct) :
    canonicalJsonBytes B (v.native B) = .ok (utf8 v.text) := by
  rw [canonicalJsonBytes, writeCanonicalJson_native hv]

theorem canonicalJsonBytesV3_python (hlimits : validateJsonLimitsV3 B 0 (v.python B) = .ok ()) :
    canonicalJsonBytesV3 B (v.python B) = .ok (utf8 v.text) := by
  refine bind_eq_ok.2 ⟨(), hlimits, ?_⟩
  rw [pyDumps_python]
  simp only [String.ofList_toList]

theorem readDocument_text (v : IntegerValue) :
    readDocument v.text.toList = some ((v.sorted bytes).map codePoints (fun i => intToken i.val)) := by
  rw [IntegerValue.text, String.toList_ofList]
  exact readDocument_write legible_integers _

theorem distinct_sorted (hv : v.Distinct) : (v.sorted bytes).Distinct :=
  (JsonTree.ordered_sorted v hv).distinct

theorem parse_text (hv : v.Distinct) (hw : Within 0 v) : parse B v.text = .ok (v.native B) := by
  let u : SpelledValue B.F := (v.sorted bytes).map id (fun i => (intToken i.val, .int i))
  refine parse_eq_ok.2 ⟨u, ?_, ?_, ?_, ?_, ?_⟩
  · rw [readDocument_text, SpelledValue.raw, JsonTree.map_map]
    rfl
  · have hord := JsonTree.ordered_sorted (o := bytes) v hv
    rw [SpelledValue.value, JsonTree.map_map, IntegerValue.native]
    exact (JsonTree.sorted_map (fun _ _ => rfl) _).trans
      ((congrArg _ (JsonTree.sorted_of_ordered _ hord)).trans (JsonTree.sorted_map (fun _ _ => rfl) v).symm)
  · exact (JsonTree.everyNumber_map _).2 (JsonTree.everyNumber_of_forall (fun i => nativeNumber_intToken B i) _)
  · exact (JsonTree.distinct_map Function.injective_id _).2 (distinct_sorted hv)
  · exact (within_map _ 0).2 ((within_sorted v 0).2 hw)

theorem pyNumber_intToken (i : NativeInt) : pyNumber B (intToken i.val) = .ok (.int i.val) := by
  have hrange := i.fits
  have hlen : (Nat.toDigits 10 i.val.natAbs).length ≤ maxStrDigits := by
    refine Nat.le_trans ((Nat.length_toDigits_le_iff (k := 20) (by decide) (by decide)).2 ?_) (by decide)
    rw [FitsNative] at hrange
    omega
  rw [intToken, pyNumber, if_neg (by simp), if_neg (Nat.not_lt.2 hlen), integer_intToken]

theorem strictJsonLoadsV3_text (hv : v.Distinct) :
    strictJsonLoadsV3 B (utf8 v.text) = .ok ((v.python B).sorted codes) := by
  have hload : pyValue B rejectDuplicatePairs ((v.sorted bytes).map codePoints (fun i => intToken i.val)) =
      .ok (IntegerValue.python B (v.sorted bytes)) :=
    pyValue_map keepsDistinct_rejectDuplicatePairs codePoints_injective (v.sorted bytes) (distinct_sorted hv)
      (JsonTree.everyNumber_of_forall pyNumber_intToken _)
  rw [strictJsonLoadsV3, decodeUtf8_utf8]
  simp only [pyLoads, readDocument_text, hload, sorted_python]

theorem intToken_injective : Function.Injective (fun i : NativeInt => intToken i.val) := fun i j h => by
  have hnumeral := NumberToken.numeral.inj h
  exact NativeInt.ext (by rw [← integer_intToken i.val, hnumeral, integer_intToken])

theorem text_injective {w : IntegerValue} (h : v.text = w.text) :
    v.sorted bytes = w.sorted bytes := by
  have hread := congrArg (fun t : String => readDocument t.toList) h
  simp only [readDocument_text, Option.some.injEq] at hread
  exact JsonTree.map_injective codePoints_injective intToken_injective hread

end

/-- **Both encoders write one value to the same bytes, and both strict decoders read the bytes back**: the native one as
the value, the Python one as the value with its members in key order.  Equal bytes come from equal values; and what one
side accepts as canonical, being the encoding of what it decodes to, the other side accepts as canonical too. -/
theorem canonical_json_bytes_agree (B : Binary64) (v : IntegerValue) (hv : v.Distinct)
    (hlimits : validateJsonLimitsV3 B 0 (v.python B) = .ok ()) :
    (∃ text bytes, utf8 text = bytes ∧
      canonicalJsonBytes B (v.native B) = .ok bytes ∧ canonicalJsonBytesV3 B (v.python B) = .ok bytes ∧
      parse B text = .ok (v.native B) ∧ strictJsonLoadsV3 B bytes = .ok ((v.python B).sorted KeyOrder.codes)) ∧
    (∀ w : IntegerValue, w.Distinct → canonicalJsonBytes B (w.native B) = canonicalJsonBytes B (v.native B) →
      w.native B = v.native B ∧ (w.python B).sorted KeyOrder.codes = (v.python B).sorted KeyOrder.codes) ∧
    (∀ bytes, strictJsonLoadsV3 B bytes = .ok (v.python B) → canonicalJsonBytesV3 B (v.python B) = .ok bytes →
      ∃ text, utf8 text = bytes ∧ parse B text = .ok (v.native B) ∧ canonicalJsonBytes B (v.native B) = .ok bytes) ∧
    (∀ text, parse B text = .ok (v.native B) → canonicalJsonBytes B (v.native B) = .ok (utf8 text) →
      ∃ p, strictJsonLoadsV3 B (utf8 text) = .ok p ∧ canonicalJsonBytesV3 B p = .ok (utf8 text)) := by
  have hwithin : Within 0 v := ((validateJsonLimitsV3_python v 0).1 hlimits).2
  have hnative := canonicalJsonBytes_native (B := B) hv
  have hpython := canonicalJsonBytesV3_python hlimits
  have hparse := parse_text (B := B) hv hwithin
  have hloads := strictJsonLoadsV3_text (B := B) hv
  refine ⟨⟨v.text, utf8 v.text, rfl, hnative, hpython, hparse, hloads⟩, fun w hw h => ?_, fun bytes _ hb => ?_,
    fun text _ htext => ?_⟩
  · rw [canonicalJsonBytes_native hw, hnative] at h
    have hsort := text_injective (utf8_injective (Except.ok.inj h))
    refine ⟨?_, by rw [sorted_python, sorted_python, hsort]⟩
    have hmap : ∀ x : IntegerValue, x.native B = (x.sorted bytes).map id Number.int := fun x =>
      JsonTree.sorted_map (fun _ _ => rfl) x
    rw [hmap, hmap, hsort]
  · rw [hpython] at hb
    cases hb
    exact ⟨v.text, rfl, hparse, hnative⟩
  · rw [hnative] at htext
    have hlimits' : validateJsonLimitsV3 B 0 (IntegerValue.python B (v.sorted bytes)) = .ok () :=
      (validateJsonLimitsV3_python _ 0).2 ⟨Nat.zero_le _, (within_sorted v 0).2 hwithin⟩
    have hidem : IntegerValue.text (v.sorted bytes) = v.text := by
      rw [IntegerValue.text, JsonTree.sorted_of_ordered _ (JsonTree.ordered_sorted v hv), IntegerValue.text]
    rw [← Except.ok.inj htext]
    refine ⟨_, hloads, ?_⟩
    rw [sorted_python, canonicalJsonBytesV3_python hlimits', hidem]

/-- An object with its members out of order, a negative integer and a character outside ASCII. -/
def sampleValue : IntegerValue :=
  .obj [("b", .num ⟨-7, by decide⟩), ("a", .arr [.str "é", .null])]

theorem canonical_json_bytes_agree_sample : ∃ bytes,
    canonicalJsonBytes Binary64.integral (sampleValue.native _) = .ok bytes ∧
      canonicalJsonBytesV3 Binary64.integral (sampleValue.python _) = .ok bytes ∧
      strictJsonLoadsV3 Binary64.integral bytes = .ok ((sampleValue.python _).sorted KeyOrder.codes) := by
  have hdistinct : sampleValue.Distinct := by
    simp [sampleValue, JsonTree.Distinct, JsonTree.EveryKeys, JsonTree.EveryKeysMembers, JsonTree.EveryKeysItems]
  have hwithin : Within 0 sampleValue := by
    refine ⟨by decide, by decide, by decide, trivial, by decide, by decide, ⟨by decide, by decide, ?_, ?_⟩, trivial⟩
    · exact (by decide : "é".utf8ByteSize ≤ maxJsonStringBytes)
    · exact ⟨by decide, trivial, trivial⟩
  obtain ⟨⟨text, bytes, -, hnative, hpython, -, hloads⟩, -⟩ := canonical_json_bytes_agree Binary64.integral sampleValue
    hdistinct ((validateJsonLimitsV3_python sampleValue 0).2 ⟨by decide, hwithin⟩)
  exact ⟨bytes, hnative, hpython, hloads⟩

end Guard.Wire
